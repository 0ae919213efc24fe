import Surd.Fault

/-! Order and equality of values whatever their kinds. Numbers of all kinds are ordered by the
exact numbers that they are, texts by code points, and lists by the first items that differ.
Not-a-number stands in no order to anything. -/

namespace Surd

/-- An exact number, or one of the two infinities, or none. -/
inductive Extended where
  | nan
  | infinite (negative : Bool)
  | finite (r : Rat)
  deriving DecidableEq, Repr

namespace Extended

def ofBinary64 (x : Binary64) : Extended :=
  match x with
  | .nan => .nan
  | .infinite negative => .infinite negative
  | .finite .. => .finite (x.toRat?.getD 0)

def order? : Extended → Extended → Option Ordering
  | .nan, _ | _, .nan => none
  | .infinite a, .infinite b => some (if a = b then .eq else if a then .lt else .gt)
  | .infinite a, .finite _ => some (if a then .lt else .gt)
  | .finite _, .infinite b => some (if b then .gt else .lt)
  | .finite a, .finite b => some (if a < b then .lt else if b < a then .gt else .eq)

end Extended

namespace Value

def extended? : Value → Option Extended
  | .bool b => some (.finite (if b then 1 else 0))
  | .int n => some (.finite n)
  | .fraction r => some (.finite r)
  | .float x => some (.ofBinary64 x)
  | _ => none

def numericOrder? (a b : Value) : Option Ordering := do (← a.extended?).order? (← b.extended?)

def isBelow (a b : Value) : Bool := a.numericOrder? b == some .lt

def isAtMost (a b : Value) : Bool :=
  match a.numericOrder? b with
  | some order => order != .gt
  | none => false

def sameNumber (a b : Value) : Bool := a.numericOrder? b == some .eq

mutual

/-- Equality of values: numbers whatever their kinds, tables whatever the order of their entries. -/
def equals : Value → Value → Bool
  | .null, .null => true
  | .text a, .text b => a == b
  | .moment a, .moment b => decide (a = b)
  | .list a, .list b => equalItems a b
  | .table a, .table b => a.length == b.length && entriesIn a b
  | a, b => a.sameNumber b

def equalItems : List Value → List Value → Bool
  | [], [] => true
  | a :: rest, b :: others => a.equals b && equalItems rest others
  | _, _ => false

def entriesIn : List (String × Value) → List (String × Value) → Bool
  | [], _ => true
  | (name, value) :: rest, others =>
    (match entry? name others with
     | some other => value.equals other
     | none => false) && entriesIn rest others

end

mutual

/-- How two values stand to each other. Only numbers, texts and lists have an order, each
among themselves. -/
def order : Value → Value → Except Fault (Option Ordering)
  | .text a, .text b => .ok (some (compare a b))
  | .list a, .list b => orderItems a b
  | a, b =>
    if a.isNumber && b.isNumber then .ok (a.numericOrder? b)
    else .error (.unsupportedKind s!"{a.kind} and {b.kind} have no order")

def orderItems : List Value → List Value → Except Fault (Option Ordering)
  | [], [] => .ok (some .eq)
  | [], _ :: _ => .ok (some .lt)
  | _ :: _, [] => .ok (some .gt)
  | a :: rest, b :: others => if a.equals b then orderItems rest others else a.order b

end

def isAtMost? (a b : Value) : Except Fault Bool :=
  (a.order b).map fun order => order == some .lt || order == some .eq

def isBelow? (a b : Value) : Except Fault Bool := (a.order b).map (· == some .lt)

end Value
end Surd
