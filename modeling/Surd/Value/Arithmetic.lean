import Surd.Binary64.Power

/-! Products and powers of values. Integers and fractions are exact, a double in a product makes
it one, and texts and lists are repeated by integers. -/

namespace Surd.Value

def integer? : Value → Option Int
  | .bool b => some (if b then 1 else 0)
  | .int n => some n
  | _ => none

def rational? : Value → Option Rat
  | .fraction r => some r
  | other => other.integer?.map fun n => (n : Rat)

def toBinary64 : Value → Except Fault Binary64
  | .float x => .ok x
  | .fraction r =>
    match Binary64.ofRat? r with
    | some x => .ok x
    | none => .error .quotientTooLarge
  | other =>
    match other.integer? with
    | none => .error (.unsupportedKind s!"{other.kind} is no number")
    | some n =>
      match Binary64.ofRat? n with
      | some x => .ok x
      | none => .error .integerTooLarge

def countMax : Nat := 9223372036854775807

/-- How much a repetition or a power may take: items, characters or bits. -/
def heldMax : Nat := 2147483648

def repetition (count : Int) : Except Fault Nat :=
  if count.natAbs ≤ countMax then .ok count.toNat else .error .countTooLarge

def repeatText (text : String) (count : Int) : Except Fault Value := do
  let times ← repetition count
  if countMax < text.length * times then .error .repetitionTooLong
  else if heldMax < text.length * times then .error .outOfMemory
  else if text.isEmpty then .ok (.text text)
  else .ok (.text (String.join (List.replicate times text)))

def repeatItems (items : List Value) (count : Int) : Except Fault Value := do
  let times ← repetition count
  if heldMax < items.length * times then .error .outOfMemory
  else if items.isEmpty then .ok (.list items)
  else .ok (.list (List.replicate times items).flatten)

def repeated (items count : Value) : Except Fault Value :=
  match items, count.integer? with
  | .text s, some n => repeatText s n
  | .list items, some n => repeatItems items n
  | _, _ => .error (.unsupportedKind s!"{items.kind} and {count.kind} have no product")

def times (a b : Value) : Except Fault Value :=
  match a.integer?, b.integer? with
  | some x, some y => .ok (.int (x * y))
  | _, _ =>
    match a.rational?, b.rational? with
    | some r, some s => .ok (.fraction (r * s))
    | _, _ =>
      if a.isNumber && b.isNumber then do
        let x ← a.toBinary64
        let y ← b.toBinary64
        .ok (.float (x.mul y))
      else
        match b with
        | .text _ | .list _ => repeated b a
        | _ => repeated a b

def integerPower (base : Int) (exponent : Nat) : Except Fault Int :=
  if base.natAbs ≤ 1 then .ok (if exponent = 0 ∨ (base < 0 ∧ exponent % 2 = 0) then 1 else base)
  else if heldMax < base.natAbs.log2 * exponent then .error .outOfMemory
  else .ok (base.pow exponent)

/-- The power of an exact number. A whole exponent makes a fraction, any other one a double. -/
def exactPower (base exponent : Rat) : Except Fault Value :=
  if exponent.den = 1 then
    let steps := exponent.num.natAbs
    if 0 ≤ exponent.num then do
      let numer ← integerPower base.num steps
      let denom ← integerPower base.den steps
      .ok (.fraction (Rat.divInt numer denom))
    else if base = 0 then .error (.overZero 1)
    else do
      let numer ← integerPower base.den steps
      let denom ← integerPower base.num steps
      .ok (.fraction (Rat.divInt numer denom))
  else do
    let x ← toBinary64 (.fraction base)
    let y ← toBinary64 (.fraction exponent)
    (x.power y).map .float

/-- The power of two values of which neither is a fraction. Integers stay integers under
exponents that are not negative. -/
def plainPower (base exponent : Value) : Except Fault Value :=
  let floats := do
    let x ← base.toBinary64
    let y ← exponent.toBinary64
    (x.power y).map Value.float
  match base.integer?, exponent.integer? with
  | some b, some n => if 0 ≤ n then (integerPower b n.toNat).map .int else floats
  | _, _ =>
    if base.isNumber && exponent.isNumber then floats
    else .error (.unsupportedKind s!"{base.kind} and {exponent.kind} have no power")

/-- The power under an exponent that is a fraction. A whole one that is not negative counts
as an integer. -/
def fractionalPower (base : Value) (exponent : Rat) : Except Fault Value :=
  if exponent.den = 1 ∧ 0 ≤ exponent.num then plainPower base (.int exponent.num)
  else
    match base.integer? with
    | some b => exactPower b exponent
    | none =>
      if exponent.den = 1 then plainPower base (.int exponent.num)
      else do
        let y ← toBinary64 (.fraction exponent)
        plainPower base (.float y)

def power (base exponent : Value) : Except Fault Value :=
  match base, exponent with
  | .fraction r, _ =>
    match exponent.rational? with
    | some e => exactPower r e
    | none => do
      let x ← base.toBinary64
      plainPower (.float x) exponent
  | _, .fraction e => fractionalPower base e
  | _, _ => plainPower base exponent

end Surd.Value
