import Surd.Calculator.Operand
import Surd.Listing

/-! The texts of fractions, products, tables and square roots for operands of all kinds. -/

namespace Surd.Calculator

def fractionText (v : Value) : Except Fault String := do
  let r ← v.toRat
  if r.den = 1 ∧ hasWritableLength r.num ∨ hasWritableLength r.num ∧ hasWritableLength r.den then
    .ok (rationalText r)
  else .error .tooLongToWrite

/-- A value's text, if all that it holds can be written. -/
def shownText (v : Value) : Except Fault String := if v.isWritable then .ok v.shown else .error .tooLongToWrite

def pairOf (v : Value) : Except Fault (Value × Value) := do
  match ← v.toItems with
  | [first, second] => .ok (first, second)
  | [] => .error (.tooFewItems 2 0)
  | [_] => .error (.tooFewItems 2 1)
  | _ => .error (.tooManyItems 2)

def factorText (pair : Value) : Except Fault String := do
  let (base, count) ← pairOf pair
  let repeated ← (Value.int 1).isBelow? count
  let base ← shownText base
  let count ← if repeated then shownText count else .ok ""
  .ok (Listing.powerText base count repeated)

def factorizationText (factors : Value) : Except Fault String := do
  let parts ← (← factors.toItems).mapM factorText
  .ok (Listing.product parts)

/-- What stands in a cell: a number that is no fraction, or a text. A truth value stands there
as the number that it counts as. -/
def cellText (v : Value) : Except Fault String :=
  match v.integer? with
  | some n => shownText (.int n)
  | none =>
    match v with
    | .float x => .ok x.text
    | .text s => .ok s
    | other => .error (.unsupportedKind s!"{other.kind} has no place in a cell")

/-- Items laid out in rows, in cells as wide as the last item. Without items there are no rows,
whatever the length of a row is. -/
def tableText (items perRow : Value) : Except Fault String := do
  if ← perRow.isBelow? (.int 1) then .error (.rowWithoutCells perRow)
  else if !items.truth then .ok ""
  else
    match items with
    | .table _ => .error (.missingName "-1")
    | _ => do
      let row ← items.toItems
      let last ← shownText (row.getLast?.getD (.text ""))
      let length ← perRow.toInteger
      let texts ← row.mapM cellText
      .ok (Listing.grid last.length length.toNat texts)

def rootLine (part root : Value) : Except Fault String :=
  if part.equalsInteger 0 then .ok "0"
  else if root.equalsInteger 1 then fractionText part
  else if part.equalsInteger 1 then do
    let root ← shownText root
    .ok ("sqrt(" ++ root ++ ")")
  else do
    let text ← fractionText part
    let root ← shownText root
    .ok (text ++ " * sqrt(" ++ root ++ ")")

end Surd.Calculator
