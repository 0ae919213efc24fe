import Surd.PrimeTable.Factors
import Surd.SquareRoot.Text

/-! The texts of factorizations and of tables of numbers. -/

namespace Surd.Listing

/-- A base with its power, which is left out where it is not above one. -/
def powerText (base count : String) (repeated : Bool) : String :=
  if repeated then base ++ "^" ++ count else base

def factorText (factor : Factor) : String :=
  powerText (toString factor.base) (toString factor.count) (1 < factor.count)

def product (parts : List String) : String :=
  if parts.isEmpty then "1" else " × ".intercalate parts

def factorization (factors : List Factor) : String := product (factors.map factorText)

def rows {α : Type} (length : Nat) (items : List α) : List (List α) :=
  match items with
  | [] => []
  | first :: rest =>
    if length = 0 then []
    else (first :: rest.take (length - 1)) :: rows length (rest.drop (length - 1))
termination_by items.length
decreasing_by
  simp only [List.length_drop, List.length_cons]
  omega

def cell (width : Nat) (text : String) : String := "".pushn ' ' (width - text.length) ++ text

def grid (width perRow : Nat) (texts : List String) : String :=
  "\n".intercalate ((rows perRow texts).map fun row => " ".intercalate (row.map (cell width)))

def table (numbers : List Int) (perRow : Nat) : String :=
  match numbers.getLast? with
  | none => ""
  | some last => grid (toString last).length perRow (numbers.map toString)

end Surd.Listing
