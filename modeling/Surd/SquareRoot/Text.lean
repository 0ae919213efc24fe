import Surd.SquareRoot

/-! The texts of fractions and square roots: on one line with a product sign, and a picture over lines with
a fraction bar, for a program that has no library for such pictures. -/

namespace Surd

def rationalText (r : Rat) : String :=
  if r.den = 1 then toString r.num else toString r.num ++ "/" ++ toString r.den

namespace SquareRoot

/-- A square root on one line; a factor of one is left out. -/
def text (result : SquareRoot) : String :=
  if result.part = 0 then "0"
  else if result.root = 1 then rationalText result.part
  else if result.part = 1 then "sqrt(" ++ toString result.root ++ ")"
  else rationalText result.part ++ " * sqrt(" ++ toString result.root ++ ")"

/-- A text in the middle of a width, the odd blank on the right. -/
def centred (width : Nat) (text : String) : String :=
  let left := (width - text.length) / 2
  ("".pushn ' ' left ++ text).pushn ' ' (width - text.length - left)

def stacked (above below : String) : String :=
  let width := max above.length below.length
  centred width above ++ "\n" ++ "".pushn '─' width ++ "\n" ++ centred width below

def radical (factor root : Int) : String :=
  (if factor = 1 then "" else toString factor ++ "⋅") ++ "√" ++ toString root

/-- A square root drawn with a radical sign and a fraction bar. A fraction without a root is
drawn over three lines only when both of its parts have two digits or more. -/
def drawing (result : SquareRoot) : String :=
  let numer := result.part.num
  let denom := result.part.den
  if result.part = 0 then "0"
  else if result.root = 1 then
    if 10 ≤ numer ∧ 10 ≤ denom then stacked (toString numer) (toString denom)
    else rationalText result.part
  else if denom = 1 then radical numer result.root
  else stacked (radical numer result.root) (toString denom)

end SquareRoot
end Surd
