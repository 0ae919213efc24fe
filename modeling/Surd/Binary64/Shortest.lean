import Surd.Binary64

/-! The text of a double: the fewest decimal digits that read back as the same number,
and of those the nearest, written in positional notation over a middle range of magnitudes. -/

namespace Surd.Binary64

structure Decimal where
  digits : Nat
  exponent : Int
  deriving DecidableEq, Repr

private def scaledByTen (num den : Nat) (exponent : Int) : Nat × Nat :=
  if 0 ≤ exponent then (num, den * Nat.pow 10 exponent.toNat) else (num * Nat.pow 10 (-exponent).toNat, den)

def leadingPlace (num den : Nat) : Int :=
  if den ≤ num then ((Nat.toDigits 10 (num / den)).length : Int) - 1
  else
    let up := (Nat.toDigits 10 ((den + num - 1) / num)).length
    let scaled := num * Nat.pow 10 (up - 1)
    if den ≤ scaled then 1 - (up : Int) else -(up : Int)

/-- The neighbours of a positive number on a decimal grid, the nearer one first. -/
def neighbours (num den : Nat) (exponent : Int) : List Decimal :=
  let scaled := scaledByTen num den exponent
  let below := scaled.1 / scaled.2
  let rest := 2 * (scaled.1 % scaled.2)
  let first := Decimal.mk below exponent
  let second := Decimal.mk (below + 1) exponent
  if rest < scaled.2 ∨ (rest = scaled.2 ∧ below % 2 = 0) then [first, second] else [second, first]

def readsBack (mantissa : Nat) (exponent : Int) (decimal : Decimal) : Bool :=
  ofDecimal false decimal.digits decimal.exponent == .finite false mantissa exponent

/-- The first grid, from one digit up to seventeen, with a neighbour that reads back. -/
def search (mantissa : Nat) (exponent : Int) (num den : Nat) (place : Int) : Nat → Option Decimal
  | 0 => none
  | left + 1 =>
    let digits : Int := 16 - left
    match (neighbours num den (place - digits)).find? (readsBack mantissa exponent) with
    | some decimal => some decimal
    | none => search mantissa exponent num den place left

def shortest (mantissa : Nat) (exponent : Int) : Decimal :=
  let magnitude := quotient mantissa exponent
  let place := leadingPlace magnitude.1 magnitude.2
  (search mantissa exponent magnitude.1 magnitude.2 place 17).getD ⟨mantissa, exponent⟩

structure Layout where
  /-- Leading places from this one on are written positionally. -/
  leastPositional : Int
  /-- Leading places from this one on are written with an exponent. -/
  firstScientific : Int
  /-- What follows the last digit of a whole number. -/
  wholeSuffix : String
  /-- The least count of digits in an exponent. -/
  exponentWidth : Nat

/-- Magnitudes from a ten thousandth up to ten to the sixteenth are positional, whole
numbers end in a zero fraction, and an exponent has two digits at least. -/
def layout : Layout := ⟨-4, 16, ".0", 2⟩

def padded (width n : Nat) : String :=
  let digits := toString n
  "".pushn '0' (width - digits.length) ++ digits

def trimmed (digits : String) : String :=
  String.ofList ((digits.toList.reverse.dropWhile (· == '0')).reverse)

def Decimal.text (style : Layout) (decimal : Decimal) : String :=
  let digits := trimmed (toString decimal.digits)
  let place : Int := (toString decimal.digits).length - 1 + decimal.exponent
  if style.leastPositional ≤ place ∧ place < style.firstScientific then
    if place < 0 then "0." ++ "".pushn '0' (-place - 1).toNat ++ digits
    else
      let whole := place.toNat + 1
      if digits.length ≤ whole then digits.pushn '0' (whole - digits.length) ++ style.wholeSuffix
      else String.ofList (digits.toList.take whole) ++ "." ++ String.ofList (digits.toList.drop whole)
  else
    let fraction := String.ofList (digits.toList.drop 1)
    String.ofList (digits.toList.take 1) ++ (if fraction.isEmpty then "" else "." ++ fraction) ++
      "e" ++ (if place < 0 then "-" else "+") ++ padded style.exponentWidth place.natAbs

def text : Binary64 → String
  | .nan => "nan"
  | .infinite negative => if negative then "-inf" else "inf"
  | .finite negative mantissa exponent =>
    (if negative then "-" else "") ++
      (if mantissa = 0 then "0" ++ layout.wholeSuffix else (shortest mantissa exponent).text layout)

end Surd.Binary64
