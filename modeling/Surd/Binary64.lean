/-! Double precision numbers as exact values. A finite one is a sign, a mantissa and
a power of two, so comparison and conversion are integer arithmetic. -/

namespace Surd

/-- A binary floating point number of 64 bits. The magnitude of a finite one is
its mantissa times two to its exponent. -/
inductive Binary64 where
  | nan
  | infinite (negative : Bool)
  | finite (negative : Bool) (mantissa : Nat) (exponent : Int)
  deriving DecidableEq, Repr, Inhabited

namespace Binary64

/-- A quotient rounded to the nearest integer, a tie to the even one. -/
def roundQuotient (num den : Nat) : Nat :=
  let below := num / den
  let rest := 2 * (num % den)
  if rest < den then below
  else if den < rest then below + 1
  else if below % 2 = 0 then below else below + 1

def leastExponent : Int := -1074

def largestExponent : Int := 971

private def shifted (num den : Nat) (exponent : Int) : Nat × Nat :=
  if 0 ≤ exponent then (num, den * Nat.pow 2 exponent.toNat) else (num * Nat.pow 2 (-exponent).toNat, den)

private def unit (num den : Nat) : Int :=
  let guess : Int := (num.log2 : Int) - (den.log2 : Int) - 52
  let scaled := shifted num den guess
  let exact := if scaled.1 < Nat.pow 2 52 * scaled.2 then guess - 1 else guess
  max exact leastExponent

/-- The number nearest a positive quotient, ties to the even mantissa. -/
def ofQuotient (negative : Bool) (num den : Nat) : Binary64 :=
  if num = 0 ∨ den = 0 then .finite negative 0 leastExponent
  else
    let exponent := unit num den
    let scaled := shifted num den exponent
    let mantissa := roundQuotient scaled.1 scaled.2
    let carried := if mantissa = Nat.pow 2 53 then (Nat.pow 2 52, exponent + 1) else (mantissa, exponent)
    if largestExponent < carried.2 then .infinite negative
    else .finite negative carried.1 carried.2

/-- The number nearest `digits * 10 ^ exponent`. Magnitudes far outside the range are
decided by the count of digits alone. -/
def ofDecimal (negative : Bool) (digits : Nat) (exponent : Int) : Binary64 :=
  if digits = 0 then .finite negative 0 leastExponent
  else
    let length : Int := (Nat.toDigits 10 digits).length
    if 400 < length + exponent then .infinite negative
    else if length + exponent < -400 then .finite negative 0 leastExponent
    else if 0 ≤ exponent then ofQuotient negative (digits * Nat.pow 10 exponent.toNat) 1
    else ofQuotient negative digits (Nat.pow 10 (-exponent).toNat)

def quotient (mantissa : Nat) (exponent : Int) : Nat × Nat :=
  if 0 ≤ exponent then (mantissa * Nat.pow 2 exponent.toNat, 1) else (mantissa, Nat.pow 2 (-exponent).toNat)

def toRat? : Binary64 → Option Rat
  | .finite negative mantissa exponent =>
    let magnitude := quotient mantissa exponent
    let value := mkRat magnitude.1 magnitude.2
    some (if negative then -value else value)
  | _ => none

def isZero : Binary64 → Bool
  | .finite _ mantissa _ => mantissa == 0
  | _ => false

end Binary64
end Surd
