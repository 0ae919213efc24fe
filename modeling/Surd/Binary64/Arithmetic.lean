import Surd.Binary64

/-! Doubles from exact numbers, their product, and their layout in 64 bits: a sign, eleven bits
of exponent and 52 bits of fraction. -/

namespace Surd.Binary64

def zero (negative : Bool) : Binary64 := .finite negative 0 leastExponent

def ofRat? (r : Rat) : Option Binary64 :=
  match ofQuotient (r < 0) r.num.natAbs r.den with
  | .finite negative mantissa exponent => some (.finite negative mantissa exponent)
  | _ => none

def isNegative : Binary64 → Bool
  | .nan => false
  | .infinite negative | .finite negative _ _ => negative

def magnitude : Binary64 → Binary64
  | .nan => .nan
  | .infinite _ => .infinite false
  | .finite _ mantissa exponent => .finite false mantissa exponent

def isWhole (x : Binary64) : Bool :=
  match x.toRat? with
  | some r => r.den == 1
  | none => false

def mul : Binary64 → Binary64 → Binary64
  | .nan, _ | _, .nan => .nan
  | .infinite negative, other | other, .infinite negative =>
    if other.isZero then .nan else .infinite (negative != other.isNegative)
  | .finite negative mantissa exponent, .finite opposite factor power =>
    let magnitude := quotient (mantissa * factor) (exponent + power)
    ofQuotient (negative != opposite) magnitude.1 magnitude.2

def exponentBias : Nat := 1075

def unsignedBits : Binary64 → Nat
  | .nan => 2047 * Nat.pow 2 52 + Nat.pow 2 51
  | .infinite _ => 2047 * Nat.pow 2 52
  | .finite _ mantissa exponent =>
    if mantissa < Nat.pow 2 52 then mantissa
    else (exponent + exponentBias).toNat * Nat.pow 2 52 + (mantissa - Nat.pow 2 52)

def toBits (x : Binary64) : UInt64 :=
  UInt64.ofNat ((if x.isNegative then Nat.pow 2 63 else 0) + x.unsignedBits)

def ofBits (bits : UInt64) : Binary64 :=
  let n := bits.toNat
  let negative := n / Nat.pow 2 63 == 1
  let field : Nat := n / Nat.pow 2 52 % Nat.pow 2 11
  let fraction : Nat := n % Nat.pow 2 52
  if field = 2047 then (if fraction = 0 then .infinite negative else .nan)
  else if field = 0 then .finite negative fraction leastExponent
  else .finite negative (fraction + Nat.pow 2 52) ((field : Int) - exponentBias)

end Surd.Binary64
