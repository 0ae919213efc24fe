import Surd.Binary64.Arithmetic
import Surd.Fault

/-! Powers of doubles. What has a power at all is decided here; its last digit is the one of
the machine's own power function, which need not be the nearest. -/

namespace Surd.Binary64

def machinePower (base exponent : Binary64) : Binary64 :=
  ofBits (Float.pow (Float.ofBits base.toBits) (Float.ofBits exponent.toBits)).toBits

/-- The fault of a power that is not real, which tells when even its magnitude is too large. -/
def unreal (base exponent : Binary64) : Fault :=
  match machinePower base.magnitude exponent with
  | .infinite _ => .complexTooLarge
  | _ => .unsupportedKind "the power is not real"

/-- The power of finite or infinite numbers. Zero has no negative powers, a negative number only
whole ones, and finite numbers no infinite power. -/
def power (base exponent : Binary64) : Except Fault Binary64 :=
  match base, exponent with
  | .finite negative mantissa _, .finite below _ _ =>
    if mantissa = 0 ∧ below ∧ !exponent.isZero then .error .zeroToNegative
    else if mantissa ≠ 0 ∧ negative ∧ !exponent.isWhole then .error (unreal base exponent)
    else
      match machinePower base exponent with
      | .infinite _ => .error .resultTooLarge
      | result => .ok result
  | _, _ => .ok (machinePower base exponent)

end Surd.Binary64
