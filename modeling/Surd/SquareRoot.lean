import Surd.Rational32
import Surd.SquareSplit

/-! The exact square root of a narrow fraction: a fraction times the root of a square-free
number. -/

namespace Surd

structure SquareRoot where
  part : Rat
  root : Int
  deriving DecidableEq, Repr

def SquareRoot.value (result : SquareRoot) : Rat := result.part * result.part * result.root

/-- The square root of a fraction that is not negative, or nothing when it takes a number
that does not fit. The primes that occur oddly in the denominator move to the numerator, where
they end up under the root. -/
def Rational32.sqrt (r : Rational32) : Except Fault (Option SquareRoot) :=
  if r.val.num < 0 then .error (.negativeRoot r.val)
  else do
    let below ← SquareSplit.overRoot r.val.den
    let moved := r.val.num * below.root
    if wordMax < moved then .ok none
    else do
      let above ← SquareSplit.timesRoot moved
      if partMax < above.square ∨ partMax < below.square then .ok none
      else .ok (some ⟨Rat.divInt above.square below.square, above.root⟩)

end Surd
