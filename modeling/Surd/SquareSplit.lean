import Surd.PrimeTable.Factors

/-! Words as a square and a square-free root: times the root, or over it. -/

namespace Surd

/-- A number whose square meets the word, and the square-free number that makes up the rest. -/
structure SquareSplit where
  square : Int
  root : Int
  deriving DecidableEq, Repr

namespace SquareSplit

def oddRoot (factors : List Factor) : Int :=
  ((factors.filter fun factor => factor.count % 2 == 1).map Factor.base).foldr (· * ·) 1

def product (power : Nat → Nat) (factors : List Factor) : Int :=
  (factors.map fun factor => factor.base.pow (power factor.count)).foldr (· * ·) 1

/-- A word as the square of a number times a square-free root. -/
def timesRoot (n : Int) : Except Fault SquareSplit :=
  if n = 0 ∨ n = 1 then .ok ⟨n, 1⟩
  else (PrimeTable.full.factors n).map fun factors =>
    ⟨product (fun count => count / 2) factors, oddRoot factors⟩

/-- A word as the square of a number over a square-free root. -/
def overRoot (n : Int) : Except Fault SquareSplit :=
  if n = 0 ∨ n = 1 then .ok ⟨n, 1⟩
  else (PrimeTable.full.factors n).map fun factors =>
    ⟨product (fun count => (count + 1) / 2) factors, oddRoot factors⟩

end SquareSplit
end Surd
