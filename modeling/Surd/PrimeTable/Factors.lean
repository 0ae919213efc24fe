import Surd.PrimeTable

/-! Factorization by trial division over a table. The limit of the division is the floor root of
what remains, and it is taken again after every factor. -/

namespace Surd

structure Factor where
  base : Int
  count : Nat
  deriving DecidableEq, Repr

def Factor.value (factor : Factor) : Int := factor.base.pow factor.count

namespace PrimeTable

theorem natAbs_ediv_lt {p n : Int} (proper : 2 ≤ p.natAbs) (nonzero : n ≠ 0) (divides : p ∣ n) :
    (n / p).natAbs < n.natAbs := by
  rw [Int.natAbs_ediv_of_dvd divides]
  exact Nat.div_lt_self (by omega) proper

def divideOut (p n : Int) : Nat × Int :=
  if _again : 2 ≤ p.natAbs ∧ n ≠ 0 ∧ p ∣ n then
    let rest := divideOut p (n / p)
    (rest.1 + 1, rest.2)
  else (0, n)
termination_by n.natAbs
decreasing_by exact natAbs_ediv_lt _again.1 _again.2.1 _again.2.2

/-- Divides the table's entries out of what remains, up to the limit. What is left at the
end is the last factor. -/
def trialDivide : List Int → Int → Nat → Except Fault (List Factor)
  | [], remaining, _ => .ok [⟨remaining, 1⟩]
  | p :: rest, remaining, limit =>
    if (limit : Int) < p then .ok [⟨remaining, 1⟩]
    else if p = 0 then .error .zeroModulus
    else
      let divided := divideOut p remaining
      if divided.1 = 0 then trialDivide rest remaining limit
      else if divided.2 = 1 then .ok [⟨p, divided.1⟩]
      else do
        let next ← floorRoot? divided.2
        let others ← trialDivide rest divided.2 next
        .ok (⟨p, divided.1⟩ :: others)

def factors (table : PrimeTable) (n : Int) : Except Fault (List Factor) := do
  let v ← checkWord "value" n
  if v ≤ 1 then .error (.factorsUndefined n)
  else trialDivide table.entries.toList n (floorRoot v)

/-- Tells that every factor of a word occurs once. Zero is not square-free and one is. -/
def isSquareFree (table : PrimeTable) (n : Int) : Except Fault Bool := do
  let v ← checkWord "value" n
  if v = 0 then .ok false
  else if v = 1 then .ok true
  else (table.factors n).map fun factors => factors.all fun factor => factor.count == 1

end PrimeTable
end Surd
