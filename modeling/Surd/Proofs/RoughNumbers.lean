import Mathlib.Data.Nat.Prime.Basic
import Mathlib.Data.Nat.Sqrt

/-! Numbers without small prime divisors. A number above one is prime as soon as its prime
divisors all exceed its floor root, so a search for divisors may stop there. -/

namespace Surd

/-- Every prime that divides the number exceeds the bound. -/
def Rough (bound n : Nat) : Prop := ∀ p, p.Prime → p ∣ n → bound < p

namespace Rough

theorem mono {bound smaller n : Nat} (rough : Rough bound n) (le : smaller ≤ bound) : Rough smaller n :=
  fun p prime divides => Nat.lt_of_le_of_lt le (rough p prime divides)

theorem not_dvd_of_le {bound p n : Nat} (rough : Rough bound n) (prime : p.Prime) (le : p ≤ bound) : ¬ p ∣ n :=
  fun divides => Nat.not_lt_of_le le (rough p prime divides)

theorem lt_of_two_le {bound n : Nat} (rough : Rough bound n) (above : 2 ≤ n) : bound < n :=
  Nat.lt_of_lt_of_le (rough n.minFac (Nat.minFac_prime (by omega)) (Nat.minFac_dvd n)) (Nat.minFac_le (by omega))

theorem of_lt_minFac {bound n : Nat} (least : bound < n.minFac) : Rough bound n :=
  fun _ prime divides => Nat.lt_of_lt_of_le least (Nat.minFac_le_of_dvd prime.two_le divides)

theorem of_prime {bound p : Nat} (prime : p.Prime) (above : bound < p) : Rough bound p := by
  intro q primeQ divides
  rwa [(Nat.prime_dvd_prime_iff_eq primeQ prime).mp divides]

theorem prime_of_sqrt {n : Nat} (rough : Rough (Nat.sqrt n) n) (above : 2 ≤ n) : n.Prime := by
  by_contra composite
  have least := rough n.minFac (Nat.minFac_prime (by omega)) (Nat.minFac_dvd n)
  have square := Nat.minFac_sq_le_self (by omega) composite
  exact Nat.not_le_of_lt least (Nat.le_sqrt'.mpr square)

/-- Below the square of the next number, nothing but primes is free of divisors up to the bound. -/
theorem prime_of_lt {bound n : Nat} (rough : Rough bound n) (above : 2 ≤ n)
    (small : n < (bound + 1) * (bound + 1)) : n.Prime := by
  have root : Nat.sqrt n < bound + 1 := Nat.sqrt_lt.mpr small
  exact (rough.mono (by omega)).prime_of_sqrt above

/-- The early stop at the floor root leaves out no divisor of a number above the bound. A number
whose root the bound reaches is prime already, and then it is its only prime divisor. -/
theorem min_sqrt_iff {bound n : Nat} (above : bound < n) (large : 2 ≤ n) :
    Rough (min bound (Nat.sqrt n)) n ↔ Rough bound n := by
  constructor
  · intro rough
    rcases Nat.le_total bound (Nat.sqrt n) with below | beyond
    · rwa [Nat.min_eq_left below] at rough
    · rw [Nat.min_eq_right beyond] at rough
      exact of_prime (rough.prime_of_sqrt large) above
  · intro rough
    exact rough.mono (Nat.min_le_left _ _)

end Rough
end Surd
