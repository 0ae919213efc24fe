import Mathlib.Data.Finset.Sort
import Mathlib.Data.Nat.Factorization.Basic
import Surd.Proofs.RoughNumbers
import Surd.PrimeTable.Factors

/-! What division by the primes up to a bound leaves behind: powers of primes in ascending
order, and at the end maybe a number that no prime up to the bound divides. Below the square
of the next number that number is a prime too, and the decomposition is the only one. -/

namespace Surd

/-- A prime divisor of the number with its multiplicity. -/
def Factor.ExactIn (n : Nat) (factor : Factor) : Prop :=
  ∃ p : Nat, p.Prime ∧ p ∣ n ∧ factor = ⟨p, n.factorization p⟩

/-- The prime divisors in ascending order, each with its multiplicity. -/
def primeFactorization (n : Nat) : List Factor :=
  n.primeFactors.sort.map fun p : Nat => ⟨p, n.factorization p⟩

/-- How division ends: at a prime or a number free of small divisors, at the power that takes
all that remained, or with a remainder whose prime divisors are larger. -/
inductive Decomposition (bound : Nat) : Nat → List Factor → Prop where
  | last {n : Nat} : 2 ≤ n → n.Prime ∨ Rough bound n → Decomposition bound n [⟨n, 1⟩]
  | whole {p count : Nat} : p.Prime → p ≤ bound → 0 < count → Decomposition bound (p ^ count) [⟨p, count⟩]
  | step {p count rest : Nat} {factors : List Factor} : p.Prime → p ≤ bound → 0 < count → Rough p rest →
      Decomposition bound rest factors → Decomposition bound (p ^ count * rest) (⟨p, count⟩ :: factors)

section power
variable {p count rest : Nat} (prime : p.Prime) (rough : Rough p rest)
include prime rough

theorem Rough.not_dvd : ¬ p ∣ rest := fun divides => Nat.lt_irrefl p (rough p prime divides)

theorem Rough.coprime_pow : (p ^ count).Coprime rest :=
  ((Nat.Prime.coprime_iff_not_dvd prime).mpr (rough.not_dvd prime)).pow_left count

theorem factorization_power_mul_self : (p ^ count * rest).factorization p = count := by
  rw [Nat.factorization_mul_apply_of_coprime (rough.coprime_pow prime), prime.factorization_pow, Finsupp.single_eq_same,
    Nat.factorization_eq_zero_of_not_dvd (rough.not_dvd prime), Nat.add_zero]

theorem factorization_power_mul_of_dvd {q : Nat} (primeQ : q.Prime) (divides : q ∣ rest) :
    (p ^ count * rest).factorization q = rest.factorization q := by
  have larger := rough q primeQ divides
  rw [Nat.factorization_mul_apply_of_coprime (rough.coprime_pow prime), prime.factorization_pow,
    Finsupp.single_eq_of_ne (by omega), Nat.zero_add]

private theorem primeFactors_power_mul (positive : 0 < count) :
    (p ^ count * rest).primeFactors = insert p rest.primeFactors := by
  rw [(rough.coprime_pow prime).primeFactors_mul, Nat.primeFactors_prime_pow (by omega) prime]
  exact Finset.singleton_union p _

theorem Factor.ExactIn.power_mul {factor : Factor} (exact : factor.ExactIn rest) :
    factor.ExactIn (p ^ count * rest) := by
  obtain ⟨q, primeQ, divides, rfl⟩ := exact
  exact ⟨q, primeQ, divides.mul_left _, by rw [factorization_power_mul_of_dvd prime rough primeQ divides]⟩

theorem exactIn_power_mul (positive : 0 < count) : Factor.ExactIn (p ^ count * rest) ⟨p, count⟩ :=
  ⟨p, prime, (dvd_pow_self p (by omega)).mul_right rest, by rw [factorization_power_mul_self prime rough]⟩

theorem primeFactorization_power_mul (positive : 0 < count) :
    primeFactorization (p ^ count * rest) = ⟨p, count⟩ :: primeFactorization rest := by
  have least : ∀ q ∈ rest.primeFactors, p ≤ q := fun q member =>
    Nat.le_of_lt (rough q (Nat.prime_of_mem_primeFactors member) (Nat.dvd_of_mem_primeFactors member))
  have absent : p ∉ rest.primeFactors := fun member =>
    rough.not_dvd prime (Nat.dvd_of_mem_primeFactors member)
  unfold primeFactorization
  rw [primeFactors_power_mul prime rough positive, Finset.sort_insert _ least absent, List.map_cons,
    factorization_power_mul_self prime rough]
  congr 1
  apply List.map_congr_left
  intro q member
  have inside := (Finset.mem_sort _).mp member
  rw [factorization_power_mul_of_dvd prime rough (Nat.prime_of_mem_primeFactors inside) (Nat.dvd_of_mem_primeFactors inside)]

end power

theorem Rough.one (bound : Nat) : Rough bound 1 := fun _ prime divides => absurd divides prime.not_dvd_one

private theorem primeFactorization_one : primeFactorization 1 = [] := by simp [primeFactorization]

theorem primeFactorization_power {p count : Nat} (prime : p.Prime) (positive : 0 < count) :
    primeFactorization (p ^ count) = [⟨p, count⟩] := by
  have single := primeFactorization_power_mul prime (Rough.one p) positive
  rwa [Nat.mul_one, primeFactorization_one] at single

private theorem exactIn_power {p count : Nat} (prime : p.Prime) (positive : 0 < count) :
    Factor.ExactIn (p ^ count) ⟨p, count⟩ := by
  have exact := exactIn_power_mul prime (Rough.one p) positive
  rwa [Nat.mul_one] at exact

namespace Decomposition
variable {bound n : Nat} {factors : List Factor}

/-- A prime below every divisor of the rest divides once. -/
theorem once {p : Nat} (prime : p.Prime) (le : p ≤ bound) (least : p < n.minFac)
    (divided : Decomposition bound n factors) : Decomposition bound (p * n) (⟨p, 1⟩ :: factors) := by
  have power := Decomposition.step prime le Nat.one_pos (Rough.of_lt_minFac least) divided
  rwa [Nat.pow_one] at power

theorem ne_nil (divided : Decomposition bound n factors) : factors ≠ [] := by
  cases divided <;> simp

theorem two_le (divided : Decomposition bound n factors) : 2 ≤ n := by
  induction divided with
  | last above _ => exact above
  | whole prime _ positive => exact prime.two_le.trans (Nat.le_self_pow (by omega) _)
  | step prime _ _ _ _ ih => exact ih.trans (Nat.le_mul_of_pos_left _ (Nat.pow_pos prime.pos))

theorem count_pos (divided : Decomposition bound n factors) : ∀ factor ∈ factors, 1 ≤ factor.count := by
  induction divided with
  | last => simp
  | whole _ _ positive =>
    intro factor member
    rw [List.mem_singleton.mp member]
    exact positive
  | step _ _ positive _ _ ih =>
    intro factor member
    rcases List.mem_cons.mp member with rfl | later
    · exact positive
    · exact ih factor later

theorem prod_value (divided : Decomposition bound n factors) : (factors.map Factor.value).prod = n := by
  induction divided with
  | last => simp [Factor.value]
  | whole => simp [Factor.value]
  | step _ _ _ _ _ ih => simp [Factor.value, ih]

theorem base_dvd (divided : Decomposition bound n factors) :
    ∀ factor ∈ factors, ∃ q : Nat, 2 ≤ q ∧ q ∣ n ∧ factor.base = q := by
  induction divided with
  | @last n above _ =>
    intro factor member
    rw [List.mem_singleton.mp member]
    exact ⟨n, above, dvd_refl n, rfl⟩
  | @whole p count prime _ positive =>
    intro factor member
    rw [List.mem_singleton.mp member]
    exact ⟨p, prime.two_le, dvd_pow_self p (by omega), rfl⟩
  | @step p count rest factors prime _ positive _ _ ih =>
    intro factor member
    rcases List.mem_cons.mp member with rfl | later
    · exact ⟨p, prime.two_le, (dvd_pow_self p (by omega)).mul_right rest, rfl⟩
    · obtain ⟨q, large, divides, same⟩ := ih factor later
      exact ⟨q, large, divides.mul_left _, same⟩

theorem ascending (divided : Decomposition bound n factors) : (factors.map Factor.base).Pairwise (· < ·) := by
  induction divided with
  | last => simp
  | whole => simp
  | @step p count rest factors prime _ _ rough divided ih =>
    rw [List.map_cons, List.pairwise_cons]
    refine ⟨?_, ih⟩
    intro base member
    obtain ⟨factor, inside, rfl⟩ := List.mem_map.mp member
    obtain ⟨q, large, divides, same⟩ := divided.base_dvd factor inside
    have least := rough q.minFac (Nat.minFac_prime (by omega)) ((Nat.minFac_dvd q).trans divides)
    have le := Nat.minFac_le (show 0 < q by omega)
    change (p : Int) < factor.base
    omega

/-- Only the last entry can be anything but a prime up to the bound. -/
theorem exact_before_last (divided : Decomposition bound n factors) :
    ∃ (before : List Factor) (last : Factor), factors = before ++ [last] ∧
      (∀ factor ∈ before, factor.ExactIn n ∧ factor.base ≤ bound) ∧
      (last.ExactIn n ∨ last.count = 1 ∧ ∃ m : Nat, last.base = m ∧ Rough bound m) := by
  induction divided with
  | @last n above kind =>
    refine ⟨[], ⟨n, 1⟩, rfl, by simp, ?_⟩
    rcases kind with prime | rough
    · exact .inl (by simpa only [Nat.pow_one] using exactIn_power prime Nat.one_pos)
    · exact .inr ⟨rfl, n, rfl, rough⟩
  | @whole p count prime _ positive => exact ⟨[], ⟨p, count⟩, rfl, by simp, .inl (exactIn_power prime positive)⟩
  | @step p count rest factors prime le positive rough _ ih =>
    obtain ⟨before, last, rfl, exact, ending⟩ := ih
    refine ⟨⟨p, count⟩ :: before, last, rfl, ?_, ?_⟩
    · intro factor member
      rcases List.mem_cons.mp member with rfl | later
      · exact ⟨exactIn_power_mul prime rough positive, Int.ofNat_le.mpr le⟩
      · exact ⟨(exact factor later).1.power_mul prime rough, (exact factor later).2⟩
    · exact ending.imp_left fun exact => exact.power_mul prime rough

/-- There is only one decomposition as long as nothing but a prime can remain. -/
theorem eq_primeFactorization (divided : Decomposition bound n factors)
    (small : n < (bound + 1) * (bound + 1)) : factors = primeFactorization n := by
  induction divided with
  | @last n above kind =>
    have prime : n.Prime := kind.elim id fun rough => rough.prime_of_lt above small
    have single := primeFactorization_power prime Nat.one_pos
    rw [Nat.pow_one] at single
    exact single.symm
  | whole prime _ positive => exact (primeFactorization_power prime positive).symm
  | @step p count rest factors prime _ positive rough _ ih =>
    have le : rest ≤ p ^ count * rest := Nat.le_mul_of_pos_left _ (Nat.pow_pos prime.pos)
    rw [primeFactorization_power_mul prime rough positive, ih (by omega)]

end Decomposition
end Surd
