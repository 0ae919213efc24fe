import Mathlib.Tactic.NormNum.Ineq
import Surd.Proofs.Decomposition
import Surd.Proofs.TablePrimality

/-! Trial division over a complete table. While it runs, every prime up to the bound that
still divides what remains lies among the entries to come; the limit is the floor root of
what remains, so what is left when the limit is passed is prime. -/

namespace Surd.PrimeTable

theorem divideOut_eq {p n : Int} (proper : 2 ≤ p.natAbs) (nonzero : n ≠ 0) :
    n = p ^ (divideOut p n).1 * (divideOut p n).2 ∧ ¬ p ∣ (divideOut p n).2 := by
  fun_induction divideOut p n with
  | case1 n again rest ih =>
    have quotient : p * (n / p) = n := Int.mul_ediv_cancel' again.2.2
    have remains : n / p ≠ 0 := by
      intro zero
      rw [zero, Int.mul_zero] at quotient
      exact nonzero quotient.symm
    obtain ⟨product, undivided⟩ := ih remains
    refine ⟨?_, undivided⟩
    calc n = p * (n / p) := quotient.symm
      _ = p * (p ^ rest.1 * rest.2) := by rw [← product]
      _ = p ^ (rest.1 + 1) * rest.2 := by rw [Int.pow_succ', Int.mul_assoc]
  | case2 n stopped =>
    refine ⟨by rw [Int.pow_zero, Int.one_mul], ?_⟩
    intro divides
    exact stopped ⟨proper, nonzero, divides⟩

private theorem divideOut_nat {p n : Nat} (proper : 2 ≤ p) (positive : 0 < n) :
    ∃ count rest : Nat, divideOut p n = (count, (rest : Int)) ∧ n = p ^ count * rest ∧ ¬ p ∣ rest := by
  have properInt : 2 ≤ (p : Int).natAbs := by omega
  have nonzero : (n : Int) ≠ 0 := by omega
  obtain ⟨product, undivided⟩ := divideOut_eq properInt nonzero
  have power : 0 < (p : Int) ^ (divideOut p n).1 := Int.pow_pos (by omega)
  have remains : 0 ≤ (divideOut p n).2 := by
    by_contra negative
    have := Int.mul_neg_of_pos_of_neg power (Int.not_le.mp negative)
    omega
  obtain ⟨rest, same⟩ := Int.eq_ofNat_of_zero_le remains
  rw [same] at product undivided
  refine ⟨(divideOut p n).1, rest, Prod.ext rfl same, ?_, ?_⟩
  · exact_mod_cast product
  · exact_mod_cast undivided

/-- The entries to come hold every prime up to the bound that divides what remains. -/
structure Ahead (bound : Nat) (row : List Nat) (remaining : Nat) : Prop where
  ascending : row.Pairwise (· < ·)
  prime_le : ∀ p ∈ row, p.Prime ∧ p ≤ bound
  covers : ∀ p, p.Prime → p ≤ bound → p ∣ remaining → p ∈ row

namespace Ahead
variable {bound p n : Nat} {row : List Nat}

private theorem rough_nil (ahead : Ahead bound [] n) : Rough bound n := by
  intro p prime divides
  by_contra within
  exact List.not_mem_nil (ahead.covers p prime (by omega) divides)

/-- No prime divisor of what remains is below the next entry. -/
theorem le_of_dvd (ahead : Ahead bound (p :: row) n) {q : Nat} (prime : q.Prime) (divides : q ∣ n) : p ≤ q := by
  by_contra smaller
  have le := (ahead.prime_le p (by simp)).2
  rcases List.mem_cons.mp (ahead.covers q prime (by omega) divides) with rfl | later
  · exact smaller (Nat.le_refl q)
  · exact smaller (Nat.le_of_lt (List.rel_of_pairwise_cons ahead.ascending later))

/-- Once an entry no longer divides what remains of the number, the row goes on without it. -/
theorem tail (ahead : Ahead bound (p :: row) n) {rest : Nat} (divides : rest ∣ n) (spared : ¬ p ∣ rest) :
    Ahead bound row rest where
  ascending := ahead.ascending.tail
  prime_le := fun q member => ahead.prime_le q (List.mem_cons_of_mem p member)
  covers := by
    intro q prime le part
    rcases List.mem_cons.mp (ahead.covers q prime le (part.trans divides)) with rfl | later
    · exact absurd part spared
    · exact later

private theorem rough_rest (ahead : Ahead bound (p :: row) n) {rest : Nat} (divides : rest ∣ n) (spared : ¬ p ∣ rest) :
    Rough p rest := by
  intro q prime part
  have le := ahead.le_of_dvd prime (part.trans divides)
  have different : p ≠ q := fun same => spared (same ▸ part)
  omega

/-- When the next entry passes the floor root, what remains is prime. -/
theorem prime_of_sqrt_lt (ahead : Ahead bound (p :: row) n) (above : 2 ≤ n) (passed : Nat.sqrt n < p) : n.Prime := by
  have rough : Rough (Nat.sqrt n) n := fun q prime divides =>
    Nat.lt_of_lt_of_le passed (ahead.le_of_dvd prime divides)
  exact rough.prime_of_sqrt above

end Ahead

/-- Division always answers, and what it answers is a decomposition of what it was given. -/
theorem trialDivide_decomposes {bound n : Nat} {row : List Nat} (ahead : Ahead bound row n) (above : 2 ≤ n)
    (word : n ≤ wordMax) : ∃ factors, trialDivide (row.map Int.ofNat) n (floorRoot n) = .ok factors ∧
      Decomposition bound n factors := by
  induction row generalizing n with
  | nil => exact ⟨_, rfl, .last above (.inr ahead.rough_nil)⟩
  | cons p row ih =>
    obtain ⟨prime, le⟩ := ahead.prime_le p (by simp)
    simp only [List.map_cons, trialDivide, Int.ofNat_eq_natCast, Int.ofNat_lt]
    split
    next passed =>
      rw [floorRoot_eq_sqrt word] at passed
      exact ⟨_, rfl, .last above (.inl (ahead.prime_of_sqrt_lt above passed))⟩
    next within =>
      obtain ⟨count, rest, divided, product, spared⟩ := divideOut_nat prime.two_le (show 0 < n by omega)
      have divides : rest ∣ n := ⟨p ^ count, by rw [product, Nat.mul_comm]⟩
      have next := ahead.tail divides spared
      rw [if_neg (by have := prime.pos; omega), divided]
      dsimp only
      split
      next absent =>
        have same : rest = n := by rw [product, absent, Nat.pow_zero, Nat.one_mul]
        exact ih (same ▸ next) above word
      next present =>
        split
        next all =>
          have one : rest = 1 := by omega
          rw [one, Nat.mul_one] at product
          exact ⟨_, rfl, product ▸ .whole prime le (by omega)⟩
        next more =>
          have small : rest ≤ n := Nat.le_of_dvd (by omega) divides
          have positive : rest ≠ 0 := by
            rintro rfl
            omega
          obtain ⟨factors, answered, decomposition⟩ := ih next (by omega) (by omega)
          rw [floorRoot?_eq_ok (by omega)]
          simp only [bind, Except.bind, answered]
          exact ⟨_, rfl, product ▸ .step prime le (by omega) (ahead.rough_rest divides spared) decomposition⟩

private theorem ahead_upTo {bound : Nat} (word : bound ≤ wordMax) (n : Nat) : Ahead bound (primesUpTo bound) n where
  ascending := pairwise_primesUpTo bound
  prime_le := fun _ member => (mem_primesUpTo word).mp member
  covers := fun _ prime le _ => (mem_primesUpTo word).mpr ⟨prime, le⟩

theorem factors_eq_trialDivide (table : PrimeTable) {n : Nat} (above : 2 ≤ n) (word : n ≤ wordMax) :
    table.factors n = trialDivide table.entries.toList n (floorRoot n) := by
  unfold factors
  rw [checkWord_ofNat _ word]
  simp only [bind, Except.bind]
  rw [if_neg (by omega)]

theorem factors_upTo_decomposes {bound n : Nat} (large : 2 ≤ bound) (word : bound ≤ wordMax) (above : 2 ≤ n)
    (wordN : n ≤ wordMax) :
    ∃ factors, (upTo bound large word).factors n = .ok factors ∧ Decomposition bound n factors := by
  rw [factors_eq_trialDivide _ above wordN, toList_upTo]
  exact trialDivide_decomposes (ahead_upTo word n) above wordN

/-- The full table factors every word above one. -/
theorem full_factors_decompose {n : Nat} (above : 2 ≤ n) (wordN : n ≤ wordMax) :
    full.factors n = .ok (primeFactorization n) ∧ Decomposition rootBound n (primeFactorization n) := by
  have large : 2 ≤ rootBound := by decide
  have word : rootBound ≤ wordMax := by decide
  obtain ⟨factors, answered, decomposition⟩ := factors_upTo_decomposes large word above wordN
  rw [← decomposition.eq_primeFactorization (lt_rootBound_square wordN)]
  exact ⟨answered, decomposition⟩

theorem full_factors_eq {n : Nat} (above : 2 ≤ n) (wordN : n ≤ wordMax) :
    full.factors n = .ok (primeFactorization n) := (full_factors_decompose above wordN).1

/-- Division over a complete table gives powers in ascending order that multiply to the word.
All but the last are powers of primes of the table, with their multiplicity in the word; the last
may be a number that no prime of the table divides. Below the square of the next number, and
with the full table always, the list is the prime factorization. -/
theorem factors_complete {bound : Nat} (large : 2 ≤ bound) (word : bound ≤ wordMax) {n : Nat} (above : 2 ≤ n)
    (wordN : n ≤ wordMax) :
    ∃ table factors, upTo? bound = .ok table ∧ table.factors n = .ok factors ∧
      (factors.map Factor.base).Pairwise (· < ·) ∧
      (∀ factor ∈ factors, 1 ≤ factor.count) ∧
      (factors.map Factor.value).prod = n ∧
      (∃ (before : List Factor) (last : Factor), factors = before ++ [last] ∧
        (∀ factor ∈ before, factor.ExactIn n ∧ factor.base ≤ bound) ∧
        (last.ExactIn n ∨ last.count = 1 ∧ ∃ m : Nat, last.base = m ∧ Rough bound m)) ∧
      (n < (bound + 1) ^ 2 → factors = primeFactorization n) ∧
      full.factors n = .ok (primeFactorization n) := by
  obtain ⟨factors, answered, decomposition⟩ := factors_upTo_decomposes large word above wordN
  refine ⟨upTo bound large word, factors, upTo?_eq_ok large word, answered, decomposition.ascending,
    decomposition.count_pos, decomposition.prod_value, decomposition.exact_before_last, ?_, full_factors_eq above wordN⟩
  intro small
  exact decomposition.eq_primeFactorization (Nat.pow_two _ ▸ small)

/-- The last prime of the largest word lies just beyond the full table. -/
theorem factors_complete_wordMax :
    ∃ table factors, upTo? 25 = .ok table ∧ table.factors 4294967295 = .ok factors ∧
      (factors.map Factor.value).prod = 4294967295 ∧
      full.factors 4294967295 = .ok [⟨3, 1⟩, ⟨5, 1⟩, ⟨17, 1⟩, ⟨257, 1⟩, ⟨65537, 1⟩] := by
  have complete := @factors_complete 25 (by decide) (by decide) 4294967295 (by decide) (by decide)
  obtain ⟨table, factors, made, answered, -, -, product, -, -, exact⟩ := complete
  have last : Decomposition rootBound 65537 [⟨65537, 1⟩] := .last (by norm_num) (.inl (by norm_num))
  have fourth := last.once (p := 257) (by norm_num) (by decide) (by norm_num)
  have third := fourth.once (p := 17) (by norm_num) (by decide) (by norm_num)
  have second := third.once (p := 5) (by norm_num) (by decide) (by norm_num)
  have first := second.once (p := 3) (by norm_num) (by decide) (by norm_num)
  have whole : 3 * (5 * (17 * (257 * 65537))) = 4294967295 := by norm_num
  rw [whole] at first
  rw [← first.eq_primeFactorization (by decide)] at exact
  exact ⟨table, factors, made, answered, product, exact⟩

end Surd.PrimeTable
