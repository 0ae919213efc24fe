import Mathlib.Tactic.NormNum.Prime
import Surd.Proofs.SquareParts

/-! Two tests of a word by the factors that a table finds. What the table takes for a prime is what
it cannot divide, and a word has no square of a prime of the table in it when every factor occurs
once. Both hold however far beyond the reach of the table the word lies, since the last factor is
all that the table leaves undivided and is counted once. -/

namespace Surd

namespace Decomposition
variable {bound n : Nat} {factors : List Factor}

theorem eq_single_iff (divided : Decomposition bound n factors) :
    factors = [⟨n, 1⟩] ↔ n.Prime ∨ Rough bound n := by
  cases divided with
  | last _ kind => exact iff_of_true rfl kind
  | @whole p count prime le positive =>
    have divides : p ∣ p ^ count := dvd_pow_self p (by omega)
    constructor
    · intro single
      obtain ⟨-, once⟩ : (p : Int) = (p ^ count : Nat) ∧ count = 1 := by simpa using single
      rw [once, Nat.pow_one]
      exact .inl prime
    · rintro (primePower | rough)
      · rw [Nat.Prime.eq_one_of_pow primePower, Nat.pow_one]
      · exact absurd divides (rough.not_dvd_of_le prime le)
  | @step p count rest others prime le positive _ divided =>
    have divides : p ∣ p ^ count * rest := (dvd_pow_self p (by omega)).mul_right rest
    constructor
    · intro single
      exact absurd (List.cons.inj single).2 divided.ne_nil
    · rintro (primeProduct | rough)
      · have power : p ^ count ≠ 1 := (Nat.one_lt_pow (by omega) prime.one_lt).ne'
        have remains : rest ≠ 1 := by have := divided.two_le; omega
        exact absurd primeProduct (Nat.not_prime_mul power remains)
      · exact absurd divides (rough.not_dvd_of_le prime le)

end Decomposition

/-- No square of a prime up to the bound divides the number. -/
def SquaresSpared (bound n : Nat) : Prop := ∀ p, p.Prime → p ≤ bound → ¬ p * p ∣ n

theorem Rough.squaresSpared {bound n : Nat} (rough : Rough bound n) : SquaresSpared bound n :=
  fun p prime le square => rough.not_dvd_of_le prime le ((Nat.dvd_mul_right p p).trans square)

theorem squaresSpared_of_squarefree {n : Nat} (bound : Nat) (free : Squarefree n) : SquaresSpared bound n :=
  fun p prime _ => Nat.squarefree_iff_prime_squarefree.mp free p prime

theorem squaresSpared_iff_squarefree {bound n : Nat} (nonzero : n ≠ 0) (small : n < (bound + 1) * (bound + 1)) :
    SquaresSpared bound n ↔ Squarefree n := by
  refine ⟨fun spared => Nat.squarefree_iff_prime_squarefree.mpr ?_, squaresSpared_of_squarefree bound⟩
  intro p prime square
  have within : p * p < (bound + 1) * (bound + 1) :=
    Nat.lt_of_le_of_lt (Nat.le_of_dvd (Nat.pos_of_ne_zero nonzero) square) small
  have le := Nat.mul_self_lt_mul_self_iff.mp within
  exact spared p prime (by omega) square

private theorem squaresSpared_power_mul {bound p count rest : Nat} (prime : p.Prime) (le : p ≤ bound) (positive : 0 < count)
    (rough : Rough p rest) : SquaresSpared bound (p ^ count * rest) ↔ count = 1 ∧ SquaresSpared bound rest := by
  constructor
  · intro spared
    refine ⟨?_, fun q primeQ leQ square => spared q primeQ leQ (square.mul_left _)⟩
    by_contra several
    have square : p * p ∣ p ^ count := pow_two p ▸ pow_dvd_pow p (by omega)
    exact spared p prime le (square.mul_right rest)
  · rintro ⟨rfl, spared⟩ q primeQ leQ square
    rw [Nat.pow_one] at square
    rcases eq_or_ne q p with rfl | different
    · exact rough.not_dvd prime (Nat.dvd_of_mul_dvd_mul_left prime.pos square)
    · have coprime : Nat.Coprime q p := (Nat.coprime_primes primeQ prime).mpr different
      exact spared q primeQ leQ ((coprime.mul_left coprime).dvd_of_dvd_mul_left square)

/-- The division stops before no prime whose square divides what remains. -/
private theorem Decomposition.counts_one_iff {bound n : Nat} {factors : List Factor} (divided : Decomposition bound n factors) :
    (∀ factor ∈ factors, factor.count = 1) ↔ SquaresSpared bound n := by
  induction divided with
  | last _ kind =>
    refine iff_of_true (by simp) ?_
    exact kind.elim (fun prime => squaresSpared_of_squarefree _ prime.squarefree) Rough.squaresSpared
  | @whole p count prime le positive =>
    have power := squaresSpared_power_mul prime le positive (Rough.one p)
    rw [Nat.mul_one] at power
    simp only [power, List.mem_singleton, forall_eq, (Rough.one bound).squaresSpared, and_true]
  | step prime le positive rough _ ih =>
    rw [List.forall_mem_cons, ih, squaresSpared_power_mul prime le positive rough]

namespace PrimeTable
variable {bound : Nat} (large : 2 ≤ bound) (word : bound ≤ wordMax)

theorem isSquareFree_upTo_eq {n : Nat} (wordN : n ≤ wordMax) :
    ∃ answer, (upTo bound large word).isSquareFree n = .ok answer ∧ (answer = true ↔ n ≠ 0 ∧ SquaresSpared bound n) := by
  unfold isSquareFree
  rw [checkWord_ofNat _ wordN]
  simp only [bind, Except.bind]
  split
  next zero => exact ⟨_, rfl, by simp [zero]⟩
  next nonzero =>
    split
    next one => exact ⟨_, rfl, by simp [one, (Rough.one bound).squaresSpared]⟩
    next several =>
      obtain ⟨factors, answered, divided⟩ := factors_upTo_decomposes large word (by omega) wordN
      rw [answered]
      refine ⟨_, rfl, ?_⟩
      rw [List.all_eq_true, ← divided.counts_one_iff]
      simp only [beq_iff_eq, nonzero, not_false_eq_true, ne_eq, true_and]

theorem isSquareFree_upTo_eq_squarefree {n : Nat} (small : n < (bound + 1) * (bound + 1)) (wordN : n ≤ wordMax) :
    (upTo bound large word).isSquareFree n = .ok (decide (Squarefree n)) := by
  obtain ⟨answer, answered, spared⟩ := isSquareFree_upTo_eq large word wordN
  rw [answered, Except.ok.injEq, Bool.eq_iff_iff, decide_eq_true_iff, spared]
  constructor
  · exact fun ⟨nonzero, spared⟩ => (squaresSpared_iff_squarefree nonzero small).mp spared
  · exact fun free => ⟨free.ne_zero, squaresSpared_of_squarefree bound free⟩

end PrimeTable

private theorem SquareSplit.timesRoot_eq_one_self_iff {n : Nat} (positive : 1 ≤ n) (word : n ≤ wordMax) :
    timesRoot n = .ok ⟨1, n⟩ ↔ Squarefree n := by
  rw [timesRoot_eq word, Except.ok.injEq, SquareSplit.mk.injEq, Nat.cast_inj]
  constructor
  · rintro ⟨-, same⟩
    exact same ▸ squarefree_oddPart n
  · intro free
    have same : squarePart n * squarePart n * oddPart n = 1 * 1 * n := by
      rw [squarePart_mul_oddPart, Nat.mul_one, Nat.one_mul]
    obtain ⟨square, root⟩ := square_mul_unique (squarePart_ne_zero (by omega)) one_ne_zero (squarefree_oddPart n) free same
    exact ⟨congrArg Nat.cast square, root⟩

namespace PrimeTable

/-- A table takes a word for a prime exactly when the word is the only factor that the table finds
in it. The lookup below the bound, the division that stops early and the division that goes on
with what remains agree also where none of them decides primality. -/
theorem isPrime_iff_single_factor {bound : Nat} (large : 2 ≤ bound) (word : bound ≤ wordMax) {n : Nat} (above : 2 ≤ n)
    (wordN : n ≤ wordMax) :
    ∃ table answer factors, upTo? bound = .ok table ∧ table.isPrime n = .ok answer ∧ table.factors n = .ok factors ∧
      (answer = true ↔ factors = [⟨n, 1⟩]) := by
  obtain ⟨answer, tested, passes⟩ := isPrime_upTo_eq large word wordN
  obtain ⟨factors, factored, divided⟩ := factors_upTo_decomposes large word above wordN
  refine ⟨upTo bound large word, answer, factors, upTo?_eq_ok large word, tested, factored, ?_⟩
  rw [passes, passes_iff_prime_or_rough above, divided.eq_single_iff]

/-- The product of 29 and 31 is beyond the reach of a table up to 25, and the answers are the same. -/
theorem isPrime_iff_single_factor_beyond_reach :
    ∃ table, upTo? 25 = .ok table ∧ table.isPrime 899 = .ok true ∧ table.factors 899 = .ok [⟨899, 1⟩] := by
  have agreement := @isPrime_iff_single_factor 25 (by decide) (by decide) 899 (by decide) (by decide)
  obtain ⟨table, answer, factors, made, tested, factored, agree⟩ := agreement
  have rough : Rough 25 899 := .of_lt_minFac (by norm_num)
  obtain rfl : upTo 25 (by decide) (by decide) = table := Except.ok.inj ((upTo?_eq_ok _ _).symm.trans made)
  obtain ⟨same, passing, passes⟩ := @isPrime_upTo_eq 25 899 (by decide) (by decide) (by decide)
  obtain rfl : same = answer := Except.ok.inj (passing.symm.trans tested)
  have taken : same = true := passes.mpr ((passes_iff_prime_or_rough (by decide)).mpr (.inr rough))
  exact ⟨_, made, taken ▸ tested, agree.mp taken ▸ factored⟩

/-- A table takes a word for square-free exactly when the word is not zero and no square of a prime
up to the bound divides it. Below the square of the next number, and with the full table always,
this is square-freeness, and the word is then split into the square of one and itself. -/
theorem isSquareFree_complete {bound : Nat} (large : 2 ≤ bound) (word : bound ≤ wordMax) {n : Nat} (wordN : n ≤ wordMax) :
    ∃ table answer, upTo? bound = .ok table ∧ table.isSquareFree n = .ok answer ∧
      (answer = true ↔ n ≠ 0 ∧ ∀ p, p.Prime → p ≤ bound → ¬ p * p ∣ n) ∧
      (n < (bound + 1) ^ 2 → (answer = true ↔ Squarefree n)) ∧
      full.isSquareFree n = .ok (decide (Squarefree n)) ∧
      (1 ≤ n → ∃ split, SquareSplit.timesRoot n = .ok split ∧ (full.isSquareFree n = .ok true ↔ split = ⟨1, n⟩)) := by
  obtain ⟨answer, answered, spared⟩ := isSquareFree_upTo_eq large word wordN
  have exact : full.isSquareFree n = .ok (decide (Squarefree n)) :=
    isSquareFree_upTo_eq_squarefree _ _ (lt_rootBound_square wordN) wordN
  refine ⟨upTo bound large word, answer, upTo?_eq_ok large word, answered, spared, ?_, exact, ?_⟩
  · intro small
    have decided := isSquareFree_upTo_eq_squarefree large word (Nat.pow_two _ ▸ small) wordN
    rw [answered, Except.ok.injEq] at decided
    rw [decided, decide_eq_true_iff]
  · intro positive
    have whole := SquareSplit.timesRoot_eq_one_self_iff positive wordN
    rw [SquareSplit.timesRoot_eq wordN] at whole ⊢
    refine ⟨_, rfl, ?_⟩
    rw [exact, Except.ok.injEq, decide_eq_true_iff, ← whole, Except.ok.injEq]

/-- The square of 29 passes a table up to 25 but not the full one, which splits it. -/
theorem isSquareFree_complete_prime_square :
    ∃ table, upTo? 25 = .ok table ∧ table.isSquareFree 841 = .ok true ∧ full.isSquareFree 841 = .ok false := by
  have complete := @isSquareFree_complete 25 (by decide) (by decide) 841 (by decide)
  obtain ⟨table, answer, made, answered, spared, -, exact, -⟩ := complete
  have free : ∀ p, p.Prime → p ≤ 25 → ¬ p * p ∣ 841 := by
    have rough : Rough 25 841 := .of_lt_minFac (by norm_num)
    exact rough.squaresSpared
  rw [spared.mpr ⟨by decide, free⟩] at answered
  have square : ¬ Squarefree 841 := by
    rw [Nat.squarefree_iff_prime_squarefree]
    exact fun free => free 29 (by norm_num) (by decide)
  rw [decide_eq_false square] at exact
  exact ⟨table, made, answered, exact⟩

end PrimeTable

end Surd
