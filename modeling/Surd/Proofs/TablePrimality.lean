import Mathlib.Tactic.NormNum.Prime
import Surd.Proofs.SieveCompleteness
import Surd.Proofs.TableSearch

/-! What a complete table says of a word. Up to its bound it looks the word up; beyond, it
divides by its primes and stops at the floor root. Both ways meet at the bound, and below
the square of the next number they decide primality. -/

namespace Surd.PrimeTable

/-- Division by an ascending row tries exactly the entries up to the limit. -/
private theorem undivided_eq {limit n : Nat} {row : List Nat} (ascending : row.Pairwise (· < ·))
    (positive : ∀ p ∈ row, 0 < p) :
    undivided limit n (row.map Int.ofNat) = .ok (decide (∀ p ∈ row, p ≤ limit → ¬ p ∣ n)) := by
  induction row with
  | nil => simp [undivided]
  | cons p rest ih =>
    obtain ⟨least, tail⟩ := List.pairwise_cons.mp ascending
    have nonzero : (p : Int) ≠ 0 := by
      have := positive p (by simp)
      omega
    simp only [List.map_cons, undivided, Int.ofNat_eq_natCast, nonzero, if_false, Int.ofNat_lt, Int.natCast_dvd_natCast]
    split
    next beyond =>
      have untried : ∀ q ∈ p :: rest, q ≤ limit → ¬ q ∣ n := by
        intro q member le
        rcases List.mem_cons.mp member with rfl | later
        · omega
        · have := least q later
          omega
      rw [decide_eq_true untried]
    next within =>
      split
      next divides =>
        have divided : ¬ ∀ q ∈ p :: rest, q ≤ limit → ¬ q ∣ n :=
          fun undivided => undivided p (by simp) (by omega) divides
        rw [decide_eq_false divided]
      next spared =>
        rw [ih tail (fun q member => positive q (by simp [member]))]
        simp [spared]

/-- A complete table takes a word for a prime: it is one, or it lies beyond the bound and no
prime of the table divides it. -/
def Passes (bound n : Nat) : Prop := if n ≤ bound then n.Prime else Rough bound n

theorem passes_iff_prime {bound n : Nat} (large : 2 ≤ bound) (small : n < (bound + 1) * (bound + 1)) :
    Passes bound n ↔ n.Prime := by
  unfold Passes
  split
  next within => exact Iff.rfl
  next beyond =>
    constructor
    · exact fun rough => rough.prime_of_lt (by omega) small
    · exact fun prime => Rough.of_prime prime (by omega)

/-- Above one, the bound may be left out of account: no number up to it is free of its primes,
and no prime beyond it has any of them. -/
theorem passes_iff_prime_or_rough {bound n : Nat} (above : 2 ≤ n) : Passes bound n ↔ n.Prime ∨ Rough bound n := by
  unfold Passes
  split
  next within =>
    have composite : ¬ Rough bound n := fun rough =>
      Nat.not_lt_of_le within (rough.lt_of_two_le above)
    rw [or_iff_left composite]
  next beyond =>
    rw [or_iff_right_of_imp fun prime => Rough.of_prime prime (by omega)]

private theorem isSome_index?_upTo {bound n : Nat} (large : 2 ≤ bound) (word : bound ≤ wordMax) (within : n ≤ bound) :
    ((upTo bound large word).index? n).isSome = true ↔ n.Prime := by
  rcases Nat.lt_or_ge n 2 with small | above
  · have two : ((2 : Nat) : Int) ∈ (upTo bound large word).entries := (mem_upTo large word).mpr ⟨Nat.prime_two, large⟩
    obtain ⟨position, found⟩ := Array.mem_iff_getElem?.mp two
    have le := le_largest found
    rw [index?_eq_none (by omega) (by omega)]
    simp only [Option.isSome_none, Bool.false_eq_true, false_iff]
    intro prime
    have := prime.two_le
    omega
  · rw [isSome_index?_iff _ (by omega), mem_upTo large word]
    exact and_iff_left_of_imp fun _ => within

theorem rough_iff_undivided {bound n : Nat} (word : bound ≤ wordMax) (beyond : bound < n) (above : 2 ≤ n) :
    (∀ p ∈ primesUpTo bound, p ≤ Nat.sqrt n → ¬ p ∣ n) ↔ Rough bound n := by
  rw [← Rough.min_sqrt_iff beyond above]
  constructor
  · intro undivided p prime divides
    by_contra within
    have member : p ∈ primesUpTo bound := (mem_primesUpTo word).mpr ⟨prime, by omega⟩
    exact undivided p member (by omega) divides
  · intro rough p member le divides
    obtain ⟨prime, leBound⟩ := (mem_primesUpTo word).mp member
    exact rough.not_dvd_of_le prime (by omega) divides

/-- A complete table answers every word. -/
theorem isPrime_upTo_eq {bound n : Nat} (large : 2 ≤ bound) (word : bound ≤ wordMax) (wordN : n ≤ wordMax) :
    ∃ answer, (upTo bound large word).isPrime n = .ok answer ∧ (answer = true ↔ Passes bound n) := by
  have same : (upTo bound large word).bound = bound := rfl
  unfold isPrime Passes
  rw [checkWord_ofNat _ wordN]
  simp only [bind, Except.bind, same]
  split
  next within => exact ⟨_, rfl, isSome_index?_upTo large word within⟩
  next beyond =>
    have positive : ∀ p ∈ primesUpTo bound, 0 < p := fun p member =>
      ((mem_primesUpTo word).mp member).1.pos
    rw [toList_upTo, undivided_eq (pairwise_primesUpTo bound) positive, floorRoot_eq_sqrt wordN]
    refine ⟨_, rfl, ?_⟩
    rw [decide_eq_true_iff]
    exact rough_iff_undivided word (by omega) (by omega)

theorem isPrime_upTo_eq_prime {bound n : Nat} (large : 2 ≤ bound) (word : bound ≤ wordMax)
    (small : n < (bound + 1) * (bound + 1)) (wordN : n ≤ wordMax) :
    (upTo bound large word).isPrime n = .ok (decide n.Prime) := by
  obtain ⟨answer, answered, passes⟩ := isPrime_upTo_eq large word wordN
  rw [answered, Except.ok.injEq, Bool.eq_iff_iff, decide_eq_true_iff, passes, passes_iff_prime large small]

theorem lt_rootBound_square {n : Nat} (wordN : n ≤ wordMax) : n < (rootBound + 1) * (rootBound + 1) := by
  simp only [wordMax, rootBound] at *
  omega

/-- Lookup up to the bound and division beyond it decide together whether a prime up to the
bound divides a word properly. Below the square of the next number this is primality, so
the full table decides every word, and tables agree as far as both reach. -/
theorem isPrime_complete {bound : Nat} (large : 2 ≤ bound) (word : bound ≤ wordMax) {n : Nat} (wordN : n ≤ wordMax) :
    ∃ table answer, upTo? bound = .ok table ∧ table.isPrime n = .ok answer ∧
      (n ≤ bound → (answer = true ↔ n.Prime)) ∧
      (bound < n → (answer = true ↔ ∀ p, p.Prime → p ≤ bound → ¬ p ∣ n)) ∧
      (n < (bound + 1) ^ 2 → (answer = true ↔ n.Prime)) ∧
      full.isPrime n = .ok (decide n.Prime) ∧
      ∀ other, 2 ≤ other → other ≤ wordMax → n < (bound + 1) ^ 2 → n < (other + 1) ^ 2 →
        ∃ second, upTo? other = .ok second ∧ second.isPrime n = .ok answer := by
  obtain ⟨answer, answered, passes⟩ := isPrime_upTo_eq large word wordN
  refine ⟨upTo bound large word, answer, upTo?_eq_ok large word, answered, ?_, ?_, ?_, ?_, ?_⟩
  · intro within
    rw [passes, Passes, if_pos within]
  · intro beyond
    rw [passes, Passes, if_neg (by omega)]
    exact ⟨fun rough p prime le divides => Nat.not_lt_of_le le (rough p prime divides),
      fun undivided p prime divides => Nat.lt_of_not_le fun le => undivided p prime le divides⟩
  · intro small
    rw [passes, passes_iff_prime large (Nat.pow_two _ ▸ small)]
  · exact isPrime_upTo_eq_prime _ _ (lt_rootBound_square wordN) wordN
  · intro other largeOther wordOther small smallOther
    refine ⟨upTo other largeOther wordOther, upTo?_eq_ok largeOther wordOther, ?_⟩
    rw [← answered, isPrime_upTo_eq_prime large word (Nat.pow_two _ ▸ small) wordN,
      isPrime_upTo_eq_prime largeOther wordOther (Nat.pow_two _ ▸ smallOther) wordN]

/-- A table up to 25 takes the square of 29 for a prime, the full table does not. -/
theorem isPrime_complete_prime_square :
    ∃ table, upTo? 25 = .ok table ∧ table.isPrime 841 = .ok true ∧ full.isPrime 841 = .ok false := by
  have complete := @isPrime_complete 25 (by decide) (by decide) 841 (by decide)
  obtain ⟨table, answer, made, answered, -, beyond, -, exact, -⟩ := complete
  have undivided : ∀ p, p.Prime → p ≤ 25 → ¬ p ∣ 841 := by
    intro p prime le divides
    have root : p ∣ 29 := prime.dvd_of_dvd_pow (show p ∣ 29 ^ 2 from divides)
    have same := (Nat.prime_dvd_prime_iff_eq prime (by norm_num)).mp root
    omega
  rw [(beyond (by decide)).mpr undivided] at answered
  have composite : ¬ Nat.Prime 841 := by norm_num
  rw [decide_eq_false composite] at exact
  exact ⟨table, made, answered, exact⟩

end Surd.PrimeTable
