import Mathlib.Tactic.NormNum.Prime
import Surd.Proofs.FloorRoot
import Surd.Proofs.RoughNumbers
import Surd.PrimeTable

/-! The sieve loses no prime and keeps nothing else. Before each filter the standing cells
are those whose numbers no smaller prime divides properly; a filter that stands is therefore
prime, and one that was struck is not. So the cells are struck for the primes up to the floor root of
the bound, and filters above it are never needed, be it that the loop stops at a standing one or
that it passes struck ones to the end. -/

namespace Surd.Sieve

private theorem steps_after {step position i : Nat} (after : position < i) :
    position + step ≤ i ∧ step ∣ i - (position + step) ↔ position ≤ i ∧ step ∣ i - position := by
  constructor
  · rintro ⟨fits, divides⟩
    have shift : i - position = i - (position + step) + step := by omega
    exact ⟨by omega, shift ▸ Nat.dvd_add_self_right.mpr divides⟩
  · rintro ⟨-, divides⟩
    have fits := Nat.le_of_dvd (by omega) divides
    have shift : i - position = i - (position + step) + step := by omega
    exact ⟨by omega, Nat.dvd_add_self_right.mp (shift ▸ divides)⟩

/-- Exactly the cells a whole number of steps after the position are struck. -/
private theorem standing_strike {cells : Array Bool} {step position i : Nat} (positive : 0 < step) :
    (strike cells step position)[i]? = some true ↔
      cells[i]? = some true ∧ ¬ (position ≤ i ∧ step ∣ i - position) := by
  fun_induction strike cells step position with
  | case1 cells position inside ih =>
    rw [ih, Array.getElem?_set]
    rcases Nat.lt_trichotomy i position with before | rfl | after
    · simp only [show position ≠ i by omega, if_false, show ¬ position ≤ i by omega,
        show ¬ position + step ≤ i by omega, false_and]
    · simp
    · rw [steps_after after]
      simp only [show position ≠ i by omega, if_false]
  | case2 cells position outside =>
    refine ⟨fun standing => ⟨standing, ?_⟩, And.left⟩
    rintro ⟨reached, -⟩
    obtain ⟨inside, -⟩ := Array.getElem?_eq_some_iff.mp standing
    exact outside ⟨positive, by omega⟩

private theorem size_sift (limit : Nat) (cells : Array Bool) (filter : Nat) :
    (sift limit cells filter).size = cells.size := by
  fun_induction sift limit cells filter with
  | case1 => rfl
  | case2 cells filter inside standing above ih => rw [ih, size_strike]
  | case3 cells filter inside struck ih => exact ih
  | case4 => rfl

private theorem sift_of_limit_lt {limit filter : Nat} (cells : Array Bool) (beyond : limit < filter) :
    sift limit cells filter = cells := by
  fun_induction sift limit cells filter with
  | case1 => rfl
  | case2 cells filter inside standing within ih => exact absurd beyond within
  | case3 cells filter inside struck ih => exact ih (by omega)
  | case4 => rfl

/-- The cells after each filter of a row has struck its proper multiples. -/
def strikeAll (cells : Array Bool) (filters : List Nat) : Array Bool :=
  filters.foldl (fun cells filter => strike cells filter (2 * filter)) cells

/-- The primes from a filter on that are within the limit. -/
def filtersFrom (limit filter : Nat) : List Nat :=
  (List.range' filter (limit + 1 - filter)).filter fun p => p.Prime

theorem filtersFrom_of_lt {limit filter : Nat} (beyond : limit < filter) : filtersFrom limit filter = [] := by
  rw [filtersFrom, show limit + 1 - filter = 0 by omega]
  rfl

theorem filtersFrom_of_le {limit filter : Nat} (within : filter ≤ limit) :
    filtersFrom limit filter = if filter.Prime then filter :: filtersFrom limit (filter + 1)
      else filtersFrom limit (filter + 1) := by
  unfold filtersFrom
  rw [show limit + 1 - filter = limit + 1 - (filter + 1) + 1 by omega, List.range'_succ, List.filter_cons]
  simp only [decide_eq_true_eq]

private theorem filtersFrom_of_not_prime {limit filter : Nat} (composite : ¬ filter.Prime) :
    filtersFrom limit filter = filtersFrom limit (filter + 1) := by
  rcases Nat.lt_or_ge limit filter with beyond | within
  · rw [filtersFrom_of_lt beyond, filtersFrom_of_lt (by omega)]
  · rw [filtersFrom_of_le within, if_neg composite]

/-- A cell stands exactly when no prime below the filter divides its number properly. -/
def Sifted (filter : Nat) (cells : Array Bool) : Prop :=
  ∀ i, 2 ≤ i → i < cells.size →
    (cells[i]? = some true ↔ ∀ p, p.Prime → p < filter → p ∣ i → p = i)

private theorem sifted_replicate (size : Nat) : Sifted 2 (Array.replicate size true) := by
  intro i _ inside
  rw [Array.size_replicate] at inside
  simp only [Array.getElem?_replicate, inside, if_true, true_iff]
  intro p prime small
  have := prime.two_le
  omega

namespace Sifted

private theorem standing_iff {filter : Nat} {cells : Array Bool} (sifted : Sifted filter cells)
    (above : 2 ≤ filter) (inside : filter < cells.size) : cells[filter]? = some true ↔ filter.Prime := by
  rw [sifted filter above inside]
  constructor
  · intro undivided
    by_contra composite
    have least := Nat.minFac_prime (show filter ≠ 1 by omega)
    have small : filter.minFac < filter := (Nat.not_prime_iff_minFac_lt above).mp composite
    have same := undivided _ least small (Nat.minFac_dvd filter)
    omega
  · intro prime p primeP small divides
    exact (Nat.prime_dvd_prime_iff_eq primeP prime).mp divides

/-- A prime strikes its proper multiples and nothing else. -/
theorem strike {filter : Nat} {cells : Array Bool} (sifted : Sifted filter cells) (prime : filter.Prime) :
    Sifted (filter + 1) (Sieve.strike cells filter (2 * filter)) := by
  have positive := prime.pos
  intro i large inside
  rw [size_strike] at inside
  rw [standing_strike positive, sifted i large inside]
  have multiple : (2 * filter ≤ i ∧ filter ∣ i - 2 * filter) ↔ (filter ∣ i ∧ filter ≠ i) := by
    constructor
    · rintro ⟨fits, divides⟩
      exact ⟨(Nat.dvd_sub_iff_left fits (Nat.dvd_mul_left _ _)).mp divides, by omega⟩
    · rintro ⟨⟨times, rfl⟩, different⟩
      have two : 2 ≤ times := by
        rcases times with _ | _ | times
        · simp at large
        · simp at different
        · omega
      have fits : 2 * filter ≤ filter * times := by
        rw [Nat.mul_comm 2]
        exact Nat.mul_le_mul_left _ two
      exact ⟨fits, (Nat.dvd_sub_iff_left fits (Nat.dvd_mul_left _ _)).mpr (Nat.dvd_mul_right _ _)⟩
  rw [multiple]
  constructor
  · rintro ⟨undivided, spared⟩ p primeP small divides
    rcases Nat.lt_succ_iff_lt_or_eq.mp small with earlier | rfl
    · exact undivided p primeP earlier divides
    · by_contra different
      exact spared ⟨divides, different⟩
  · intro undivided
    refine ⟨fun p primeP small => undivided p primeP (by omega), ?_⟩
    rintro ⟨divides, different⟩
    exact different (undivided filter prime (by omega) divides)

/-- A composite filter would strike nothing new. -/
private theorem skip {filter : Nat} {cells : Array Bool} (sifted : Sifted filter cells) (composite : ¬ filter.Prime) :
    Sifted (filter + 1) cells := by
  intro i large inside
  rw [sifted i large inside]
  constructor
  · intro undivided p prime small divides
    have different : p ≠ filter := fun same => composite (same ▸ prime)
    exact undivided p prime (by omega) divides
  · intro undivided p prime small divides
    exact undivided p prime (by omega) divides

/-- The sieve ends beyond its limit, wherever it leaves off, and on its way it strikes for the
primes up to the limit and for nothing else. -/
theorem sift {limit filter : Nat} {cells : Array Bool} (sifted : Sifted filter cells) (above : 2 ≤ filter)
    (short : limit < cells.size) :
    (∃ reached, limit < reached ∧ Sifted reached (Sieve.sift limit cells filter)) ∧
      Sieve.sift limit cells filter = strikeAll cells (filtersFrom limit filter) := by
  fun_induction Sieve.sift limit cells filter with
  | case1 cells filter inside standing beyond =>
    rw [filtersFrom_of_lt beyond]
    exact ⟨⟨filter, beyond, sifted⟩, rfl⟩
  | case2 cells filter inside standing within ih =>
    have prime := (sifted.standing_iff above inside).mp (by simpa [inside] using standing)
    rw [filtersFrom_of_le (by omega), if_pos prime]
    exact ih (sifted.strike prime) (by omega) (by simpa only [size_strike] using short)
  | case3 cells filter inside struck ih =>
    have composite : ¬ filter.Prime := by
      rw [← sifted.standing_iff above inside]
      simpa [inside] using struck
    rw [filtersFrom_of_not_prime composite]
    exact ih (sifted.skip composite) (by omega) short
  | case4 cells filter outside =>
    rw [filtersFrom_of_lt (by omega)]
    exact ⟨⟨filter, by omega, sifted⟩, rfl⟩

/-- Once the filters have passed the floor root of the bound, the standing numbers up to
the bound are primes. -/
theorem standing_iff_prime {reached bound i : Nat} {cells : Array Bool} (sifted : Sifted reached cells)
    (passed : Nat.sqrt bound < reached) (large : 2 ≤ i) (le : i ≤ bound) (inside : i < cells.size) :
    cells[i]? = some true ↔ i.Prime := by
  rw [sifted i large inside]
  constructor
  · intro undivided
    by_contra composite
    have rough : Rough (Nat.sqrt i) i := by
      intro p prime divides
      have root := Nat.sqrt_le_sqrt le
      by_contra small
      have same := undivided p prime (by omega) divides
      exact composite (same ▸ prime)
    exact composite (rough.prime_of_sqrt large)
  · intro prime p primeP _ divides
    exact (Nat.prime_dvd_prime_iff_eq primeP prime).mp divides

end Sifted

theorem size_cells (bound : Nat) : (cells bound).size = bound + 1 := by
  rw [cells, size_sift, Array.size_replicate]

theorem floorRoot_le {bound : Nat} (word : bound ≤ wordMax) : floorRoot bound ≤ bound :=
  floorRoot_eq_sqrt word ▸ Nat.sqrt_le_self bound

/-- What becomes of the cells that all stand at first. -/
theorem cells_sifted {bound : Nat} (word : bound ≤ wordMax) :
    (∃ reached, floorRoot bound < reached ∧ Sifted reached (cells bound)) ∧
      cells bound = strikeAll (Array.replicate (bound + 1) true) (filtersFrom (floorRoot bound) 2) := by
  have root := floorRoot_le word
  exact (sifted_replicate (bound + 1)).sift (Nat.le_refl 2) (by rw [Array.size_replicate]; omega)

theorem standing_cells {bound i : Nat} (word : bound ≤ wordMax) (large : 2 ≤ i) (le : i ≤ bound) :
    (cells bound)[i]? = some true ↔ i.Prime := by
  obtain ⟨⟨reached, passed, sifted⟩, -⟩ := cells_sifted word
  rw [floorRoot_eq_sqrt word] at passed
  have inside : i < (cells bound).size := by rw [size_cells]; omega
  exact sifted.standing_iff_prime passed large le inside

end Sieve

theorem primesUpTo_eq_filtersFrom {bound : Nat} (word : bound ≤ wordMax) :
    primesUpTo bound = Sieve.filtersFrom bound 2 := by
  unfold primesUpTo Sieve.filtersFrom
  rw [show bound + 1 - 2 = bound - 1 by omega]
  apply List.filter_congr
  intro p inside
  rw [List.mem_range'_1] at inside
  rw [Bool.eq_iff_iff, decide_eq_true_iff, ← Sieve.standing_cells word (by omega) (by omega), Array.getD_eq_getD_getElem?]
  cases (Sieve.cells bound)[p]? with
  | none => simp
  | some standing => simp

/-- Up to a word the sieve finds every prime and nothing else. -/
theorem mem_primesUpTo {bound p : Nat} (word : bound ≤ wordMax) :
    p ∈ primesUpTo bound ↔ p.Prime ∧ p ≤ bound := by
  rw [primesUpTo_eq_filtersFrom word, Sieve.filtersFrom, List.mem_filter, List.mem_range'_1, decide_eq_true_iff]
  constructor
  · exact fun ⟨inside, prime⟩ => ⟨prime, by omega⟩
  · rintro ⟨prime, le⟩
    have large := prime.two_le
    exact ⟨by omega, prime⟩

/-- For every word the sieve answers with the primes up to it, each once and in ascending
order, and with nothing else, although it strikes only for the primes up to the floor root and
changes no cell once it has passed them. -/
theorem primesUpTo?_complete {bound : Nat} (word : bound ≤ wordMax) :
    ∃ row, primesUpTo? bound = .ok row ∧ row.Pairwise (· < ·) ∧
      (∀ p, p ∈ row ↔ p.Prime ∧ 2 ≤ p ∧ p ≤ bound) ∧ (bound ≤ 1 → row = []) ∧
      Sieve.cells bound = Sieve.strikeAll (Array.replicate (bound + 1) true) (primesUpTo (floorRoot bound)) ∧
      ∀ cells filter, floorRoot bound < filter → Sieve.sift (floorRoot bound) cells filter = cells := by
  refine ⟨primesUpTo bound, ?_, pairwise_primesUpTo bound, ?_, ?_, ?_, fun cells _ => Sieve.sift_of_limit_lt cells⟩
  · rw [primesUpTo?, checkWord_ofNat _ word]
    rfl
  · intro p
    rw [mem_primesUpTo word]
    constructor
    · exact fun ⟨prime, le⟩ => ⟨prime, prime.two_le, le⟩
    · exact fun ⟨prime, _, le⟩ => ⟨prime, le⟩
  · intro small
    rw [primesUpTo_eq_filtersFrom word, Sieve.filtersFrom_of_lt (by omega)]
  · rw [primesUpTo_eq_filtersFrom ((Sieve.floorRoot_le word).trans word)]
    exact (Sieve.cells_sifted word).2

/-- The largest prime square that is a word is struck though the bound is the square itself,
and its prime is kept. -/
theorem primesUpTo?_complete_prime_square :
    ∃ row, primesUpTo? 4293001441 = .ok row ∧ 65521 ∈ row ∧ 65521 * 65521 ∉ row := by
  have complete := @primesUpTo?_complete 4293001441 (by decide)
  obtain ⟨row, answered, -, members, -⟩ := complete
  refine ⟨row, answered, (members 65521).mpr ⟨by norm_num, by decide, by decide⟩, ?_⟩
  intro member
  exact Nat.not_prime_mul (by decide) (by decide) ((members _).mp member).1

namespace PrimeTable
variable {bound : Nat} (large : 2 ≤ bound) (word : bound ≤ wordMax)

theorem upTo?_eq_ok : upTo? bound = .ok (upTo bound large word) := by
  unfold upTo?
  rw [checkWord_ofNat _ word]
  exact dif_pos ⟨large, word⟩

theorem toList_upTo : (upTo bound large word).entries.toList = (primesUpTo bound).map Int.ofNat := rfl

/-- A table made up to a bound holds the primes up to it and nothing else. -/
theorem mem_upTo {p : Nat} : (p : Int) ∈ (upTo bound large word).entries ↔ p.Prime ∧ p ≤ bound := by
  rw [← Array.mem_toList_iff, toList_upTo, ← mem_primesUpTo word]
  simp only [List.mem_map, Int.ofNat_eq_natCast, Int.natCast_inj, exists_eq_right]

end PrimeTable
end Surd
