import Mathlib.Tactic.LinearCombination
import Surd.Proofs.RootRange

/-! The exact root of a fraction is the only one of its form. The parity of each prime
exponent of the fraction decides whether the square-free number under the root has that
prime, and the fraction before the root follows. -/

namespace Surd

/-- Two products of a positive square and a square-free number agree only in both factors. -/
theorem rat_square_mul_unique {a b : Rat} {s t : Nat} (positiveA : 0 < a) (positiveB : 0 < b)
    (freeS : Squarefree s) (freeT : Squarefree t) (same : a * a * s = b * b * t) : a = b ∧ s = t := by
  have numA : (a.num.toNat : Rat) = a * a.den := by rw [Rat.mul_den_eq_num, cast_toNat_num positiveA.le]
  have numB : (b.num.toNat : Rat) = b * b.den := by rw [Rat.mul_den_eq_num, cast_toNat_num positiveB.le]
  have cleared : (a.num.toNat * b.den) * (a.num.toNat * b.den) * s = (b.num.toNat * a.den) * (b.num.toNat * a.den) * t := by
    have rational : ((a.num.toNat : Rat) * b.den) * (a.num.toNat * b.den) * s = (b.num.toNat * a.den) * (b.num.toNat * a.den) * t := by
      rw [numA, numB]
      linear_combination (a.den * b.den) ^ 2 * same
    exact_mod_cast rational
  have nonzeroA : a.num.toNat * b.den ≠ 0 := by
    have := Rat.num_pos.mpr positiveA
    exact mul_ne_zero (by omega) b.den_nz
  have nonzeroB : b.num.toNat * a.den ≠ 0 := by
    have := Rat.num_pos.mpr positiveB
    exact mul_ne_zero (by omega) a.den_nz
  obtain ⟨squares, roots⟩ := square_mul_unique nonzeroA nonzeroB freeS freeT cleared
  refine ⟨?_, roots⟩
  rw [Rat.eq_iff_mul_eq_mul, ← toNat_num positiveA.le, ← toNat_num positiveB.le]
  exact_mod_cast squares

section exact
variable {r : Rat} (nonneg : 0 ≤ r)

theorem exactRoot_zero : exactRoot 0 = ⟨0, 1⟩ := by
  simp [exactRoot, squarePart, oddPart]

include nonneg

theorem exactRoot_part_nonneg : 0 ≤ (exactRoot r).part := by
  rw [← Rat.num_nonneg, (exactRoot_part nonneg).1]
  exact Int.natCast_nonneg _

/-- The number under the root as a natural number. -/
theorem exists_exactRoot_root : ∃ t : Nat, (exactRoot r).root = t ∧ Squarefree t := by
  obtain ⟨-, root⟩ := parts_mul_oddPart (coprime_toNat_num nonneg) r.den_nz
  exact ⟨oddPart r.num.toNat * oddPart r.den, rfl, root ▸ squarefree_oddPart _⟩

theorem exactRoot_square : (exactRoot r).part * (exactRoot r).part * (exactRoot r).root = r := by
  have above : (squarePart r.num.toNat : Rat) * squarePart r.num.toNat * oddPart r.num.toNat = r.num.toNat := by
    exact_mod_cast squarePart_mul_oddPart r.num.toNat
  have below : (r.den : Rat) * oddPart r.den = coveringPart r.den * coveringPart r.den := by
    exact_mod_cast mul_oddPart r.den_nz
  have odd : (oddPart r.den : Rat) ≠ 0 := Nat.cast_ne_zero.mpr (oddPart_ne_zero _)
  simp only [exactRoot, Rat.divInt_eq_div, Int.cast_natCast, Int.cast_mul, Nat.cast_mul]
  calc (squarePart r.num.toNat : Rat) / coveringPart r.den * (squarePart r.num.toNat / coveringPart r.den) *
        (oddPart r.num.toNat * oddPart r.den)
      = squarePart r.num.toNat * squarePart r.num.toNat * oddPart r.num.toNat * oddPart r.den /
        (coveringPart r.den * coveringPart r.den) := by ring
    _ = r.num.toNat * oddPart r.den / (r.den * oddPart r.den) := by rw [above, below]
    _ = r.num.toNat / r.den := mul_div_mul_right _ _ odd
    _ = r := by rw [cast_toNat_num nonneg, Rat.num_div_den]

/-- No other square with a square-free number makes up the fraction. -/
theorem exactRoot_unique (positive : 0 < r) {s : Rat} {t : Nat} (large : 0 ≤ s) (free : Squarefree t)
    (square : s * s * t = r) : s = (exactRoot r).part ∧ (t : Int) = (exactRoot r).root := by
  obtain ⟨root, same, squarefree⟩ := exists_exactRoot_root nonneg
  have product := exactRoot_square nonneg
  rw [same, Int.cast_natCast] at product
  have nonzero : ∀ (a : Rat) (b : Nat), a * a * b = r → a ≠ 0 := by
    rintro a b equal rfl
    rw [zero_mul, zero_mul] at equal
    exact positive.ne equal
  obtain ⟨parts, roots⟩ := rat_square_mul_unique (large.lt_of_ne (nonzero s t square).symm)
    ((exactRoot_part_nonneg nonneg).lt_of_ne (nonzero _ root product).symm) free squarefree (square.trans product.symm)
  exact ⟨parts, by rw [same, roots]⟩

theorem exactRoot_root_eq_one_iff : (exactRoot r).root = 1 ↔ ∃ s : Rat, s * s = r := by
  constructor
  · intro one
    have product := exactRoot_square nonneg
    rw [one, Int.cast_one, mul_one] at product
    exact ⟨_, product⟩
  · rintro ⟨s, square⟩
    rcases nonneg.eq_or_lt with zero | positive
    · rw [← zero, exactRoot_zero]
    · have absolute : |s| * |s| * (1 : Nat) = r := by rw [abs_mul_abs_self, square, Nat.cast_one, mul_one]
      exact (exactRoot_unique nonneg positive (abs_nonneg s) squarefree_one absolute).2.symm

end exact

/-- The square root of a narrow fraction that is not negative never fails. Where there is
an answer it is the only fraction and square-free number whose square and product make up the
fraction; the number is one exactly for squares. -/
theorem squareRoot_canonical {v : Value} {r : Rat} (denotes : v.Denotes r) (narrow : Narrow r) (nonneg : 0 ≤ r) :
    ∃ answer, Calculator.squareRoot v = .ok answer ∧ (r = 0 → answer = some ⟨0, 1⟩) ∧
      ∀ result, answer = some result →
        0 ≤ result.part ∧ 0 < result.root ∧ Squarefree result.root ∧ result.part * result.part * result.root = r ∧
        (0 < r → ∀ (s : Rat) (t : Int), 0 ≤ s → 0 < t → Squarefree t → s * s * t = r →
          s = result.part ∧ t = result.root) ∧
        (result.root = 1 ↔ ∃ s : Rat, s * s = r) := by
  refine ⟨_, Calculator.squareRoot_eq denotes narrow nonneg, ?_, ?_⟩
  · rintro rfl
    rw [if_neg (Int.not_lt.mpr (num_mul_oddPart_le narrow oddPart_one)), exactRoot_zero]
  · intro result answered
    have found : exactRoot r = result := by
      split at answered
      · cases answered
      · exact Option.some.inj answered
    subst found
    obtain ⟨root, same, free⟩ := exists_exactRoot_root nonneg
    refine ⟨exactRoot_part_nonneg nonneg, ?_, ?_, exactRoot_square nonneg, ?_, exactRoot_root_eq_one_iff nonneg⟩
    · rw [same]
      exact Int.natCast_pos.mpr (Nat.pos_of_ne_zero free.ne_zero)
    · rwa [same, Int.squarefree_natCast]
    · intro positive s t large positiveT freeT square
      lift t to Nat using positiveT.le
      rw [Int.cast_natCast] at square
      exact exactRoot_unique nonneg positive large (Int.squarefree_natCast.mp freeT) square

/-- A denominator with an odd and an even exponent. -/
theorem squareRoot_canonical_mixed_exponents :
    Calculator.squareRoot (.fraction (5 / 72)) = .ok (some ⟨1 / 12, 10⟩) := by
  have narrow : Narrow (5 / 72) := by decide +kernel
  have small : ¬wordMax < (5 / 72 : Rat).num * oddPart (5 / 72 : Rat).den := by
    have below : oddPart 72 ≤ 72 := Nat.le_of_dvd (by decide) (oddPart_dvd (by decide))
    have parts : (5 / 72 : Rat).num = 5 ∧ (5 / 72 : Rat).den = 72 := by decide +kernel
    rw [parts.1, parts.2, wordMax]
    omega
  have present := Calculator.squareRoot_eq (.inl rfl) narrow (by norm_num)
  rw [if_neg small] at present
  obtain ⟨answer, answered, -, form⟩ := squareRoot_canonical (.inl rfl) narrow (by norm_num)
  cases present.symm.trans answered
  obtain ⟨-, -, -, -, unique, -⟩ := form _ rfl
  have free : Squarefree (10 : Int) := by
    rw [← Int.squarefree_natAbs]
    decide +kernel
  obtain ⟨part, root⟩ := unique (by norm_num) (1 / 12) 10 (by norm_num) (by norm_num) free (by norm_num)
  have whole : exactRoot (5 / 72) = ⟨1 / 12, 10⟩ := by
    rw [SquareRoot.mk.injEq]
    exact ⟨part.symm, root.symm⟩
  rw [answered, whole]

end Surd
