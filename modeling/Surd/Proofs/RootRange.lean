import Surd.Calculator
import Surd.Proofs.SquareParts

/-! Where the exact root of a narrow fraction leaves the range. The only product that can be
too large is the numerator times the odd part of the denominator; the two squares are never,
and they have no common divisor, so they are the parts of the fraction before the root. -/

namespace Surd

/-- An integer or a fraction that is that number. -/
def Value.Denotes (v : Value) (r : Rat) : Prop := v = .fraction r ∨ ∃ n : Int, v = .int n ∧ r = n

/-- The square root of a fraction that is not negative, each part without its root. -/
def exactRoot (r : Rat) : SquareRoot where
  part := Rat.divInt (squarePart r.num.toNat) (coveringPart r.den)
  root := (oddPart r.num.toNat * oddPart r.den : Nat)

section parts
variable {r : Rat} (nonneg : 0 ≤ r)
include nonneg

theorem toNat_num : (r.num.toNat : Int) = r.num := Int.toNat_of_nonneg (Rat.num_nonneg.mpr nonneg)

theorem cast_toNat_num : (r.num.toNat : Rat) = r.num := by exact_mod_cast congrArg (Int.cast : Int → Rat) (toNat_num nonneg)

theorem coprime_toNat_num : Nat.Coprime r.num.toNat r.den := by
  have reduced := r.reduced
  rwa [← toNat_num nonneg, Int.natAbs_natCast] at reduced

theorem coprime_squares : Nat.Coprime (squarePart r.num.toNat) (coveringPart r.den) := by
  have left : squarePart r.num.toNat ∣ r.num.toNat := (Dvd.intro _ rfl).trans (squarePart_dvd _)
  exact ((coprime_toNat_num nonneg).coprime_dvd_left left).coprime_dvd_right (coveringPart_dvd r.den_nz)

theorem exactRoot_part : (exactRoot r).part.num = squarePart r.num.toNat ∧ (exactRoot r).part.den = coveringPart r.den := by
  have nonzero : coveringPart r.den ≠ 0 := reweigh_ne_zero _ _
  have reduced : (squarePart r.num.toNat : Int).natAbs.Coprime (coveringPart r.den) := coprime_squares nonneg
  have same : (exactRoot r).part = ⟨squarePart r.num.toNat, coveringPart r.den, nonzero, reduced⟩ := Rat.mk_eq_divInt.symm
  rw [same]
  exact ⟨rfl, rfl⟩

end parts

section range
variable {r : Rat} (narrow : Narrow r) (nonneg : 0 ≤ r)
include narrow

theorem den_le_wordMax : r.den ≤ wordMax := by
  have le := narrow.2.2
  simp only [partMax, wordMax] at *
  omega

theorem coveringPart_le_partMax : (coveringPart r.den : Int) ≤ partMax := by
  have le := Nat.le_of_dvd r.den_pos (coveringPart_dvd r.den_nz)
  have fits := narrow.2.2
  omega

include nonneg

theorem squarePart_le_partMax : (squarePart r.num.toNat : Int) ≤ partMax := by
  have le := squarePart_le r.num.toNat
  have fits := narrow.1.2
  have same := toNat_num nonneg
  omega

theorem narrow_exactRoot_part : Narrow (exactRoot r).part := by
  obtain ⟨num, den⟩ := exactRoot_part nonneg
  have top := squarePart_le_partMax narrow nonneg
  have bottom := coveringPart_le_partMax narrow
  unfold Narrow FitsPart
  rw [num, den]
  simp only [partMin] at *
  omega

end range

namespace Rational32
variable {r : Rat} (narrow : Narrow r) (nonneg : 0 ≤ r)
include nonneg

theorem timesRoot_moved (fits : r.num * oddPart r.den ≤ wordMax) :
    SquareSplit.timesRoot (r.num * oddPart r.den) = .ok ⟨squarePart r.num.toNat, (exactRoot r).root⟩ := by
  obtain ⟨square, root⟩ := parts_mul_oddPart (coprime_toNat_num nonneg) r.den_nz
  rw [← toNat_num nonneg] at fits ⊢
  rw [← Int.natCast_mul, SquareSplit.timesRoot_eq (by exact_mod_cast fits), square, root]
  rfl

/-- The root is exact, or the numerator with the odd part of the denominator is no word. -/
theorem sqrt_eq : sqrt ⟨r, narrow⟩ = .ok (if wordMax < r.num * oddPart r.den then none else some (exactRoot r)) := by
  have numerator : ¬ r.num < 0 := Int.not_lt.mpr (Rat.num_nonneg.mpr nonneg)
  unfold sqrt
  rw [if_neg numerator, SquareSplit.overRoot_eq r.den_pos (den_le_wordMax narrow)]
  simp only [bind, Except.bind]
  split
  next above => rfl
  next fits =>
    have top := squarePart_le_partMax narrow nonneg
    have bottom := coveringPart_le_partMax narrow
    rw [timesRoot_moved nonneg (by omega)]
    dsimp only
    rw [if_neg (by omega)]
    rfl

end Rational32

theorem Calculator.squareRoot_eq {v : Value} {r : Rat} (denotes : v.Denotes r) (narrow : Narrow r) (nonneg : 0 ≤ r) :
    squareRoot v = .ok (if wordMax < r.num * oddPart r.den then none else some (exactRoot r)) := by
  have read : v.toRational32 = .ok ⟨r, narrow⟩ := by
    rcases denotes with rfl | ⟨n, rfl, rfl⟩
    · exact dif_pos narrow
    · exact dif_pos narrow
  rw [squareRoot, read, ← Rational32.sqrt_eq narrow nonneg]
  rfl

theorem exactRoot_root_le {r : Rat} (nonneg : 0 ≤ r) (fits : r.num * oddPart r.den ≤ wordMax) :
    (exactRoot r).root ≤ wordMax := by
  obtain ⟨-, root⟩ := parts_mul_oddPart (coprime_toNat_num nonneg) r.den_nz
  have word : r.num.toNat * oddPart r.den ≤ wordMax := by
    rw [← toNat_num nonneg] at fits
    exact_mod_cast fits
  unfold exactRoot
  rw [← root, Int.ofNat_le]
  rcases Nat.eq_zero_or_pos (r.num.toNat * oddPart r.den) with zero | positive
  · rw [zero, oddPart_zero]
    decide
  · exact (Nat.le_of_dvd positive (oddPart_dvd positive.ne')).trans word

theorem oddPart_den_of_square {r s : Rat} (square : s * s = r) : oddPart r.den = 1 := by
  rw [← square, Rat.mul_self_den]
  exact oddPart_mul_self s.den_nz

theorem num_mul_oddPart_le {r : Rat} (narrow : Narrow r) (one : oddPart r.den = 1) : r.num * oddPart r.den ≤ wordMax := by
  have fits := narrow.1.2
  rw [one]
  simp only [partMax, wordMax] at *
  omega

/-- There is no answer exactly when the numerator times the odd part of the denominator is no
word. No other number of the computation leaves its range, so the second test never fires:
the squares are coprime parts of a narrow fraction, and the root is a word. -/
theorem squareRoot_range {v : Value} {r : Rat} (denotes : v.Denotes r) (narrow : Narrow r) (nonneg : 0 ≤ r) :
    ∃ below answer, SquareSplit.overRoot r.den = .ok below ∧ below.root = oddPart r.den ∧
      Calculator.squareRoot v = .ok answer ∧
      (answer = none ↔ wordMax < r.num * oddPart r.den) ∧
      (r.num * oddPart r.den ≤ wordMax → ∃ above result,
        SquareSplit.timesRoot (r.num * below.root) = .ok above ∧
        ¬ (partMax < above.square ∨ partMax < below.square) ∧
        answer = some result ∧ result.root = above.root ∧ result.root ≤ wordMax ∧
        Int.gcd above.square below.square = 1 ∧
        result.part.num = above.square ∧ result.part.den = below.square ∧ Narrow result.part ∧
        above.square * above.square ∣ r.num) ∧
      (r.den = 1 → answer ≠ none) ∧
      ((∃ s : Rat, s * s = r) → answer ≠ none) := by
  have frontier : (if wordMax < r.num * oddPart r.den then none else some (exactRoot r)) = none ↔
      wordMax < r.num * oddPart r.den := by simp
  refine ⟨_, _, SquareSplit.overRoot_eq r.den_pos (den_le_wordMax narrow), rfl,
    Calculator.squareRoot_eq denotes narrow nonneg, frontier, ?_, ?_, ?_⟩
  · intro fits
    obtain ⟨num, den⟩ := exactRoot_part nonneg
    have top := squarePart_le_partMax narrow nonneg
    have bottom := coveringPart_le_partMax narrow
    refine ⟨_, exactRoot r, Rational32.timesRoot_moved nonneg fits, by dsimp only; omega, if_neg (by omega), rfl,
      exactRoot_root_le nonneg fits, coprime_squares nonneg, num, congrArg Nat.cast den, narrow_exactRoot_part narrow nonneg, ?_⟩
    have squares : (squarePart r.num.toNat : Int) * squarePart r.num.toNat ∣ r.num.toNat := by
      exact_mod_cast squarePart_dvd r.num.toNat
    rwa [toNat_num nonneg] at squares
  · intro whole
    rw [Ne, frontier, Int.not_lt]
    exact num_mul_oddPart_le narrow (whole ▸ oddPart_one)
  · rintro ⟨s, square⟩
    rw [Ne, frontier, Int.not_lt]
    exact num_mul_oddPart_le narrow (oddPart_den_of_square square)

/-- Over two the largest part still has a root, over three it has none. -/
theorem squareRoot_range_largest_part :
    Calculator.squareRoot (.fraction (2147483647 / 3)) = .ok none ∧
      ∃ answer, Calculator.squareRoot (.fraction (2147483647 / 2)) = .ok answer ∧ answer ≠ none := by
  have odd : ∀ p : Nat, p.Prime → oddPart p = p := by
    intro p prime
    simp [oddPart, prime.primeFactors, Finset.filter_singleton, prime.factorization_self]
  have third := squareRoot_range (.inl rfl) (show Narrow (2147483647 / 3) by decide +kernel) (by norm_num)
  obtain ⟨-, missing, -, -, failed, frontier, -⟩ := third
  have above : missing = none := by
    rw [frontier, show (2147483647 / 3 : Rat).den = 3 by decide +kernel, odd 3 Nat.prime_three]
    decide +kernel
  have half := squareRoot_range (.inl rfl) (show Narrow (2147483647 / 2) by decide +kernel) (by norm_num)
  obtain ⟨-, answer, -, -, answered, frontier, -⟩ := half
  refine ⟨above ▸ failed, answer, answered, ?_⟩
  rw [Ne, frontier, show (2147483647 / 2 : Rat).den = 2 by decide +kernel, odd 2 Nat.prime_two]
  decide +kernel

end Surd
