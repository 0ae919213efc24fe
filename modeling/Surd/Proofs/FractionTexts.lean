import Surd.Calculator.Layout
import Surd.Proofs.DecimalTexts

/-! Narrow fractions written and read back. The text holds the reduced parts, and a denominator of one is left
out there, as a reader takes it to be where there is none. Reduced parts are parts again, so that they make the
fraction that they come from. -/

namespace Surd
namespace Numeral
open Text

theorem readRational_rationalText {r : Rat} (narrow : Narrow r) : readRational (rationalText r) = .ok (r.num, r.den) := by
  unfold rationalText
  split
  next whole =>
    rw [readRational_toString narrow.1, whole]
    rfl
  next =>
    have letters : toString r.num ++ "/" ++ toString r.den = quotientText r.num r.den := rfl
    rw [letters]
    exact readRational_quotient narrow.1 narrow.2 (Int.natCast_ne_zero.mpr r.den_nz)

end Numeral

private theorem Calculator.fractionText_of_narrow {r : Rat} (narrow : Narrow r) :
    fractionText (.fraction r) = .ok (rationalText r) := by
  have short : hasWritableLength r.num ∧ hasWritableLength r.den :=
    ⟨writable_of_fitsPart narrow.1, writable_of_fitsPart narrow.2⟩
  rw [fractionText]
  exact if_pos (.inr short)

namespace Rational32
open Numeral (readRational)

/-- The fraction that two parts make is their quotient. -/
theorem ofParts_eq_ok_iff {numer denom : Int} {r : Rational32} : ofParts numer denom = .ok r ↔
    FitsPart numer ∧ FitsPart denom ∧ denom ≠ 0 ∧ r.val = Rat.divInt numer denom := by
  rw [ofParts, checkPart, guard_bind_eq_ok_iff, checkPart, guard_bind_eq_ok_iff]
  refine and_congr_right fun _ => and_congr_right fun _ => ?_
  split
  next zero => simp [zero]
  next nonzero =>
    simp only [ne_eq, nonzero, not_false_eq_true, true_and]
    constructor
    · intro made
      split at made
      next => exact congrArg val (Except.ok.inj made).symm
      next => cases made
    · intro same
      obtain ⟨_, narrow⟩ := r
      cases same
      exact dif_pos narrow

theorem ofParts_num_den (r : Rational32) : ofParts r.val.num r.val.den = .ok r :=
  ofParts_eq_ok_iff.mpr ⟨r.narrow.1, r.narrow.2, Int.natCast_ne_zero.mpr r.val.den_nz, (Rat.num_divInt_den r.val).symm⟩

/-- A narrow fraction is written, and its text is read back as its reduced parts, which make it again. So a typed
rational that makes a fraction keeps its value when that fraction is written and read. -/
theorem text_readBack :
    (∀ r : Rational32, Calculator.fractionText (.fraction r.val) = .ok (rationalText r.val) ∧
      readRational (rationalText r.val) = .ok (r.val.num, r.val.den) ∧ ofParts r.val.num r.val.den = .ok r) ∧
      ∀ text a b r, readRational text = .ok (a, b) → ofParts a b = .ok r →
        ∃ written numer denom, Calculator.fractionText (.fraction r.val) = .ok written ∧
          readRational written = .ok (numer, denom) ∧ b ≠ 0 ∧ denom ≠ 0 ∧ (numer : Rat) / denom = (a : Rat) / b := by
  have written := fun r : Rational32 => Calculator.fractionText_of_narrow r.narrow
  refine ⟨fun r => ⟨written r, Numeral.readRational_rationalText r.narrow, r.ofParts_num_den⟩, ?_⟩
  intro text a b r _ made
  obtain ⟨-, -, nonzero, same⟩ := ofParts_eq_ok_iff.mp made
  refine ⟨_, _, _, written r, Numeral.readRational_rationalText r.narrow, nonzero, ?_, ?_⟩
  · exact Int.natCast_ne_zero.mpr r.val.den_nz
  · rw [← Rat.divInt_eq_div, ← Rat.divInt_eq_div, Rat.num_divInt_den, same]

/-- The sign moves to the numerator and the common factor is gone, but the value stays. -/
theorem text_readBack_unreduced :
    readRational "6/-4" = .ok (6, -4) ∧
      ∃ r written numer denom, ofParts 6 (-4) = .ok r ∧ Calculator.fractionText (.fraction r.val) = .ok written ∧
        readRational written = .ok (numer, denom) ∧ (numer : Rat) / denom = ((6 : Int) : Rat) / (-4 : Int) := by
  have letters : Numeral.quotientText 6 (-4) = "6/-4" := by decide +kernel
  have typed : readRational "6/-4" = .ok (6, -4) :=
    letters ▸ Numeral.readRational_quotient (by decide) (by decide) (by decide)
  have narrow : Narrow (Rat.divInt 6 (-4)) := by decide +kernel
  have made : ofParts 6 (-4) = .ok ⟨_, narrow⟩ := ofParts_eq_ok_iff.mpr ⟨by decide, by decide, by decide, rfl⟩
  obtain ⟨-, again⟩ := text_readBack
  obtain ⟨written, numer, denom, wrote, read, -, -, same⟩ := again _ _ _ _ typed made
  exact ⟨typed, _, written, numer, denom, made, wrote, read, same⟩

end Rational32
end Surd
