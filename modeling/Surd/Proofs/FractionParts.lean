import Mathlib.Algebra.Ring.Int.Parity
import Surd.Proofs.ExactOperands

/-! Which two parts make a fraction. Its reduced parts are the given ones without their common factor, with the
sign of the denominator moved to the numerator. Dividing keeps a part in range, so that only the opposite of the
least part can fall out, where nothing is divided out of it. The least part is a power of two: it stays whole just
beside an odd part. -/

namespace Surd

/-- A power of two that is one of two numbers stays whole in lowest terms just beside an odd number. -/
private theorem eq_two_pow_iff_odd (common : Nat) {whole other exponent : Nat} (proper : exponent ≠ 0) (coprime : whole.Coprime other)
    (power : common * whole = 2 ^ exponent) : whole = 2 ^ exponent ↔ Odd (common * other) := by
  constructor
  · intro same
    have one : common = 1 := by
      rw [same] at power
      exact Nat.eq_of_mul_eq_mul_right (Nat.two_pow_pos exponent) (power.trans (Nat.one_mul _).symm)
    rw [one, Nat.one_mul]
    rw [same] at coprime
    exact Nat.coprime_two_left.mp (coprime.coprime_dvd_left (dvd_pow_self 2 proper))
  · intro odd
    have oddCommon : Nat.Coprime common 2 := Nat.coprime_two_right.mpr (Nat.odd_mul.mp odd).1
    have one : common = 1 := (oddCommon.pow_right exponent).eq_one_of_dvd ⟨whole, power.symm⟩
    rwa [one, Nat.one_mul] at power

/-- A computation that fails with a fault of a kind. -/
def Raises {α : Type} (kind : FaultKind) (result : Except Fault α) : Prop := ∃ fault, result = .error fault ∧ fault.kind = kind

namespace Rational32

/-- Divided by a common factor, a part is the opposite of the least one where its sign alone was turned, beside an odd
part. -/
theorem eq_neg_partMin_iff {common whole other : Int} (coprime : whole.natAbs.Coprime other.natAbs) (nonzero : common ≠ 0)
    (fits : FitsPart (common * whole)) :
    whole = -partMin ↔ common * whole = partMin ∧ common < 0 ∧ Odd (common * other) := by
  have parity := eq_two_pow_iff_odd common.natAbs (show 31 ≠ 0 by decide) coprime
  rw [← Int.natAbs_mul, ← Int.natAbs_mul, Int.natAbs_odd] at parity
  have power : common * whole = partMin → (common * whole).natAbs = 2 ^ 31 := by
    intro least
    rw [least]
    rfl
  constructor
  · intro same
    have sign : common = -1 := by
      simp only [FitsPart, partMin, partMax, same] at fits
      omega
    have least : common * whole = partMin := by
      rw [sign, same]
      rfl
    refine ⟨least, by omega, (parity (power least)).mp ?_⟩
    rw [same]
    rfl
  · rintro ⟨least, negative, odd⟩
    have size := (parity (power least)).mpr odd
    have above : 0 < whole := by
      refine pos_of_mul_neg_right ?_ negative.le
      rw [least]
      decide
    simp only [partMin]
    omega

section
variable {common top : Int} {bottom : Nat} (coprime : top.natAbs.Coprime bottom) (nonzero : common ≠ 0)
include coprime nonzero

private theorem den_eq_neg_partMin_iff (fits : FitsPart (common * bottom)) :
    (bottom : Int) = -partMin ↔ common * bottom = partMin ∧ Odd (common * top) := by
  rw [@eq_neg_partMin_iff common bottom top coprime.symm nonzero fits]
  refine and_congr_right fun least => and_iff_right ?_
  refine neg_of_mul_neg_left ?_ (Int.natCast_nonneg bottom)
  rw [least]
  decide

private theorem num_eq_neg_partMin_iff (positive : 0 < bottom) (fits : FitsPart (common * top)) :
    top = -partMin ↔ common * top = partMin ∧ common * bottom < 0 ∧ Odd (common * bottom) := by
  have above : (0 : Int) < bottom := Int.natCast_pos.mpr positive
  have sign : common * bottom < 0 ↔ common < 0 :=
    ⟨fun product => neg_of_mul_neg_left product above.le, fun negative => mul_neg_of_neg_of_pos negative above⟩
  rw [sign]
  exact @eq_neg_partMin_iff common top bottom coprime nonzero fits

end

/-- The parts whose fraction falls out of the range: with the sign moved, the least part would become its opposite,
and nothing is divided out of it. -/
def Escapes (numer denom : Int) : Prop :=
  denom = partMin ∧ Odd numer ∨ numer = partMin ∧ denom < 0 ∧ Odd denom

/-- Two integers in lowest terms, with a positive denominator. -/
structure Lowest (numer denom top bottom : Int) : Prop where
  positive : 0 < bottom
  coprime : Int.gcd top bottom = 1
  same : top * denom = numer * bottom

section
variable {numer denom : Int} (nonzero : denom ≠ 0)
include nonzero

theorem lowest_divInt : Lowest numer denom (Rat.divInt numer denom).num (Rat.divInt numer denom).den where
  positive := Int.natCast_pos.mpr (Rat.divInt numer denom).den_pos
  coprime := (Rat.divInt numer denom).reduced
  same := by
    have bottom : ((Rat.divInt numer denom).den : Int) ≠ 0 := Int.natCast_ne_zero.mpr (Rat.divInt numer denom).den_nz
    exact (Rat.divInt_eq_divInt_iff bottom nonzero).mp (Rat.num_divInt_den _)

theorem Lowest.unique {top bottom : Int} (lowest : Lowest numer denom top bottom) :
    top = (Rat.divInt numer denom).num ∧ bottom = (Rat.divInt numer denom).den := by
  have same : Rat.divInt numer denom = top / bottom := by
    rw [← Rat.divInt_eq_div]
    exact ((Rat.divInt_eq_divInt_iff lowest.positive.ne' nonzero).mpr lowest.same).symm
  rw [same]
  exact ⟨(Rat.num_div_eq_of_coprime lowest.positive lowest.coprime).symm,
    (Rat.den_div_eq_of_coprime lowest.positive lowest.coprime).symm⟩

/-- Only the opposite of the least part can be a reduced part out of the range. -/
theorem not_narrow_divInt_iff (fitsNumer : FitsPart numer) (fitsDenom : FitsPart denom) :
    ¬Narrow (Rat.divInt numer denom) ↔ Escapes numer denom := by
  obtain ⟨common, above, below⟩ := Rat.num_den_mk (q := Rat.divInt numer denom) nonzero rfl
  have coprime := (Rat.divInt numer denom).reduced
  have positive := (Rat.divInt numer denom).den_pos
  revert above below coprime positive
  unfold Narrow
  generalize (Rat.divInt numer denom).num = top
  generalize (Rat.divInt numer denom).den = bottom
  rintro rfl rfl coprime positive
  have proper : common ≠ 0 := left_ne_zero_of_mul nonzero
  have topWithin : top.natAbs ≤ (common * top).natAbs := by
    rw [Int.natAbs_mul]
    exact Nat.le_mul_of_pos_left _ (Int.natAbs_pos.mpr proper)
  have bottomWithin : bottom ≤ (common * bottom).natAbs := by
    rw [Int.natAbs_mul, Int.natAbs_natCast]
    exact Nat.le_mul_of_pos_left _ (Int.natAbs_pos.mpr proper)
  rw [Escapes, ← den_eq_neg_partMin_iff coprime proper fitsDenom, ← num_eq_neg_partMin_iff coprime proper positive fitsNumer]
  simp only [FitsPart, partMin, partMax] at *
  omega

end

theorem ofParts_of_outside {numer denom : Int} (outside : ¬(FitsPart numer ∧ FitsPart denom)) :
    let part := if FitsPart numer then denom else numer
    ofParts numer denom = .error (.showing [part] (.outsidePart part)) := by
  by_cases fits : FitsPart numer
  · have other : ¬FitsPart denom := fun second => outside ⟨fits, second⟩
    simp only [ofParts, checkPart, if_pos fits, if_neg other, bind, Except.bind]
  · simp only [ofParts, checkPart, if_neg fits, bind, Except.bind]

theorem ofParts_of_fits {numer denom : Int} (fits : FitsPart numer ∧ FitsPart denom) :
    ofParts numer denom =
      if denom = 0 then .error (.overZero numer)
      else if narrow : Narrow (Rat.divInt numer denom) then .ok ⟨Rat.divInt numer denom, narrow⟩
      else .error (.outsideReduced numer denom (Rat.divInt numer denom)) := by
  rw [ofParts, checkPart, checkPart, if_pos fits.1, if_pos fits.2]
  rfl

/-- Two integers of which one is no part are refused as out of range, unless the first such one has too many digits to be
told. Parts over zero are a fault of another kind. All other parts make their fraction in lowest terms, which has one
form, unless it falls out of the range. -/
theorem ofParts_frontier (numer denom : Int) :
    Calculator.fraction (.int numer) (.int denom) = (ofParts numer denom).map (fun r => .fraction r.val) ∧
      (∀ part, part = (if FitsPart numer then denom else numer) → ¬(FitsPart numer ∧ FitsPart denom) →
        (hasWritableLength part = true → Raises .outOfRange (ofParts numer denom)) ∧
        (hasWritableLength part = false → Raises .badValue (ofParts numer denom))) ∧
      (FitsPart numer ∧ FitsPart denom → denom = 0 → Raises .zeroDivision (ofParts numer denom)) ∧
      (FitsPart numer ∧ FitsPart denom → denom ≠ 0 →
        (Raises .outOfRange (ofParts numer denom) ↔
          denom = -2147483648 ∧ Odd numer ∨ numer = -2147483648 ∧ denom < 0 ∧ Odd denom) ∧
        (¬Raises .outOfRange (ofParts numer denom) → ∃ r, ofParts numer denom = .ok r ∧
          FitsPart r.val.num ∧ FitsPart r.val.den ∧ Lowest numer denom r.val.num r.val.den ∧
          ∀ top bottom, Lowest numer denom top bottom → top = r.val.num ∧ bottom = r.val.den)) := by
  refine ⟨Calculator.fraction_int numer denom, ?_, ?_, ?_⟩
  · rintro part rfl outside
    rw [ofParts_of_outside outside, Fault.showing, List.all_cons, List.all_nil, Bool.and_true]
    refine ⟨fun short => ?_, fun long => ?_⟩
    · rw [short]
      exact ⟨_, rfl, rfl⟩
    · rw [long]
      exact ⟨_, rfl, rfl⟩
  · intro fits zero
    rw [ofParts_of_fits fits, if_pos zero]
    exact ⟨_, rfl, rfl⟩
  · intro fits nonzero
    have frontier : _ ↔ Escapes numer denom := not_narrow_divInt_iff nonzero fits.1 fits.2
    change (_ ↔ Escapes numer denom) ∧ _
    rw [ofParts_of_fits fits, if_neg nonzero, ← frontier]
    by_cases narrow : Narrow (Rat.divInt numer denom)
    · rw [dif_pos narrow]
      have answers : ¬Raises .outOfRange (.ok (⟨Rat.divInt numer denom, narrow⟩ : Rational32)) := by
        rintro ⟨_, ⟨⟩, _⟩
      exact ⟨iff_of_false answers (not_not_intro narrow), fun _ =>
        ⟨_, rfl, narrow.1, narrow.2, lowest_divInt nonzero, fun _ _ lowest => lowest.unique nonzero⟩⟩
    · rw [dif_neg narrow]
      have raises : Raises .outOfRange (.error (.outsideReduced numer denom (Rat.divInt numer denom)) : Except Fault Rational32) :=
        ⟨_, rfl, rfl⟩
      exact ⟨iff_of_true raises narrow, fun answers => absurd raises answers⟩

/-- Over the least part an even numerator is halved into the range, and an odd one falls out of it. -/
theorem ofParts_frontier_least_denominator :
    Raises .outOfRange (ofParts 3 (-2147483648)) ∧
      ∃ r, ofParts 6 (-2147483648) = .ok r ∧ r.val.num = -3 ∧ r.val.den = 1073741824 := by
  obtain ⟨-, -, -, odd⟩ := ofParts_frontier 3 (-2147483648)
  obtain ⟨-, -, -, even⟩ := ofParts_frontier 6 (-2147483648)
  refine ⟨(odd (by decide) (by decide)).1.mpr (by decide), ?_⟩
  obtain ⟨escapes, makes⟩ := even (by decide) (by decide)
  obtain ⟨r, made, -, -, -, unique⟩ := makes fun raised => absurd (escapes.mp raised) (by decide)
  obtain ⟨top, bottom⟩ := unique (-3) 1073741824 ⟨by decide, by decide, by decide⟩
  exact ⟨r, made, top.symm, by exact_mod_cast bottom.symm⟩

/-- A one before as many zeros as digits are written is no part, and is refused with a fault of another kind. -/
theorem overlong_part_refused :
    ¬FitsPart (Nat.pow 10 digitLimit : Nat) ∧ ¬Raises .outOfRange (ofParts (Nat.pow 10 digitLimit : Nat) 1) ∧
      Raises .badValue (ofParts (Nat.pow 10 digitLimit : Nat) 1) := by
  have outside := not_fitsPart_of_unwritable unwritable_limit
  have told : ofParts (Nat.pow 10 digitLimit : Nat) 1 = .error .tooLongToWrite := by
    rw [ofParts_of_outside fun fits => outside fits.1, if_neg outside, Fault.showing, List.all_cons, unwritable_limit]
    rfl
  rw [told]
  refine ⟨outside, ?_, ⟨_, rfl, rfl⟩⟩
  rintro ⟨_, ⟨⟩, kind⟩
  cases kind

end Rational32
end Surd
