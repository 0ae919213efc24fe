import Mathlib.Algebra.Group.Nat.Defs
import Mathlib.Data.Nat.Sqrt
import Mathlib.Logic.Function.Iterate
import Surd.FloorRoot

/-! Bisection finds the floor root of every word. Each bracket on the way holds the
root, and a bracket that holds it never closes, so the search can only end between
neighbours. Each halving leaves at most half of the width, so it ends after sixteen. -/

namespace Surd
namespace Bracket

/-- The root of the word is at least the low bound and below the high one. -/
structure Holds (v : Nat) (bracket : Bracket) : Prop where
  low_square_le : bracket.low * bracket.low ≤ v
  lt_high_square : v < bracket.high * bracket.high

theorem Holds.width_pos {v : Nat} {bracket : Bracket} (holds : bracket.Holds v) : 0 < bracket.width := by
  have apart : bracket.low < bracket.high :=
    Nat.mul_self_lt_mul_self_iff.mp (Nat.lt_of_le_of_lt holds.low_square_le holds.lt_high_square)
  unfold width
  omega

theorem holds_start {v : Nat} (above : 2 ≤ v) (word : v ≤ wordMax) : (start v).Holds v := by
  refine ⟨by simp only [start]; omega, ?_⟩
  unfold start
  rcases Nat.le_total v rootBound with small | large
  · rw [Nat.min_eq_left small]
    exact Nat.lt_mul_self_iff.mpr above
  · rw [Nat.min_eq_right large]
    simp only [wordMax] at word
    simp only [rootBound]
    omega

theorem Holds.narrow {v : Nat} {bracket : Bracket} (holds : bracket.Holds v) : (bracket.narrow v).Holds v := by
  unfold Bracket.narrow
  split
  next below => exact ⟨below, holds.lt_high_square⟩
  next above => exact ⟨holds.low_square_le, by simpa using above⟩

theorem Holds.search {v : Nat} {bracket : Bracket} (holds : bracket.Holds v) :
    (Bracket.search v bracket).Holds v ∧ (Bracket.search v bracket).width = 1 := by
  fun_induction Bracket.search v bracket with
  | case1 bracket wide ih => exact ih holds.narrow
  | case2 bracket closed =>
    have apart := holds.width_pos
    exact ⟨holds, by omega⟩

/-- The bracket after a number of halvings, whether or not one of them had neighbours. -/
def course (v steps : Nat) : Bracket := (Bracket.narrow v)^[steps] (.start v)

theorem course_succ (v steps : Nat) : course v (steps + 1) = (course v steps).narrow v :=
  Function.iterate_succ_apply' _ _ _

private theorem holds_course {v : Nat} (above : 2 ≤ v) (word : v ≤ wordMax) (steps : Nat) : (course v steps).Holds v := by
  induction steps with
  | zero => exact holds_start above word
  | succ steps ih =>
    rw [course_succ]
    exact ih.narrow

/-- Bounds around the root are never equal, so that they are neighbours as soon as they are not wide. -/
private theorem Holds.wide_iff {v : Nat} {bracket : Bracket} (holds : bracket.Holds v) :
    1 < bracket.width ↔ bracket.high ≠ bracket.low + 1 := by
  have apart := holds.width_pos
  unfold width at *
  omega

private theorem width_narrow_le (v : Nat) {bracket : Bracket} {half : Nat} (wide : bracket.width ≤ 2 * half) :
    (bracket.narrow v).width ≤ half := by
  unfold Bracket.narrow
  split <;> simp only [width, middle] at * <;> omega

/-- Sixteen halvings close the widest bracket at the start. -/
private theorem width_course_le {v steps : Nat} (few : steps ≤ 16) : (course v steps).width ≤ 2 ^ (16 - steps) := by
  induction steps with
  | zero =>
    change min v rootBound - 1 ≤ 2 ^ 16
    simp only [rootBound]
    omega
  | succ steps ih =>
    rw [course_succ]
    apply width_narrow_le
    have halved : 2 * 2 ^ (16 - (steps + 1)) = 2 ^ (16 - steps) := by
      rw [show 16 - steps = 16 - (steps + 1) + 1 by omega, Nat.pow_succ']
    rw [halved]
    exact ih (by omega)

/-- The search goes through the halvings in their order and ends at the first bracket that is not wide. -/
private theorem exists_search_eq_iterate (v : Nat) (bracket : Bracket) :
    ∃ steps, search v bracket = (Bracket.narrow v)^[steps] bracket ∧
      ∀ earlier < steps, 1 < ((Bracket.narrow v)^[earlier] bracket).width := by
  fun_induction Bracket.search v bracket with
  | case1 bracket wide ih =>
    obtain ⟨steps, same, wider⟩ := ih
    refine ⟨steps + 1, same, fun earlier before => ?_⟩
    cases earlier with
    | zero => exact wide
    | succ earlier => exact wider earlier (by omega)
  | case2 bracket closed => exact ⟨0, rfl, fun earlier before => absurd before (Nat.not_lt_zero earlier)⟩

end Bracket

/-- The square of the floor root is at most the word, and no larger square is. -/
theorem floorRoot_eq_sqrt {v : Nat} (word : v ≤ wordMax) : floorRoot v = Nat.sqrt v := by
  unfold floorRoot
  split
  next small =>
    obtain rfl | rfl : v = 0 ∨ v = 1 := by omega
    · exact Nat.sqrt_zero.symm
    · exact Nat.sqrt_one.symm
  next above =>
    obtain ⟨held, neighbours⟩ := (Bracket.holds_start (by omega) word).search
    apply Nat.eq_sqrt.mpr
    refine ⟨held.low_square_le, ?_⟩
    have high : (Bracket.search v (.start v)).high = (Bracket.search v (.start v)).low + 1 := by
      unfold Bracket.width at neighbours
      omega
    simpa only [high] using held.lt_high_square

theorem floorRoot?_eq_ok {v : Nat} (word : v ≤ wordMax) : floorRoot? v = .ok (floorRoot v) := by
  rw [floorRoot?, checkWord_ofNat _ word]
  rfl

/-- Every integer but a word is refused. -/
theorem floorRoot?_cases (n : Int) :
    0 ≤ n ∧ n ≤ wordMax ∧ floorRoot? n = .ok (floorRoot n.toNat) ∨
      (n < 0 ∨ wordMax < n) ∧ floorRoot? n = .error (.showing [n] (.outsideWord "sqrt_floor argument" n)) := by
  by_cases word : 0 ≤ n ∧ n ≤ wordMax
  · refine .inl ⟨word.1, word.2, ?_⟩
    rw [floorRoot?, checkWord, if_pos word]
    rfl
  · refine .inr ⟨by omega, ?_⟩
    rw [floorRoot?, checkWord, if_neg word, Except.map]

/-- The floor root of a word above one is the low bound of the first bracket whose bounds are neighbours,
which at most sixteen halvings reach. Every bracket on the way holds the root, has bounds that differ, and
is narrower than the one before. -/
theorem floorRoot_bisection {v : Nat} (word : v ≤ wordMax) :
    ∃ root, floorRoot? v = .ok root ∧ root * root ≤ v ∧ v < (root + 1) * (root + 1) ∧
      (2 ≤ v →
        (Bracket.course v 0).low = 1 ∧ (Bracket.course v 0).high = min v 65536 ∧ v < min v 65536 * min v 65536 ∧
        ∃ steps ≤ 16, root = (Bracket.course v steps).low ∧
          (Bracket.course v steps).high = (Bracket.course v steps).low + 1 ∧
          (∀ k < steps, (Bracket.course v k).high ≠ (Bracket.course v k).low + 1 ∧
            (Bracket.course v (k + 1)).width < (Bracket.course v k).width) ∧
          ∀ k ≤ steps, 0 < (Bracket.course v k).width ∧ (Bracket.course v k).low * (Bracket.course v k).low ≤ v ∧
            v < (Bracket.course v k).high * (Bracket.course v k).high) := by
  refine ⟨floorRoot v, floorRoot?_eq_ok word, ?_, ?_, fun above => ?_⟩
  · rw [floorRoot_eq_sqrt word]
    exact Nat.sqrt_le v
  · rw [floorRoot_eq_sqrt word]
    exact Nat.lt_succ_sqrt v
  have holds := Bracket.holds_course above word
  refine ⟨rfl, rfl, (holds 0).lt_high_square, ?_⟩
  obtain ⟨steps, ends, wide⟩ := Bracket.exists_search_eq_iterate v (.start v)
  obtain ⟨-, neighbours⟩ := (Bracket.holds_start above word).search
  change Bracket.search v (.start v) = Bracket.course v steps at ends
  change ∀ earlier < steps, 1 < (Bracket.course v earlier).width at wide
  refine ⟨steps, ?_, ?_, ?_, ?_, ?_⟩
  · -- Were the sixteenth bracket still wide, it would be wider than sixteen halvings leave it.
    by_contra more
    have narrowed := Bracket.width_course_le (v := v) (Nat.le_refl 16)
    have := wide 16 (by omega)
    omega
  · rw [floorRoot, if_neg (by omega), ends]
  · rw [ends] at neighbours
    by_contra apart
    have := (holds steps).wide_iff.mpr apart
    omega
  · intro k before
    refine ⟨(holds k).wide_iff.mp (wide k before), ?_⟩
    rw [Bracket.course_succ]
    exact Bracket.width_narrow_lt v (wide k before)
  · exact fun k _ => ⟨(holds k).width_pos, (holds k).low_square_le, (holds k).lt_high_square⟩

theorem floorRoot_bisection_wordMax : floorRoot? 4294967295 = .ok 65535 ∧ (Bracket.course 4294967295 0).high = 65536 := by
  obtain ⟨root, found, below, above, course⟩ := @floorRoot_bisection 4294967295 (by decide)
  have smaller : root < 65536 := Nat.mul_self_lt_mul_self_iff.mp (by omega)
  have larger : 65535 < root + 1 := Nat.mul_self_lt_mul_self_iff.mp (by omega)
  have same : root = 65535 := by omega
  obtain ⟨-, high, -⟩ := course (by decide)
  exact ⟨same ▸ found, high⟩

end Surd
