import Mathlib.Data.List.Basic
import Surd.Text.Cut

/-! Joined texts that are cut again. Where no text holds the first character of the separator, the separator is found
just where it was put. -/

namespace Surd.Text

/-- The pieces of a text between the occurrences of a separator, taken from the front. -/
def cutBetween (separator : List Char) : List Char → List (List Char)
  | [] => [[]]
  | c :: rest =>
    if separator <+: c :: rest then [] :: cutBetween separator (rest.drop (separator.length - 1))
    else (cutBetween separator rest).modifyHead (c :: ·)
termination_by text => text.length
decreasing_by
  · simp only [List.length_drop, List.length_cons]
    omega
  · exact Nat.lt_succ_self rest.length

theorem cutAt_eq_splitOn (mark : Char) (text : List Char) : cutAt mark text = text.splitOn mark := by
  induction text with
  | nil => rfl
  | cons c rest ih =>
    rw [cutAt, List.splitOn, List.splitOnP_cons_eq_if_modifyHead, ← List.splitOn, ← ih]
    by_cases same : c = mark
    · rw [if_pos same, if_pos (beq_iff_eq.mpr same)]
    · rw [if_neg same, if_neg (mt beq_iff_eq.mp same)]
      obtain ⟨first, others, pieces⟩ := List.exists_cons_of_ne_nil (cutAt_ne_nil mark rest)
      rw [pieces, List.modifyHead_cons]

theorem map_ofList_map_toList (texts : List String) : (texts.map String.toList).map String.ofList = texts := by
  rw [List.map_map]
  exact (List.map_congr_left fun text _ => String.ofList_toList).trans (List.map_id texts)

/-- The pieces are made of the characters of the text, without the marks. -/
theorem mem_of_mem_cutAt {mark d : Char} {text piece : List Char} (member : piece ∈ cutAt mark text) (inside : d ∈ piece) :
    d ∈ text ∧ d ≠ mark := by
  induction text generalizing piece with
  | nil =>
    rw [cutAt, List.mem_singleton] at member
    rw [member] at inside
    cases inside
  | cons first rest ih =>
    have later : ∀ {other : List Char}, other ∈ cutAt mark rest → d ∈ other → d ∈ first :: rest ∧ d ≠ mark :=
      fun known held => (ih known held).imp_left (List.mem_cons_of_mem first)
    rw [cutAt] at member
    split at member
    · rcases List.mem_cons.mp member with rfl | behind
      · cases inside
      · exact later behind inside
    · next other =>
      split at member
      · next none => exact absurd none (cutAt_ne_nil mark rest)
      · next head others cut =>
        rw [cut] at later
        rcases List.mem_cons.mp member with rfl | behind
        · rcases List.mem_cons.mp inside with rfl | tail
          · exact ⟨List.mem_cons_self, other⟩
          · exact later List.mem_cons_self tail
        · exact later (List.mem_cons_of_mem head behind) inside

section
variable {mark : Char} {others first : List Char} (absent : mark ∉ first)
include absent

private theorem cutBetween_append (rest : List Char) :
    cutBetween (mark :: others) (first ++ mark :: (others ++ rest)) = first :: cutBetween (mark :: others) rest := by
  induction first with
  | nil =>
    have found : mark :: others <+: mark :: (others ++ rest) := List.cons_prefix_cons.mpr ⟨rfl, List.prefix_append others rest⟩
    rw [List.nil_append, cutBetween, if_pos found]
    exact congrArg (fun behind => [] :: cutBetween (mark :: others) behind) List.drop_left
  | cons c tail ih =>
    rw [List.mem_cons, not_or] at absent
    have other : ¬mark :: others <+: c :: (tail ++ mark :: (others ++ rest)) := fun found =>
      absent.1 (List.cons_prefix_cons.mp found).1
    rw [List.cons_append, cutBetween, if_neg other, ih absent.2, List.modifyHead_cons]

private theorem cutBetween_of_not_mem : cutBetween (mark :: others) first = [first] := by
  induction first with
  | nil => rw [cutBetween]
  | cons c tail ih =>
    rw [List.mem_cons, not_or] at absent
    have other : ¬mark :: others <+: c :: tail := fun found => absent.1 (List.cons_prefix_cons.mp found).1
    rw [cutBetween, if_neg other, ih absent.2, List.modifyHead_cons]

end

section
variable {mark : Char} {between : String} {texts : List String} (given : texts ≠ [])
  (absent : ∀ text ∈ texts, mark ∉ text.toList)
include given absent

theorem cutBetween_intercalate {others : List Char} (opens : between.toList = mark :: others) :
    cutBetween between.toList (between.intercalate texts).toList = texts.map String.toList := by
  rw [opens]
  induction texts with
  | nil => exact absurd rfl given
  | cons text rest ih =>
    have each := List.forall_mem_cons.mp absent
    cases rest with
    | nil =>
      rw [String.intercalate_singleton, cutBetween_of_not_mem each.1]
      rfl
    | cons next later =>
      rw [String.intercalate_cons_cons, String.toList_append, String.toList_append, opens, List.append_assoc,
        List.cons_append, cutBetween_append each.1, ih (List.cons_ne_nil next later) each.2]
      rfl

theorem cutAt_intercalate (single : between.toList = [mark]) :
    cutAt mark (between.intercalate texts).toList = texts.map String.toList := by
  rw [cutAt_eq_splitOn, String.toList_intercalate, single]
  exact List.splitOn_intercalate mark (List.forall_mem_map.mpr absent) (mt List.map_eq_nil_iff.mp given)

end
end Surd.Text
