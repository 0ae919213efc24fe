import Surd.Proofs.CommandAnswers
import Surd.Proofs.DecimalTexts
import Surd.Proofs.TextCuts

/-! How a table of numbers is laid out. Its words, read between blanks, are the numbers as they were
given, since padding adds blanks only and rows are cut between numbers. Every line but the last is full. -/

namespace Surd
namespace Text

/-- The words of a text: what stands between blanks. -/
def words (text : List Char) : List (List Char) := (text.splitOnP isBlank).filter fun word => !word.isEmpty

theorem words_nil : words [] = [] := by
  rw [words, List.splitOnP_nil]
  rfl

/-- A blank separates the words before it from those behind it. -/
theorem words_append_blank {mark : Char} (blank : isBlank mark = true) (first second : List Char) :
    words (first ++ mark :: second) = words first ++ words second := by
  rw [words, List.splitOnP_append_cons _ _ blank, List.filter_append]
  rfl

private theorem words_indented (count : Nat) (text : List Char) : words (List.replicate count ' ' ++ text) = words text := by
  induction count with
  | zero => rfl
  | succ count ih =>
    have step : List.replicate (count + 1) ' ' ++ text = [] ++ ' ' :: (List.replicate count ' ' ++ text) := rfl
    rw [step, words_append_blank (by decide), words_nil, List.nil_append, ih]

private theorem words_solid {text : List Char} (solid : ∀ c ∈ text, isBlank c = false) (proper : text ≠ []) :
    words text = [text] := by
  rw [words, List.splitOnP_eq_singleton solid]
  apply List.filter_eq_self.mpr
  intro word member
  rw [List.mem_singleton.mp member, List.isEmpty_eq_false_iff.mpr proper]
  rfl

private theorem words_nat (n : Nat) : words (toString n).toList = [(toString n).toList] := by
  apply words_solid
  · exact fun c member => not_isBlank_of_plain (plain_int n c member)
  · rw [toList_nat]
    exact Nat.toDigits_ne_nil

theorem toList_pushn (text : String) (filler : Char) (count : Nat) :
    (text.pushn filler count).toList = text.toList ++ List.replicate count filler := by
  rw [String.pushn_eq_repeat_push]
  induction count with
  | zero => exact (List.append_nil _).symm
  | succ count ih => rw [Nat.repeat, String.toList_push, ih, List.append_assoc, List.replicate_succ']

theorem words_intercalate {mark : Char} {between : String} (single : between.toList = [mark])
    (blank : isBlank mark = true) (texts : List String) :
    words (between.intercalate texts).toList = texts.flatMap fun text => words text.toList := by
  induction texts with
  | nil => exact words_nil
  | cons text rest ih =>
    cases rest with
    | nil => rw [String.intercalate_singleton, List.flatMap_cons, List.flatMap_nil, List.append_nil]
    | cons next others =>
      rw [String.intercalate_cons_cons, String.toList_append, String.toList_append, single, List.append_assoc,
        List.singleton_append, words_append_blank blank, ih]
      rfl

end Text

namespace Listing
open Text

section
variable {α : Type} {length : Nat} (positive : 0 < length) (items : List α)
include positive

theorem flatten_rows : (rows length items).flatten = items := by
  induction items using rows.induct length with
  | case1 => rw [rows, List.flatten_nil]
  | case2 first rest zero => exact absurd zero (Nat.ne_of_gt positive)
  | case3 first rest nonzero ih =>
    rw [rows, if_neg nonzero, List.flatten_cons, ih, List.cons_append, List.take_append_drop]

/-- There are as many rows as are needed, the last one counted whole. -/
theorem length_rows : (rows length items).length = (items.length + length - 1) / length := by
  induction items using rows.induct length with
  | case1 =>
    rw [rows, List.length_nil, List.length_nil, Nat.zero_add, Nat.div_eq_of_lt (Nat.sub_lt positive Nat.one_pos)]
  | case2 first rest zero => exact absurd zero (Nat.ne_of_gt positive)
  | case3 first rest nonzero ih =>
    have whole : (first :: rest).length + length - 1 = rest.length + length := by
      rw [List.length_cons]
      omega
    rw [rows, if_neg nonzero, List.length_cons, ih, List.length_drop, whole, Nat.add_div_right _ positive]
    by_cases enough : length - 1 ≤ rest.length
    · rw [Nat.add_sub_assoc positive, Nat.sub_add_cancel enough]
    · have none : rest.length - (length - 1) = 0 := by omega
      have short : rest.length < length := by omega
      rw [none, Nat.zero_add, Nat.div_eq_of_lt (Nat.sub_lt positive Nat.one_pos), Nat.div_eq_of_lt short]

theorem length_of_mem_rows : ∀ row ∈ rows length items, 1 ≤ row.length ∧ row.length ≤ length := by
  induction items using rows.induct length with
  | case1 =>
    rw [rows]
    exact fun row member => by cases member
  | case2 first rest zero => exact absurd zero (Nat.ne_of_gt positive)
  | case3 first rest nonzero ih =>
    rw [rows, if_neg nonzero, List.forall_mem_cons, List.length_cons, List.length_take]
    exact ⟨by omega, ih⟩

/-- Only the last row may have room left. -/
theorem length_of_mem_dropLast_rows : ∀ row ∈ (rows length items).dropLast, row.length = length := by
  induction items using rows.induct length with
  | case1 =>
    rw [rows]
    exact fun row member => by cases member
  | case2 first rest zero => exact absurd zero (Nat.ne_of_gt positive)
  | case3 first rest nonzero ih =>
    rw [rows, if_neg nonzero]
    cases behind : rows length (rest.drop (length - 1)) with
    | nil => exact fun row member => by cases member
    | cons next others =>
      rw [behind] at ih
      have enough : length - 1 ≤ rest.length := by
        apply Nat.le_of_not_lt
        intro short
        rw [List.drop_eq_nil_of_le (by omega), rows] at behind
        cases behind
      refine List.forall_mem_cons.mpr ⟨?_, ih⟩
      rw [List.length_cons, List.length_take]
      omega

end

private theorem words_cell {text : String} (word : words text.toList = [text.toList]) (width : Nat) :
    words (cell width text).toList = [text.toList] := by
  rw [cell, String.toList_append, toList_pushn]
  exact (words_indented _ _).trans word

def rowText (width : Nat) (row : List String) : String := " ".intercalate (row.map (cell width))

section
variable {texts : List String} (solid : ∀ text ∈ texts, words text.toList = [text.toList])
include solid

theorem words_rowText (width : Nat) : words (rowText width texts).toList = texts.map String.toList := by
  rw [rowText, words_intercalate rfl (by decide), List.flatMap_map]
  induction texts with
  | nil => rfl
  | cons text rest ih =>
    have each := List.forall_mem_cons.mp solid
    rw [List.flatMap_cons, words_cell each.1, ih each.2]
    rfl

end

private theorem lacks_rowText {c : Char} (control : Control c) {texts : List String} (each : ∀ text ∈ texts, Lacks c text)
    (width : Nat) : Lacks c (rowText width texts) := by
  refine Lacks.intercalate (control.lacks rfl) fun padded member => ?_
  obtain ⟨text, inside, rfl⟩ := List.mem_map.mp member
  exact lacks_append.mpr ⟨lacks_empty.pushn (control.ne (by decide)) _, each text inside⟩

section
variable {texts : List String} {perRow : Nat} (positive : 0 < perRow)
include positive

private theorem words_grid (solid : ∀ text ∈ texts, words text.toList = [text.toList]) (width : Nat) :
    words (grid width perRow texts).toList = texts.map String.toList := by
  have each : ∀ row ∈ rows perRow texts, words (rowText width row).toList = row.map String.toList := fun row inside =>
    words_rowText (fun text member => solid text (mem_of_mem_rows inside member)) width
  rw [grid, words_intercalate rfl (by decide), List.flatMap_map]
  calc (rows perRow texts).flatMap (fun row => words (rowText width row).toList)
      = (rows perRow texts).flatMap (List.map String.toList) := by
        rw [List.flatMap_def, List.flatMap_def, List.map_congr_left each]
    _ = (rows perRow texts).flatten.map String.toList := by rw [List.map_flatten, List.flatMap_def]
    _ = texts.map String.toList := by rw [flatten_rows positive]

/-- The lines of a grid are its rows. -/
theorem lines_grid (lineEnds : ∀ text ∈ texts, Lacks '\n' text) (given : texts ≠ []) (width : Nat) :
    cutAt '\n' (grid width perRow texts).toList = (rows perRow texts).map fun row => (rowText width row).toList := by
  have some : (rows perRow texts).map (rowText width) ≠ [] := by
    intro none
    have flat := flatten_rows positive texts
    rw [List.map_eq_nil_iff.mp none] at flat
    exact given flat.symm
  have absent : ∀ line ∈ (rows perRow texts).map (rowText width), '\n' ∉ line.toList := by
    intro line member
    obtain ⟨row, inside, rfl⟩ := List.mem_map.mp member
    exact lacks_rowText control_lineEnd (fun text member => lineEnds text (mem_of_mem_rows inside member)) width
  have lines : cutAt '\n' (grid width perRow texts).toList = _ := cutAt_intercalate some absent rfl
  rw [lines, List.map_map]
  rfl

end

theorem lacks_lineEnd_of_mem {numbers : List Nat} : ∀ text ∈ numbers.map toString, Lacks '\n' text := by
  intro text member
  obtain ⟨n, -, rfl⟩ := List.mem_map.mp member
  exact control_lineEnd.lacks_nat n

theorem table_eq_grid {numbers : List Nat} (given : numbers ≠ []) (perRow : Nat) :
    table (numbers.map Int.ofNat) perRow = grid (toString (numbers.getLast given)).length perRow (numbers.map toString) := by
  rw [table, List.getLast?_map, List.getLast?_eq_some_getLast given, List.map_map]
  rfl

/-- A table of numbers: its words are the texts of the numbers in their order, every line but the last is
full, and the last one is not empty. -/
theorem table_layout {numbers : List Nat} (given : numbers ≠ []) {perRow : Nat} (positive : 0 < perRow) :
    let text := (table (numbers.map Int.ofNat) perRow).toList
    words text = numbers.map (fun n => (toString n).toList) ∧
      (∀ line ∈ (cutAt '\n' text).dropLast, (words line).length = perRow) ∧
      ∀ line ∈ cutAt '\n' text, 1 ≤ (words line).length ∧ (words line).length ≤ perRow := by
  have same := table_eq_grid given perRow
  generalize (toString (numbers.getLast given)).length = width at same
  have solid : ∀ text ∈ numbers.map toString, words text.toList = [text.toList] := by
    intro text member
    obtain ⟨n, -, rfl⟩ := List.mem_map.mp member
    exact words_nat n
  have some : numbers.map toString ≠ [] := fun none => given (List.map_eq_nil_iff.mp none)
  have lines : (cutAt '\n' (grid width perRow (numbers.map toString)).toList).map words =
      (rows perRow (numbers.map toString)).map (List.map String.toList) := by
    rw [lines_grid positive lacks_lineEnd_of_mem some width, List.map_map]
    apply List.map_congr_left
    exact fun row inside => words_rowText (fun text member => solid text (mem_of_mem_rows inside member)) width
  have others := congrArg List.dropLast lines
  rw [← List.map_dropLast, ← List.map_dropLast] at others
  have lengths : ∀ {written : List (List Char)} {given : List (List String)},
      written.map words = given.map (List.map String.toList) →
        ∀ line ∈ written, ∃ row ∈ given, (words line).length = row.length := by
    intro written given equal line member
    obtain ⟨row, inside, same⟩ := List.mem_map.mp (equal ▸ List.mem_map_of_mem member)
    exact ⟨row, inside, by rw [← same, List.length_map]⟩
  rw [same]
  refine ⟨?_, ?_, ?_⟩
  · rw [words_grid positive solid, List.map_map]
    rfl
  · intro line member
    obtain ⟨row, inside, length⟩ := lengths others line member
    rw [length]
    exact length_of_mem_dropLast_rows positive _ row inside
  · intro line member
    obtain ⟨row, inside, length⟩ := lengths lines line member
    rw [length]
    exact length_of_mem_rows positive _ row inside

end Listing
end Surd
