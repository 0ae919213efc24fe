import Mathlib.Data.List.Pairwise
import Surd.Proofs.ExactOperands
import Surd.Proofs.TableLayout

/-! The columns of a table of numbers. In ascending order the last number is the widest, so that every cell is as wide
as its text and a column stands at one place in all lines. Cut at these places, the lines give the numbers back. -/

namespace Surd
namespace Text

/-- What stands in a column, where a column takes a cell and one blank. -/
def cellAt (width : Nat) (line : List Char) (column : Nat) : List Char := (line.drop (column * (width + 1))).take width

/-- The cells of a line, as many as it has room for. -/
def cells (width : Nat) (line : List Char) : List (List Char) :=
  (List.range ((line.length + 1) / (width + 1))).map (cellAt width line)

section
variable {width : Nat} {pieces : List (List Char)}

private theorem length_intercalate (given : pieces ≠ []) (wide : ∀ piece ∈ pieces, piece.length = width) :
    ([' '].intercalate pieces).length + 1 = pieces.length * (width + 1) := by
  induction pieces with
  | nil => exact absurd rfl given
  | cons piece rest ih =>
    have each := List.forall_mem_cons.mp wide
    cases rest with
    | nil =>
      rw [List.intercalate_singleton, each.1, List.length_singleton, Nat.one_mul]
    | cons next others =>
      have behind := ih (List.cons_ne_nil next others) each.2
      have whole : (piece :: next :: others).length * (width + 1) = (next :: others).length * (width + 1) + (width + 1) :=
        Nat.succ_mul _ _
      rw [List.intercalate_cons_cons, List.length_append, List.length_append, List.length_singleton, each.1, whole, ← behind]
      omega

private theorem cellAt_intercalate (wide : ∀ piece ∈ pieces, piece.length = width) {column : Nat} (inside : column < pieces.length) :
    cellAt width ([' '].intercalate pieces) column = pieces[column] := by
  induction pieces generalizing column with
  | nil => cases inside
  | cons piece rest ih =>
    obtain ⟨length, others⟩ := List.forall_mem_cons.mp wide
    cases column with
    | zero =>
      rw [cellAt, Nat.zero_mul, List.drop_zero, List.getElem_cons_zero]
      cases rest with
      | nil => rw [List.intercalate_singleton, List.take_of_length_le (Nat.le_of_eq length)]
      | cons next later => rw [List.intercalate_cons_cons, List.append_assoc, List.take_left' length]
    | succ column =>
      have further : column < rest.length := Nat.lt_of_succ_lt_succ inside
      have given : rest ≠ [] := List.ne_nil_of_length_pos (Nat.zero_lt_of_lt further)
      have taken : (piece ++ [' ']).length = width + 1 := by rw [List.length_append, List.length_singleton, length]
      rw [List.getElem_cons_succ, ← ih others further, cellAt, cellAt, List.intercalate_cons_of_ne_nil given,
        Nat.succ_mul, Nat.add_comm, ← List.drop_drop, List.drop_left' taken]

private theorem cells_intercalate (given : pieces ≠ []) (wide : ∀ piece ∈ pieces, piece.length = width) :
    cells width ([' '].intercalate pieces) = pieces := by
  have count : (([' '].intercalate pieces).length + 1) / (width + 1) = pieces.length := by
    rw [length_intercalate given wide, Nat.mul_div_cancel _ (Nat.succ_pos width)]
  apply List.ext_getElem
  · rw [cells, List.length_map, List.length_range, count]
  · intro column _ inside
    rw [← cellAt_intercalate wide inside]
    simp only [cells, List.getElem_map, List.getElem_range]

end
end Text

namespace Listing
open Text

theorem toList_cell (width : Nat) (text : String) :
    (cell width text).toList = List.replicate (width - text.length) ' ' ++ text.toList := by
  rw [cell, String.toList_append, toList_pushn]
  rfl

section
variable {width : Nat} {text : String}

private theorem length_cell (fits : text.length ≤ width) : (cell width text).toList.length = width := by
  rw [toList_cell, List.length_append, List.length_replicate, String.length_toList, Nat.sub_add_cancel fits]

private theorem strip_cell (trimmed : Trimmed text.toList) : strip (cell width text).toList = text.toList := by
  refine strip_eq_iff.mpr ⟨_, [], (toList_cell width text).trans (List.append_nil _).symm, ?_, .nil, trimmed⟩
  intro c member
  rw [List.eq_of_mem_replicate member]
  rfl

end

theorem toList_rowText (width : Nat) (row : List String) :
    (rowText width row).toList = [' '].intercalate (row.map fun text => (cell width text).toList) := by
  rw [rowText, String.toList_intercalate, List.map_map]
  rfl

section
variable {width : Nat} {row : List String} (fits : ∀ text ∈ row, text.length ≤ width)
include fits

theorem length_of_mem_cells : ∀ piece ∈ row.map (fun text => (cell width text).toList), piece.length = width :=
  List.forall_mem_map.mpr fun text member => length_cell (fits text member)

/-- The cells of a row are read where its texts were put. -/
theorem cells_rowText (given : row ≠ []) :
    cells width (rowText width row).toList = row.map fun text => (cell width text).toList := by
  rw [toList_rowText]
  exact cells_intercalate (fun none => given (List.map_eq_nil_iff.mp none)) (length_of_mem_cells fits)

end

theorem length_nat_mono {m n : Nat} (le : m ≤ n) : (toString m).length ≤ (toString n).length := by
  rw [← String.length_toList, ← String.length_toList, toList_nat, toList_nat]
  exact length_toDigits_mono le

private theorem read_cell (width n : Nat) : decimal? (strip (cell width (toString n)).toList) = some n := by
  have plain : ∀ c ∈ (toString n).toList, isPlain c = true := plain_int n
  rw [strip_cell (trimmed_of_plain plain), decimal?_nat]

theorem read_cells (width : Nat) (numbers : List Nat) :
    ((numbers.map toString).map fun text => (cell width text).toList).map (fun cell => decimal? (strip cell)) =
      numbers.map some := by
  rw [List.map_map, List.map_map]
  apply List.map_congr_left
  intro n _
  simp only [Function.comp_apply, read_cell]

/-- The last number decides for all whether they can be written. -/
theorem tableText_ascending {numbers : List Nat} (given : numbers ≠ []) (ascending : numbers.Pairwise (· ≤ ·)) {perRow : Nat}
    (positive : 1 ≤ perRow) :
    Calculator.tableText (.list (numbers.map fun n : Nat => .int n)) (.int perRow) =
      if hasWritableLength (numbers.getLast given) then
        .ok (grid (toString (numbers.getLast given)).length perRow (numbers.map toString))
      else .error .tooLongToWrite := by
  have same := Calculator.tableText_eq (numbers.map Int.ofNat) (Int.ofNat_le.mpr positive)
  have decides : (numbers.map Int.ofNat).all hasWritableLength = hasWritableLength (numbers.getLast given) := by
    rw [Bool.eq_iff_iff, List.all_eq_true, List.forall_mem_map]
    constructor
    · exact fun each => each _ (List.getLast_mem given)
    · exact fun writable n member => writable_of_le (ascending.rel_getLast member) writable
  rw [List.map_map, decides] at same
  rw [← table_eq_grid given]
  exact same

/-- Without a number of too many digits at its end, a table of numbers in ascending order has as many lines as are
needed, all but the last full. A line holds nothing but its cells and blanks between them, and all cells are as wide as
the last number. Read from line to line, they are the numbers. A last number of too many digits is not written. -/
theorem table_columns {numbers : List Nat} (given : numbers ≠ []) (ascending : numbers.Pairwise (· ≤ ·)) {perRow : Nat}
    (positive : 1 ≤ perRow) :
    (hasWritableLength (numbers.getLast given) = true →
      ∃ text, Calculator.tableText (.list (numbers.map fun n : Nat => .int n)) (.int perRow) = .ok text ∧
        let lines := cutAt '\n' text.toList
        let width := (toString (numbers.getLast given)).length
        lines.length = (numbers.length + perRow - 1) / perRow ∧
          (∀ line ∈ lines.dropLast, (cells width line).length = perRow) ∧
          (∀ line ∈ lines, 1 ≤ (cells width line).length ∧ (cells width line).length ≤ perRow) ∧
          (∀ line ∈ lines, [' '].intercalate (cells width line) = line ∧ ∀ cell ∈ cells width line, cell.length = width) ∧
          (lines.flatMap (cells width)).map (fun cell => decimal? (strip cell)) = numbers.map some) ∧
      (hasWritableLength (numbers.getLast given) = false →
        Calculator.tableText (.list (numbers.map fun n : Nat => .int n)) (.int perRow) = .error .tooLongToWrite) := by
  have table := tableText_ascending given ascending positive
  have unwritten : hasWritableLength (numbers.getLast given) = false →
      Calculator.tableText (.list (numbers.map fun n : Nat => .int n)) (.int perRow) = .error .tooLongToWrite := by
    intro long
    rw [table, long]
    rfl
  refine ⟨fun short => ?_, unwritten⟩
  rw [short] at table
  refine ⟨_, table.trans (if_pos rfl), ?_⟩
  intro lines width
  have some : numbers.map toString ≠ [] := fun none => given (List.map_eq_nil_iff.mp none)
  have fits : ∀ row ∈ rows perRow (numbers.map toString), ∀ text ∈ row, text.length ≤ width := by
    intro row inside text member
    obtain ⟨n, listed, rfl⟩ := List.mem_map.mp (mem_of_mem_rows inside member)
    exact length_nat_mono (ascending.rel_getLast listed)
  have lengths := length_of_mem_rows positive (numbers.map toString)
  have read : ∀ row ∈ rows perRow (numbers.map toString),
      cells width (rowText width row).toList = row.map fun text => (cell width text).toList := fun row inside =>
    cells_rowText (fits row inside) (List.ne_nil_of_length_pos (lengths row inside).1)
  have rowed : lines = (rows perRow (numbers.map toString)).map fun row => (rowText width row).toList :=
    lines_grid positive lacks_lineEnd_of_mem some width
  rw [rowed, ← List.map_dropLast]
  simp only [List.forall_mem_map]
  refine ⟨?_, ?_, ?_, ?_, ?_⟩
  · rw [List.length_map, length_rows positive, List.length_map]
  · intro row inside
    rw [read row (List.mem_of_mem_dropLast inside), List.length_map]
    exact length_of_mem_dropLast_rows positive _ row inside
  · intro row inside
    rw [read row inside, List.length_map]
    exact lengths row inside
  · intro row inside
    rw [read row inside]
    exact ⟨(toList_rowText width row).symm, length_of_mem_cells (fits row inside)⟩
  · have whole : ((rows perRow (numbers.map toString)).map fun row => (rowText width row).toList).flatMap (cells width) =
        (numbers.map toString).map fun text => (cell width text).toList := by
      calc _ = (rows perRow (numbers.map toString)).flatMap (List.map fun text => (cell width text).toList) := by
            rw [List.flatMap_map, List.flatMap_def, List.flatMap_def, List.map_congr_left read]
        _ = (rows perRow (numbers.map toString)).flatten.map (fun text => (cell width text).toList) := by
            rw [List.map_flatten, List.flatMap_def]
        _ = _ := by rw [flatten_rows positive]
    rw [whole, read_cells]

/-- Five numbers of two widths, in rows of three. -/
theorem table_columns_ragged :
    ∃ text, Calculator.tableText (.list ([2, 3, 5, 7, 11].map fun n : Nat => .int n)) (.int (3 : Nat)) = .ok text ∧
      (cutAt '\n' text.toList).length = 2 ∧ (∀ line ∈ (cutAt '\n' text.toList).dropLast, (cells 2 line).length = 3) ∧
      ((cutAt '\n' text.toList).flatMap (cells 2)).map (fun cell => decimal? (strip cell)) = [2, 3, 5, 7, 11].map some := by
  have ascending : [2, 3, 5, 7, 11].Pairwise (· ≤ ·) := by decide
  obtain ⟨text, table, count, full, -, -, whole⟩ :=
    (table_columns (List.cons_ne_nil _ _) ascending (show 1 ≤ 3 by decide)).1 (writable_of_small (by decide))
  exact ⟨text, table, count, full, whole⟩

/-- The smallest number with too many digits has no table, not even alone. -/
theorem table_unwritten :
    ¬∃ text, Calculator.tableText (.list ([Nat.pow 10 digitLimit].map fun n : Nat => .int n)) (.int (1 : Nat)) = .ok text := by
  rintro ⟨text, table⟩
  rw [tableText_ascending (List.cons_ne_nil _ _) (List.pairwise_singleton _ _) (Nat.le_refl 1), List.getLast_singleton,
    unwritable_limit] at table
  cases table

end Listing
end Surd
