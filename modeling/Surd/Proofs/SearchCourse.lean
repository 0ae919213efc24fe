import Surd.Proofs.TableSearch

/-! Search in a table, as a loop that nothing keeps inside the table. Its rules read from a row that goes on
behind the entries, and of which only the entries are known. The loop ends all the same, with the answer of the
table, and every position that it reads is one of the table. -/

namespace Surd.PrimeTable

/-- A row has the entries at their positions, and anything at all behind them. -/
def Continues (row : Nat → Int) (entries : List Int) : Prop :=
  ∀ position n, entries[position]? = some n → row position = n

/-- Bisection between two bounds: the positions that it reads, in their order, and the one that it ends at. -/
inductive Bisection (row : Nat → Int) (n : Int) : Nat → Nat → List Nat → Nat → Prop where
  | closed {low high : Nat} : ¬low + 1 < high → Bisection row n low high [] low
  | lower {low high found : Nat} {reads : List Nat} : low + 1 < high → n < row ((low + high) / 2) →
      Bisection row n low ((low + high) / 2) reads found → Bisection row n low high ((low + high) / 2 :: reads) found
  | upper {low high found : Nat} {reads : List Nat} : low + 1 < high → row ((low + high) / 2) ≤ n →
      Bisection row n ((low + high) / 2) high reads found → Bisection row n low high ((low + high) / 2 :: reads) found

/-- A search among so many entries: the positions that it reads, in their order, and its answer. -/
inductive Lookup (row : Nat → Int) (size : Nat) (n : Int) : List Nat → Option Nat → Prop where
  | last : n = row (size - 1) → Lookup row size n [size - 1] (some (size - 1))
  | beyond : row (size - 1) < n → Lookup row size n [size - 1] none
  | small : n < row (size - 1) → n ≤ 1 → Lookup row size n [size - 1] none
  | found {reads : List Nat} {position : Nat} : n < row (size - 1) → 1 < n → Bisection row n 0 (size - 1) reads position →
      row position = n → Lookup row size n ((size - 1) :: (reads ++ [position])) (some position)
  | missed {reads : List Nat} {position : Nat} : n < row (size - 1) → 1 < n → Bisection row n 0 (size - 1) reads position →
      row position ≠ n → Lookup row size n ((size - 1) :: (reads ++ [position])) none

namespace Bisection
variable {row : Nat → Int} {n : Int} {low high found : Nat} {reads : List Nat}

/-- Only positions below the high bound are read, whatever the row holds there. -/
theorem inside (bisection : Bisection row n low high reads found) (ordered : low ≤ high) :
    (∀ position ∈ reads, position < high) ∧ found ≤ high := by
  induction bisection with
  | closed => exact ⟨fun position member => absurd member List.not_mem_nil, ordered⟩
  | lower wide _ _ ih =>
    obtain ⟨others, last⟩ := ih (by omega)
    refine ⟨List.forall_mem_cons.mpr ⟨by omega, fun position member => ?_⟩, by omega⟩
    have := others position member
    omega
  | upper wide _ _ ih =>
    obtain ⟨others, last⟩ := ih (by omega)
    exact ⟨List.forall_mem_cons.mpr ⟨by omega, others⟩, last⟩

theorem found_lt {size : Nat} (bisection : Bisection row n 0 (size - 1) reads found) (nonempty : 0 < size) :
    found < size := by
  have := bisection.inside (Nat.zero_le _)
  omega

end Bisection

section
variable {row : Nat → Int} {entries : Array Int} (continues : Continues row entries.toList) {n : Int} {low high : Nat}
include continues

theorem Continues.eq_getElem {position : Nat} (inside : position < entries.size) : row position = entries[position] :=
  continues position _ (by rw [Array.getElem?_toList, Array.getElem?_eq_getElem inside])

theorem Continues.getElem?_eq_some_iff {position : Nat} (inside : position < entries.size) :
    entries[position]? = some n ↔ row position = n := by
  rw [Array.getElem?_eq_getElem inside, Option.some.injEq, continues.eq_getElem inside]

/-- Wherever bisection ends, the table ends its own there. -/
theorem Bisection.eq_search {reads : List Nat} {found : Nat} (bisection : Bisection row n low high reads found)
    (inside : high < entries.size) : found = search entries n low high inside := by
  induction bisection with
  | closed narrow => rw [search, dif_neg narrow]
  | @lower low high found reads wide less _ ih =>
    have middle : (low + high) / 2 < entries.size := by omega
    rw [continues.eq_getElem middle] at less
    rw [search, dif_pos wide]
    dsimp only
    rw [if_pos less]
    exact ih (by omega)
  | @upper low high found reads wide most _ ih =>
    have middle : (low + high) / 2 < entries.size := by omega
    rw [continues.eq_getElem middle] at most
    rw [search, dif_pos wide]
    dsimp only
    rw [if_neg (Int.not_lt.mpr most)]
    exact ih inside

private theorem exists_bisection_search (n : Int) (low : Nat) (inside : high < entries.size) :
    ∃ reads, Bisection row n low high reads (search entries n low high inside) := by
  fun_induction search entries n low high inside with
  | case1 low high inside wide middle below ih =>
    obtain ⟨reads, bisection⟩ := ih
    rw [← continues.eq_getElem] at below
    exact ⟨_, .lower wide below bisection⟩
  | case2 low high inside wide middle above ih =>
    obtain ⟨reads, bisection⟩ := ih
    rw [← continues.eq_getElem] at above
    exact ⟨_, .upper wide (Int.not_lt.mp above) bisection⟩
  | case3 low high inside narrow => exact ⟨[], .closed narrow⟩

end

namespace Lookup
variable {row : Nat → Int} {n : Int} {reads : List Nat} {answer : Option Nat}

theorem inside {size : Nat} (lookup : Lookup row size n reads answer) (nonempty : 0 < size) :
    ∀ position ∈ reads, position < size := by
  have first : size - 1 < size := by omega
  cases lookup with
  | last | beyond | small => exact List.forall_mem_singleton.mpr first
  | found _ _ bisection _ | missed _ _ bisection _ =>
    refine List.forall_mem_cons.mpr ⟨first, List.forall_mem_append.mpr ⟨fun position member => ?_, ?_⟩⟩
    · exact Nat.lt_trans ((bisection.inside (Nat.zero_le _)).1 position member) first
    · exact List.forall_mem_singleton.mpr (bisection.found_lt nonempty)

end Lookup

section
variable {row : Nat → Int} {table : PrimeTable} (continues : Continues row table.entries.toList) {n : Int}
include continues

theorem Continues.eq_largest : row (table.entries.size - 1) = table.largest :=
  have := table.nonempty
  continues.eq_getElem (by omega)

/-- Wherever the loop comes to an end, it answers as the table does. -/
theorem Lookup.eq_index? {reads : List Nat} {answer : Option Nat} (lookup : Lookup row table.entries.size n reads answer) :
    answer = table.index? n := by
  have nonempty := table.nonempty
  have largest := continues.eq_largest
  unfold index?
  dsimp only
  cases lookup with
  | last same => rw [if_pos (by omega), if_pos (by omega)]
  | beyond more => rw [if_pos (by omega), if_neg (by omega)]
  | small less unit => rw [if_neg (by omega), if_pos unit]
  | @found reads position less above bisection held =>
    have within := bisection.found_lt nonempty
    rw [if_neg (by omega), if_neg (by omega), ← bisection.eq_search continues (by omega),
      if_pos ((continues.getElem?_eq_some_iff within).mpr held)]
  | @missed reads position less above bisection other =>
    have within := bisection.found_lt nonempty
    rw [if_neg (by omega), if_neg (by omega), ← bisection.eq_search continues (by omega),
      if_neg fun held => other ((continues.getElem?_eq_some_iff within).mp held)]

/-- The loop comes to an end for every number. -/
theorem exists_lookup_index? (n : Int) : ∃ reads, Lookup row table.entries.size n reads (table.index? n) := by
  have nonempty := table.nonempty
  have largest := continues.eq_largest
  have last : table.entries.size - 1 < table.entries.size := by omega
  obtain ⟨reads, bisection⟩ := exists_bisection_search continues n 0 last
  have within := bisection.found_lt nonempty
  unfold index?
  dsimp only
  split
  next most =>
    split
    next same => exact ⟨_, .last (by omega)⟩
    next other => exact ⟨_, .beyond (by omega)⟩
  next less =>
    split
    next unit => exact ⟨_, .small (by omega) unit⟩
    next above =>
      split
      next held => exact ⟨_, .found (by omega) (by omega) bisection ((continues.getElem?_eq_some_iff within).mp held)⟩
      next other =>
        exact ⟨_, .missed (by omega) (by omega) bisection fun held =>
          other ((continues.getElem?_eq_some_iff within).mpr held)⟩

end

/-- Above one, a table of any ascending integers finds a number where it stands among them, and nowhere
else. Its search comes to an end and reads no position outside, whatever is behind the entries. -/
theorem index?_finds {entries : List Int} {bound : Option Int} {table : PrimeTable}
    (accepted : ofList? entries bound = .ok table) {n : Int} (above : 2 ≤ n) :
    (∀ position, table.index? n = some position ↔ entries[position]? = some n) ∧
      (table.index? n = none ↔ n ∉ entries) ∧
      ∀ row, Continues row entries →
        (∀ answer, (∃ reads, Lookup row entries.length n reads answer) ↔ answer = table.index? n) ∧
          ∀ reads answer, Lookup row entries.length n reads answer → ∀ position ∈ reads, position < entries.length := by
  obtain rfl := toList_entries accepted
  simp only [Array.getElem?_toList, Array.length_toList]
  refine ⟨fun position => table.index?_eq_some_iff above, ?_, fun row continues => ⟨fun answer => ⟨?_, ?_⟩, ?_⟩⟩
  · rw [Array.mem_toList_iff, ← table.isSome_index?_iff above, Bool.not_eq_true, Option.isSome_eq_false_iff,
      Option.isNone_iff_eq_none]
  · rintro ⟨reads, lookup⟩
    exact lookup.eq_index? continues
  · rintro rfl
    exact exists_lookup_index? continues n
  · exact fun reads answer lookup => lookup.inside table.nonempty

/-- In a table of two, a number below both entries is compared with each and not found. Behind them the row
goes on with zeros, which are not read. -/
theorem index?_finds_in_two :
    ∃ table, ofList? [5, 7] none = .ok table ∧ table.index? 5 = some 0 ∧ table.index? 3 = none ∧
      ∃ reads, Lookup (fun position => [5, 7].getD position 0) 2 3 reads none ∧ ∀ position ∈ reads, position < 2 := by
  obtain ⟨table, accepted⟩ : ∃ table, ofList? [5, 7] none = .ok table := ⟨_, rfl⟩
  obtain ⟨first, -, -⟩ := index?_finds accepted (n := 5) (by decide)
  obtain ⟨-, missing, search⟩ := index?_finds accepted (n := 3) (by decide)
  have continues : Continues (fun position => [5, 7].getD position 0) [5, 7] := by
    intro position n held
    dsimp only
    rw [List.getD_eq_getElem?_getD, held]
    rfl
  obtain ⟨ends, inside⟩ := search _ continues
  have absent : table.index? 3 = none := missing.mpr (by decide)
  obtain ⟨reads, lookup⟩ := (ends none).mpr absent.symm
  exact ⟨table, accepted, (first 0).mpr rfl, absent, reads, lookup, inside reads none lookup⟩

end Surd.PrimeTable
