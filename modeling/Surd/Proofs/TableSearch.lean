import Surd.PrimeTable

/-! Search in a table. Bisection keeps every position of the number between its bounds,
so it ends at the position of the number if the table has one. -/

namespace Surd.PrimeTable

theorem toList_entries {entries : List Int} {bound : Option Int} {table : PrimeTable} (accepted : ofList? entries bound = .ok table) :
    table.entries.toList = entries := by
  unfold ofList? at accepted
  dsimp only at accepted
  split at accepted
  · split at accepted
    · cases accepted
    · split at accepted
      · cases accepted
      · split at accepted
        · cases accepted
          exact List.toList_toArray
        · cases accepted
  · cases accepted

private theorem entry_lt {entries : Array Int} (ascending : entries.toList.Pairwise (· < ·)) {i j : Nat} {a b : Int}
    (first : entries[i]? = some a) (last : entries[j]? = some b) (before : i < j) : a < b := by
  obtain ⟨insideI, rfl⟩ := Array.getElem?_eq_some_iff.mp first
  obtain ⟨insideJ, rfl⟩ := Array.getElem?_eq_some_iff.mp last
  exact List.pairwise_iff_getElem.mp ascending i j insideI insideJ before

private theorem position_unique {entries : Array Int} (ascending : entries.toList.Pairwise (· < ·)) {i j : Nat} {n : Int}
    (first : entries[i]? = some n) (last : entries[j]? = some n) : i = j := by
  rcases Nat.lt_trichotomy i j with before | same | after
  · exact absurd (entry_lt ascending first last before) (Int.lt_irrefl n)
  · exact same
  · exact absurd (entry_lt ascending last first after) (Int.lt_irrefl n)

/-- Every position of the number is at least the low bound and below the high one. -/
def Between (entries : Array Int) (n : Int) (low high : Nat) : Prop :=
  ∀ position, entries[position]? = some n → low ≤ position ∧ position < high

private theorem search_eq {entries : Array Int} (ascending : entries.toList.Pairwise (· < ·)) {n : Int} {low high position : Nat}
    (inside : high < entries.size) (between : Between entries n low high) (found : entries[position]? = some n) :
    search entries n low high inside = position := by
  fun_induction search entries n low high inside with
  | case1 low high inside wide middle below ih =>
    apply ih
    intro other held
    obtain ⟨after, _⟩ := between other held
    have middleHeld : entries[middle]? = some entries[middle] := Array.getElem?_eq_getElem _
    refine ⟨after, Nat.lt_of_not_le fun le => ?_⟩
    rcases Nat.lt_or_eq_of_le le with later | rfl
    · have := entry_lt ascending middleHeld held later
      omega
    · rw [held, Option.some.injEq] at middleHeld
      omega
  | case2 low high inside wide middle above ih =>
    apply ih
    intro other held
    obtain ⟨_, before⟩ := between other held
    have middleHeld : entries[middle]? = some entries[middle] := Array.getElem?_eq_getElem _
    refine ⟨Nat.le_of_not_lt fun earlier => ?_, before⟩
    have := entry_lt ascending held middleHeld earlier
    omega
  | case3 low high inside narrow =>
    obtain ⟨after, before⟩ := between position found
    omega

theorem entries_last (table : PrimeTable) : table.entries[table.entries.size - 1]? = some table.largest := by
  have := table.nonempty
  exact Array.getElem?_eq_getElem _

theorem le_largest {table : PrimeTable} {position : Nat} {n : Int} (found : table.entries[position]? = some n) :
    n ≤ table.largest := by
  obtain ⟨inside, -⟩ := Array.getElem?_eq_some_iff.mp found
  have le : position ≤ table.entries.size - 1 := by omega
  rcases Nat.lt_or_eq_of_le le with before | rfl
  · exact Int.le_of_lt (entry_lt table.ascending found table.entries_last before)
  · rw [table.entries_last, Option.some.injEq] at found
    omega

/-- Above one, a number is found where it stands and nowhere else. -/
theorem index?_eq_some_iff (table : PrimeTable) {n : Int} (above : 2 ≤ n) {position : Nat} :
    table.index? n = some position ↔ table.entries[position]? = some n := by
  unfold index?
  dsimp only
  split
  next beyond =>
    split
    next last =>
      rw [Option.some.injEq]
      constructor
      · rintro rfl
        rw [last, table.entries_last]
      · intro found
        exact position_unique table.ascending (last ▸ table.entries_last) found
    next larger =>
      simp only [reduceCtorEq, false_iff]
      intro found
      have := le_largest found
      omega
  next within =>
    rw [if_neg (by omega)]
    have between : Between table.entries n 0 (table.entries.size - 1) := by
      intro other held
      obtain ⟨inside, -⟩ := Array.getElem?_eq_some_iff.mp held
      have different : other ≠ table.entries.size - 1 := by
        rintro rfl
        rw [table.entries_last, Option.some.injEq] at held
        omega
      omega
    split
    next held =>
      rw [Option.some.injEq]
      constructor
      · rintro rfl
        exact held
      · exact fun found => search_eq table.ascending _ between found
    next missed =>
      simp only [reduceCtorEq, false_iff]
      intro found
      rw [search_eq table.ascending _ between found] at missed
      exact missed found

theorem index?_eq_none {table : PrimeTable} {n : Int} (small : n ≤ 1) (below : n < table.largest) :
    table.index? n = none := by
  unfold index?
  dsimp only
  rw [if_neg (by omega), if_pos small]

/-- Above one, a table finds exactly its entries. -/
theorem isSome_index?_iff (table : PrimeTable) {n : Int} (above : 2 ≤ n) :
    (table.index? n).isSome = true ↔ n ∈ table.entries := by
  simp only [Option.isSome_iff_exists, table.index?_eq_some_iff above, Array.mem_iff_getElem?]

end Surd.PrimeTable
