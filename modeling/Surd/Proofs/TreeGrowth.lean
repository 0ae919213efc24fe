import Surd.FileTree

/-! What making directories and writing a file do to a tree, place by place. Directories come only
where nothing stands. A file comes at the one location that its path leads to, and since no directory
stood there, every walk that was possible before still goes the same way. -/

namespace Surd.FileTree

theorem entry?_put_other (tree : FileTree) {target location : Location} (different : location ≠ target)
    (entry : FileEntry) : FileTree.entry? (tree.put target entry) location = tree.entry? location := by
  have kept : ∀ entries : List (Location × FileEntry),
      (entries.filter fun other => other.1 != target).lookup location = entries.lookup location := by
    intro entries
    induction entries with
    | nil => rfl
    | cons first rest ih =>
      obtain ⟨place, held⟩ := first
      by_cases same : place = target
      · have apart : (location == target) = false := beq_eq_false_iff_ne.mpr different
        rw [List.filter_cons_of_neg (by simpa using same), ih, List.lookup_cons, same, apart]
      · rw [List.filter_cons_of_pos (by simpa using same), List.lookup_cons, List.lookup_cons, ih]
  unfold entry?
  split
  · rfl
  · have apart : (location == target) = false := beq_eq_false_iff_ne.mpr different
    simp only [put, List.lookup_cons, apart]
    exact kept tree.entries

theorem entry?_put_same (tree : FileTree) {target : Location} (proper : target ≠ []) (entry : FileEntry) :
    FileTree.entry? (tree.put target entry) target = some entry := by
  unfold entry?
  rw [if_neg proper]
  exact List.lookup_cons_self

/-- The root is always there. -/
theorem ne_root_of_free {tree : FileTree} {target : Location} (free : tree.entry? target ≠ some .directory) :
    target ≠ [] := by
  rintro rfl
  exact free rfl

/-- Places where directories can come one after the other: nothing stands there when it is their turn. -/
inductive Free : FileTree → List Location → Prop
  | nil (tree : FileTree) : Free tree []
  | cons {tree : FileTree} {location : Location} {rest : List Location} (none : tree.entry? location = none)
      (later : Free (tree.put location .directory) rest) : Free tree (location :: rest)

theorem Free.append {tree : FileTree} {first second : List Location} (before : Free tree first)
    (after : Free (tree.withDirectories first) second) : Free tree (first ++ second) := by
  induction before with
  | nil => exact after
  | cons none _ ih => exact .cons none (ih after)

variable (current : Location)

private theorem ensureOne_free (tree : FileTree) (path : Path) : Free tree (tree.ensureOne current path).1 := by
  unfold ensureOne
  split
  · next location made =>
    unfold makeDirectory at made
    split at made
    · cases made
    · split at made
      · cases made
      · next none =>
        cases made
        exact .cons none (.nil _)
  · exact .nil tree
  · exact .nil tree

/-- However far the way to a directory can be made, directories come only where nothing stands. -/
theorem ensureWithin_free (fuel : Nat) (tree : FileTree) (path : Path) :
    Free tree (ensureWithin current fuel tree path).1 := by
  induction fuel generalizing path with
  | zero => exact ensureOne_free current tree path
  | succ fuel ih =>
    rw [ensureWithin]
    split
    · have before := ih path.parent
      split
      · next made reached =>
        rw [reached] at before
        exact before.append (ensureOne_free current _ path)
      · exact before
    · exact ensureOne_free current tree path

variable {current}

theorem filePlace_eq_ok_iff {tree : FileTree} {path : Path} {location : Location} :
    tree.filePlace current path = .ok location ↔
      tree.locate current path = .ok location ∧ tree.entry? location ≠ some .directory := by
  unfold filePlace
  cases located : tree.locate current path with
  | error obstacle => exact iff_of_false (fun same => by cases same) fun both => by cases both.1
  | ok place =>
    dsimp only
    split
    · next directory =>
      refine iff_of_false (fun same => by cases same) ?_
      rintro ⟨⟨⟩, free⟩
      exact free directory
    · next free =>
      constructor
      · rintro ⟨⟩
        exact ⟨rfl, free⟩
      · rintro ⟨⟨⟩, -⟩
        rfl

/-- A file in a place where no directory stood is in the way of no walk, as a walk leaves only directories
behind it. -/
private theorem walk_put {tree : FileTree} {target : Location} (free : tree.entry? target ≠ some .directory)
    (entry : FileEntry) {start location : Location} {names : List String}
    (walked : tree.walk start names = .ok location) : (tree.put target entry).walk start names = .ok location := by
  induction names generalizing start with
  | nil => exact walked
  | cons name rest ih =>
    rw [walk] at walked
    split at walked
    · next directory =>
      have different : start ≠ target := by
        rintro rfl
        exact free directory
      have stands := (tree.entry?_put_other different entry).trans directory
      split at walked
      · cases walked
      · next short =>
        rw [walk, stands]
        dsimp only
        rw [if_neg short]
        exact ih walked
    · cases walked
    · cases walked

theorem locate_put {tree : FileTree} {target location : Location} (free : tree.entry? target ≠ some .directory)
    (entry : FileEntry) {path : Path} (located : tree.locate current path = .ok location) :
    (tree.put target entry).locate current path = .ok location := by
  unfold locate at located ⊢
  split at located
  · cases located
  · next clean =>
    split at located
    · cases located
    · next short =>
      rw [if_neg clean, if_neg short]
      exact walk_put free entry located

/-- What is written where no directory stands is in the way of no walk either, and changes nothing else. -/
theorem write_effect {tree : FileTree} {target : Location} (free : tree.entry? target ≠ some .directory)
    (content : ByteArray) :
    (∀ {path : Path} {location : Location}, tree.locate current path = .ok location →
        (tree.write target content).locate current path = .ok location) ∧
      (∀ location, location ≠ target → FileTree.entry? (tree.write target content) location = tree.entry? location) ∧
      (FileTree.entry? (tree.write target content) target = some (.file content) ∨
        tree.entry? target = some .sink ∧ tree.write target content = tree) := by
  unfold write
  split
  · next sink => exact ⟨fun located => located, fun _ _ => rfl, .inr ⟨sink, rfl⟩⟩
  · exact ⟨fun located => locate_put free _ located, fun location different => tree.entry?_put_other different _,
      .inl (tree.entry?_put_same (ne_root_of_free free) _)⟩

/-- A file that is written stays where its path leads to. -/
theorem filePlace_write {tree : FileTree} {path : Path} {location : Location}
    (placed : tree.filePlace current path = .ok location) (content : ByteArray) :
    (tree.write location content).filePlace current path = .ok location := by
  obtain ⟨located, free⟩ := filePlace_eq_ok_iff.mp placed
  obtain ⟨leads, -, held⟩ := write_effect free content
  refine filePlace_eq_ok_iff.mpr ⟨leads located, ?_⟩
  rcases held with filled | ⟨-, swallowed⟩
  · intro directory
    cases filled.symm.trans directory
  · rwa [swallowed]

/-- What was written is read again, unless a sink has swallowed it. -/
theorem read_write {tree : FileTree} {path : Path} {location : Location}
    (placed : tree.filePlace current path = .ok location) (content : ByteArray)
    (kept : (tree.write location content).leadsTo current path .sink = false) :
    (tree.write location content).read current path = .ok content := by
  obtain ⟨located, free⟩ := filePlace_eq_ok_iff.mp placed
  obtain ⟨leads, -, held⟩ := write_effect free content
  rcases held with filled | ⟨sink, swallowed⟩
  · rw [read, leads located]
    dsimp only
    rw [filled]
  · rw [swallowed, leadsTo, located] at kept
    dsimp only at kept
    rw [sink] at kept
    cases kept

end Surd.FileTree
