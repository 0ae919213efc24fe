import Mathlib.Data.List.Induction
import Surd.Path
import Surd.Proofs.TextCuts

/-! Paths read back from their texts. A path in normal form is made of names that can stand between slashes, so that
its text leads to the same path again. Taking pairs of points back invents no names and leaves no pair, and a way
without pairs stays as it is. -/

namespace Surd
open Text

/-- A text that starts at the root. -/
def Text.Rooted (text : String) : Prop := text.toList.head? = some '/'

instance (text : String) : Decidable (Rooted text) := inferInstanceAs (Decidable (text.toList.head? = some '/'))

theorem Text.Rooted.ne_empty {text : String} (rooted : Rooted text) : text ≠ "" := by
  rintro rfl
  cases rooted

/-- What is behind the first piece of a text starts with the slash that ends the piece. -/
theorem Text.rooted_dropWhile (text : List Char) :
    String.ofList (text.dropWhile (· != '/')) = "" ∨ Rooted (String.ofList (text.dropWhile (· != '/'))) := by
  have stops := List.head?_dropWhile_not (· != '/') text
  cases behind : text.dropWhile (· != '/') with
  | nil => exact .inl rfl
  | cons c rest =>
    rw [behind] at stops
    have slash : c = '/' := bne_eq_false_iff_eq.mp stops
    rw [Rooted, String.toList_ofList, slash]
    exact .inr rfl

namespace Path

variable {path base current : Path} {holds : String → Prop}

/-- A path whose names are all as is said. -/
def All (holds : String → Prop) (path : Path) : Prop := ∀ name ∈ path.segments, holds name

theorem All.join (first : base.All holds) (second : path.All holds) : (base.join path).All holds := by
  unfold Path.join
  split
  · exact second
  · exact List.forall_mem_append.mpr ⟨first, second⟩

theorem All.child {name : String} (each : path.All holds) (last : holds name) : (path.child name).All holds :=
  List.forall_mem_append.mpr ⟨each, List.forall_mem_singleton.mpr last⟩

section
variable {names : List String}

theorem collapse_concat (before : List String) (name : String) :
    collapse (before ++ [name]) = if name = ".." then (collapse before).dropLast else collapse before ++ [name] :=
  List.foldl_concat _ [] name before

private theorem mem_of_mem_collapse {name : String} (member : name ∈ collapse names) : name ∈ names := by
  induction names using List.reverseRecOn with
  | nil => exact member
  | append_singleton before last ih =>
    rw [collapse_concat] at member
    split at member
    · exact List.mem_append_left [last] (ih (List.dropLast_subset _ member))
    · exact List.mem_append.mpr ((List.mem_append.mp member).imp_left ih)

private theorem pair_not_mem_collapse (names : List String) : ".." ∉ collapse names := by
  induction names using List.reverseRecOn with
  | nil => exact List.not_mem_nil
  | append_singleton before last ih =>
    rw [collapse_concat]
    split
    · exact fun member => ih (List.dropLast_subset _ member)
    · next other =>
      rw [List.mem_append, List.mem_singleton, not_or]
      exact ⟨ih, Ne.symm other⟩

private theorem collapse_eq_self (straight : ".." ∉ names) : collapse names = names := by
  induction names using List.reverseRecOn with
  | nil => rfl
  | append_singleton before last ih =>
    rw [List.mem_append, List.mem_singleton, not_or] at straight
    rw [collapse_concat, if_neg (Ne.symm straight.2), ih straight.1]

end

theorem All.resolve (first : current.All holds) (second : path.All holds) : (current.resolve path).All holds :=
  fun name member => first.join second name (mem_of_mem_collapse member)

/-- A name on a way. A pair of points is one, since it leads somewhere else; a point alone is not. -/
structure IsName (name : String) : Prop where
  some : name ≠ ""
  leads : name ≠ "."
  whole : '/' ∉ name.toList

instance (name : String) : Decidable (IsName name) :=
  decidable_of_iff (name ≠ "" ∧ name ≠ "." ∧ '/' ∉ name.toList)
    ⟨fun ⟨given, leads, whole⟩ => ⟨given, leads, whole⟩, fun proper => ⟨proper.some, proper.leads, proper.whole⟩⟩

theorem isSegment_iff {piece : List Char} : isSegment piece = true ↔ String.ofList piece ≠ "" ∧ String.ofList piece ≠ "." := by
  have empty : String.ofList piece = "" ↔ piece = [] := String.ofList_eq_empty_iff
  have point : String.ofList piece = "." ↔ piece = ['.'] := String.ofList_inj
  simp only [isSegment, ne_eq, empty, point, Bool.not_eq_true', Bool.or_eq_false_iff, List.isEmpty_eq_false_iff,
    beq_eq_false_iff_ne]

/-- A path in normal form. -/
abbrev Normal (path : Path) : Prop := path.All IsName

theorem normal_ofText (text : String) : (ofText text).Normal := by
  intro name member
  obtain ⟨piece, inside, rfl⟩ := List.mem_map.mp member
  obtain ⟨cut, kept⟩ := List.mem_filter.mp inside
  obtain ⟨some, leads⟩ := isSegment_iff.mp kept
  refine ⟨some, leads, ?_⟩
  rw [String.toList_ofList]
  exact fun held => (mem_of_mem_cutAt cut held).2 rfl

/-- The pieces of a text between its slashes, in their order, without the empty ones and the points. -/
def names (text : String) : List String :=
  ((text.toList.splitOn '/').map String.ofList).filter fun piece => piece ≠ "" ∧ piece ≠ "."

theorem segments_ofText (text : String) : (ofText text).segments = names text := by
  have same : isSegment = (fun name : String => decide (name ≠ "" ∧ name ≠ ".")) ∘ String.ofList := by
    funext piece
    rw [Function.comp_apply, Bool.eq_iff_iff, decide_eq_true_iff]
    exact isSegment_iff
  rw [names, List.filter_map, ← same, ← cutAt_eq_splitOn]
  rfl

section
variable {rest : List Char}

theorem length_leading (count : Nat) (ends : rest.head? ≠ some '/') :
    ((List.replicate count '/' ++ rest).takeWhile (· == '/')).length = count := by
  have stops : rest.takeWhile (· == '/') = [] := by
    cases rest with
    | nil => rfl
    | cons c later => exact List.takeWhile_cons_of_neg (mt beq_iff_eq.mp (mt (congrArg some) ends))
  have slashes : ∀ c ∈ List.replicate count '/', (c == '/') = true := fun c member =>
    beq_iff_eq.mpr (List.eq_of_mem_replicate member)
  rw [List.takeWhile_append_of_pos slashes, stops, List.append_nil, List.length_replicate]

theorem exists_replicate (text : List Char) :
    ∃ count rest, text = List.replicate count '/' ++ rest ∧ rest.head? ≠ some '/' := by
  induction text with
  | nil => exact ⟨0, [], rfl, nofun⟩
  | cons c later ih =>
    by_cases slash : c = '/'
    · obtain ⟨count, rest, same, ends⟩ := ih
      refine ⟨count + 1, rest, ?_, ends⟩
      rw [slash, same, List.replicate_succ, List.cons_append]
    · exact ⟨0, c :: later, rfl, mt Option.some.inj slash⟩

end

theorem isAbsolute_ofText_iff (text : String) : (ofText text).isAbsolute = true ↔ Rooted text := by
  obtain ⟨count, rest, same, ends⟩ := exists_replicate text.toList
  rw [isAbsolute, bne_iff_ne, ofText, Rooted, same, rootOf, length_leading count ends]
  match count with
  | 0 => exact iff_of_false (fun other => other rfl) ends
  | 1 => exact iff_of_true nofun rfl
  | 2 => exact iff_of_true nofun rfl
  | count + 3 => exact iff_of_true nofun rfl

theorem join_ofText (base : Path) {text : String} (relative : ¬Rooted text) :
    base.join (ofText text) = ⟨base.root, base.segments ++ names text⟩ := by
  rw [join, if_neg (mt (isAbsolute_ofText_iff text).mp relative), segments_ofText]

/-- Two slashes in front are kept. One is enough for the root, and so are more than two. -/
theorem root_ofText_eq_double_iff (text : String) :
    (ofText text).root = .double ↔ ∃ rest, text = "//" ++ rest ∧ ¬Rooted rest := by
  obtain ⟨count, rest, same, ends⟩ := exists_replicate text.toList
  have split : ∀ other, text = "//" ++ other ↔ List.replicate count '/' ++ rest = '/' :: '/' :: other.toList := by
    intro other
    rw [← same, ← String.toList_inj, String.toList_append]
    rfl
  rw [ofText, same, rootOf, length_leading count ends]
  simp only [split]
  match count with
  | 0 => exact iff_of_false nofun fun ⟨_, slashes, _⟩ => ends (congrArg List.head? slashes)
  | 1 => exact iff_of_false nofun fun ⟨_, slashes, _⟩ => ends (congrArg List.head? (List.cons.inj slashes).2)
  | 2 =>
    refine iff_of_true rfl ⟨String.ofList rest, ?_, ?_⟩
    · rw [String.toList_ofList]
      rfl
    · rwa [Rooted, String.toList_ofList]
  | count + 3 =>
    refine iff_of_false nofun fun ⟨other, slashes, alone⟩ => alone ?_
    rw [Rooted, ← (List.cons.inj (List.cons.inj slashes).2).2]
    rfl

/-- The slashes that a root is written with. -/
def slashes : PathRoot → Nat
  | .relative => 0
  | .single => 1
  | .double => 2

private theorem toList_rootText (root : PathRoot) : (rootText root).toList = List.replicate (slashes root) '/' := by
  cases root <;> rfl

private theorem rootOf_slashes (root : PathRoot) {rest : List Char} (ends : rest.head? ≠ some '/') :
    rootOf (List.replicate (slashes root) '/' ++ rest) = root := by
  rw [rootOf, length_leading _ ends]
  cases root <;> rfl

/-- Leading slashes bring no names. -/
private theorem filter_cutAt_replicate (count : Nat) (rest : List Char) :
    (cutAt '/' (List.replicate count '/' ++ rest)).filter isSegment = (cutAt '/' rest).filter isSegment := by
  induction count with
  | zero => rfl
  | succ count ih =>
    rw [List.replicate_succ, List.cons_append, cutAt, if_pos rfl, List.filter_cons_of_neg (by decide), ih]

/-- A path in normal form is the one that its text leads to. -/
theorem ofText_text (normal : path.Normal) : ofText path.text = path := by
  obtain ⟨root, segments⟩ := path
  cases segments with
  | nil => cases root <;> decide
  | cons first others =>
    have cut : cutAt '/' ("/".intercalate (first :: others)).toList = (first :: others).map String.toList :=
      cutAt_intercalate (List.cons_ne_nil first others) (fun name member => (normal name member).whole) rfl
    have ends : ("/".intercalate (first :: others)).toList.head? ≠ some '/' := by
      intro slash
      obtain ⟨rest, same⟩ := List.head?_eq_some_iff.mp slash
      rw [same, cutAt, if_pos rfl, List.map_cons] at cut
      exact (normal first List.mem_cons_self).some (String.toList_eq_nil_iff.mp (List.cons.inj cut).1.symm)
    have kept : ((first :: others).map String.toList).filter isSegment = (first :: others).map String.toList := by
      refine List.filter_eq_self.mpr (List.forall_mem_map.mpr fun name member => isSegment_iff.mpr ?_)
      rw [String.ofList_toList]
      exact ⟨(normal name member).some, (normal name member).leads⟩
    have written : (text ⟨root, first :: others⟩).toList =
        List.replicate (slashes root) '/' ++ ("/".intercalate (first :: others)).toList := by
      rw [text, if_neg fun none => List.cons_ne_nil first others none.2, String.toList_append, toList_rootText]
    rw [ofText, written, rootOf_slashes root ends, filter_cutAt_replicate, cut, kept, map_ofList_map_toList]

theorem rooted_text (absolute : path.isAbsolute = true) (normal : path.Normal) : Rooted path.text := by
  rwa [← isAbsolute_ofText_iff, ofText_text normal]

/-- An absolute path without pairs of points, as it is left by a walk from the root. -/
structure Resolved (path : Path) : Prop where
  root : path.root = .single
  normal : path.Normal
  straight : ".." ∉ path.segments

theorem resolved_resolve (start : current.Normal) (normal : path.Normal) : (current.resolve path).Resolved :=
  ⟨rfl, start.resolve normal, pair_not_mem_collapse _⟩

namespace Resolved
variable (resolved : path.Resolved)
include resolved

theorem isAbsolute : path.isAbsolute = true := by
  rw [Path.isAbsolute, resolved.root]
  rfl

/-- Wherever a walk starts, it leads to the same place. -/
theorem resolve_eq (current : Path) : current.resolve path = path := by
  rw [resolve, join, if_pos resolved.isAbsolute, collapse_eq_self resolved.straight, ← resolved.root]

end Resolved

end Path
end Surd
