import Mathlib.Data.List.DropRight
import Surd.FileTree
import Surd.Proofs.FaultTexts
import Surd.Proofs.PathTexts
import Surd.Workspace

/-! Paths are made of what was typed and of what the surroundings say: no character gets into them
otherwise but the slash and the point. What goes wrong with a path is a fault of the system, not one
of the user's. -/

namespace Surd
open Text

variable {c : Char}

namespace Path

/-- A path in whose names a character does not occur. -/
def Lacks (c : Char) (path : Path) : Prop := ∀ name ∈ path.segments, Text.Lacks c name

variable {path : Path}

theorem lacks_ofText {text : String} (lacks : Text.Lacks c text) : (ofText text).Lacks c := by
  intro name member
  obtain ⟨piece, inside, rfl⟩ := List.mem_map.mp member
  rw [lacks_ofList]
  intro held
  exact lacks (mem_of_mem_cutAt (List.mem_filter.mp inside).1 held).1

private theorem name_child (path : Path) (name : String) : (path.child name).name = name := by
  rw [Path.name, Path.child, List.getLast?_concat]
  rfl

theorem Lacks.text (control : Control c) (lacks : path.Lacks c) : Text.Lacks c path.text := by
  unfold Path.text
  split
  · exact control.lacks rfl
  · refine lacks_append.mpr ⟨?_, Text.Lacks.intercalate (control.lacks rfl) lacks⟩
    cases path.root with
    | relative => exact lacks_empty
    | single => exact control.lacks rfl
    | double => exact control.lacks rfl

theorem Lacks.name (lacks : path.Lacks c) : Text.Lacks c path.name := by
  unfold Path.name
  cases last : path.segments.getLast? with
  | none => exact lacks_empty
  | some name => exact lacks name (List.mem_of_getLast? last)

end Path

/-- A fault that is no fault of the user's. -/
def Fault.System (fault : Fault) : Prop := fault.isUserError = false

theorem Fault.System.untold {fault : Fault} (system : fault.System) : ¬fault.isUserError = true :=
  Bool.eq_false_iff.mp system

theorem Fault.System.lacks {fault : Fault} (system : fault.System) : fault.Lacks c := by
  cases fault
  all_goals first
    | exact lacks_of_no_text rfl
    | cases system

namespace Environment

/-- Surroundings in which a character does not occur. -/
structure Lacks (c : Char) (environment : Environment) : Prop where
  current : environment.current.Lacks c
  home : Text.Lacks c environment.home
  users : ∀ user ∈ environment.users, Text.Lacks c user.2
  workspace : ∀ text, environment.workspace = some text → Text.Lacks c text

variable {environment : Environment}

private theorem lacks_homeOf (lacks : environment.Lacks c) {user home : String} (known : environment.homeOf? user = some home) :
    Text.Lacks c home := by
  unfold homeOf? at known
  split at known
  · cases known
    exact lacks.home
  · obtain ⟨before, behind, same, -⟩ := List.lookup_eq_some_iff.mp known
    exact lacks.users (user, home) (same ▸ List.mem_append_right before List.mem_cons_self)

/-- A way on from a home. -/
def fromHome (home rest : String) : String :=
  let whole := trimSlashes home.toList ++ rest.toList
  if whole.isEmpty then "/" else String.ofList whole

private theorem lacks_fromHome {home rest : String} (control : Control c) (first : Text.Lacks c home) (second : Text.Lacks c rest) :
    Text.Lacks c (fromHome home rest) := by
  have start : trimSlashes home.toList <+: home.toList := List.rdropWhile_prefix (· == '/') home.toList
  unfold fromHome
  dsimp only
  split
  · exact control.lacks rfl
  · rw [lacks_ofList, List.mem_append, not_or]
    exact ⟨mt (start.subset ·) first, second⟩

/-- A text stays as it is, or a home is put for its tilde and the name behind it. No user has a name with a zero in it. -/
theorem expand_cases (environment : Environment) (text : String) :
    environment.expand text = .ok text ∨
    (∃ user rest home, text = "~" ++ user ++ rest ∧ (rest = "" ∨ Rooted rest) ∧ environment.homeOf? user = some home ∧
      environment.expand text = .ok (fromHome home rest)) ∨
    Char.ofNat 0 ∈ text.toList ∧ environment.expand text = .error .zeroInPath := by
  unfold expand
  split
  · exact .inl rfl
  · next c rest letters =>
    split
    · next tilde =>
      dsimp only
      split
      · next inside =>
        have member := (List.takeWhile_prefix _).subset (List.contains_iff_mem.mp inside)
        exact .inr (.inr ⟨letters ▸ List.mem_cons_of_mem c member, rfl⟩)
      · split
        · exact .inl rfl
        · next home known =>
          refine .inr (.inl ⟨_, String.ofList (rest.dropWhile (· != '/')), home, ?_, rooted_dropWhile rest, known, ?_⟩)
          · apply String.toList_injective
            simp only [String.toList_append, String.toList_ofList, List.append_assoc, List.takeWhile_append_dropWhile]
            rw [letters, tilde]
            rfl
          · rw [fromHome, String.toList_ofList]
    · exact .inl rfl

theorem expand_ends (environment : Environment) (text : String) :
    Ends Fault.System (fun expanded => ∀ c, Control c → environment.Lacks c → Text.Lacks c text → Text.Lacks c expanded)
      (environment.expand text) := by
  rcases environment.expand_cases text with same | ⟨user, rest, home, same, -, known, expands⟩ | ⟨-, failed⟩
  · rw [same]
    exact fun _ _ _ lacks => lacks
  · rw [expands]
    intro c control surroundings lacks
    rw [same, lacks_append] at lacks
    exact lacks_fromHome control (lacks_homeOf surroundings known) lacks.2
  · rw [failed]
    exact rfl

section
variable {path : Path} {holds : String → Prop}
  (homes : ∀ name, holds name → Ends Fault.System (fun home => (Path.ofText home).All holds) (environment.expand name))
include homes

/-- What goes over from a name with a tilde to those of its home goes over from a path to the one in that home. -/
theorem expandPath_all (each : path.All holds) : Ends Fault.System (Path.All holds) (environment.expandPath path) := by
  unfold expandPath
  split
  · next first rest root segments =>
    rw [Path.All, segments, List.forall_mem_cons] at each
    split
    · refine (homes first each.1).bind fun home within => ?_
      split
      · exact rfl
      · exact within.join each.2
    · intro name member
      rw [segments] at member
      exact List.forall_mem_cons.mpr each name member
  · exact each

/-- The workspace is where a path with such names leads to. -/
theorem workspaceDirectory_all (typed : ∀ text, environment.workspace = some text → (Path.ofText text).All holds)
    (tilde : holds "~") (documents : holds "Documents") (folder : holds "ExactSqrt") :
    Ends Fault.System (fun directory => ∃ path : Path, path.All holds ∧ directory = environment.current.resolve path)
      environment.workspaceDirectory := by
  have byDefault : Ends Fault.System (fun directory => ∃ path : Path, path.All holds ∧ directory = environment.current.resolve path)
      (workspaceDirectory.documents environment) := by
    have each : (Path.ofText "~").All holds := List.forall_mem_singleton.mpr tilde
    exact (expandPath_all homes each).map fun home within => ⟨_, (within.child documents).child folder, rfl⟩
  unfold workspaceDirectory
  split
  · next text given =>
    split
    · exact byDefault
    · exact (expandPath_all homes (typed text given)).map fun found within => ⟨found, within, rfl⟩
  · exact byDefault

end

/-- A text that lacks each control character which the surroundings lack, and which what else was given lacks too. -/
def Spares (environment : Environment) (lacking : Char → Prop) (text : String) : Prop :=
  ∀ c, Control c → environment.Lacks c → lacking c → Text.Lacks c text

theorem homes_spare {lacking : Char → Prop} (name : String) (spared : environment.Spares lacking name) :
    Ends Fault.System (fun home => (Path.ofText home).All (environment.Spares lacking)) (environment.expand name) :=
  (environment.expand_ends name).mono (fun _ system => system) fun _ kept other member c control surroundings lacks =>
    Path.lacks_ofText (kept c control surroundings (spared c control surroundings lacks)) other member

theorem expandPath_ends (environment : Environment) (path : Path) :
    Ends Fault.System (fun expanded => ∀ c, Control c → environment.Lacks c → path.Lacks c → expanded.Lacks c)
      (environment.expandPath path) := by
  have each : path.All (environment.Spares path.Lacks) := fun name member c _ _ lacks => lacks name member
  refine (expandPath_all homes_spare each).mono (fun _ system => system) ?_
  exact fun expanded spared c control surroundings lacks name member => spared name member c control surroundings lacks

theorem workspaceDirectory_ends (environment : Environment) :
    Ends Fault.System (fun directory => ∀ c, Control c → environment.Lacks c → directory.Lacks c)
      environment.workspaceDirectory := by
  have typed : ∀ text, environment.workspace = some text → (Path.ofText text).All (environment.Spares fun _ => True) :=
    fun text given name member c _ surroundings _ => Path.lacks_ofText (surroundings.workspace text given) name member
  refine (workspaceDirectory_all homes_spare typed (fun _ control _ _ => control.lacks rfl) (fun _ control _ _ => control.lacks rfl)
    (fun _ control _ _ => control.lacks rfl)).mono (fun _ system => system) ?_
  rintro _ ⟨path, spared, rfl⟩ c control surroundings
  exact Path.All.resolve surroundings.current fun name member => spared name member c control surroundings trivial

theorem settingsPath_ends (environment : Environment) :
    Ends Fault.System (fun path => ∀ c, Control c → environment.Lacks c → path.Lacks c) environment.settingsPath :=
  (workspaceDirectory_ends environment).map fun _ lacks c control surroundings =>
    Path.All.child (lacks c control surroundings) (control.lacks rfl)

theorem name_settingsPath {path : Path} (placed : environment.settingsPath = .ok path) : path.name = "settings.toml" := by
  obtain ⟨directory, -, rfl⟩ := map_eq_ok_iff.mp placed
  exact directory.name_child _

theorem outputPath_ends (environment : Environment) (text : String) :
    Ends Fault.System (fun _ => True) (environment.outputPath text) := by
  unfold outputPath
  split
  · exact rfl
  · refine (expand_ends environment text).bind fun expanded _ => ?_
    dsimp only
    split
    · exact trivial
    · exact (workspaceDirectory_ends environment).map fun _ _ => trivial

end Environment

theorem Obstacle.fault_system (path : Path) (obstacle : Obstacle) : (obstacle.fault path).System := by
  cases obstacle with
  | missing => rfl
  | throughFile => rfl
  | nameTooLong => rfl
  | zeroInName => rfl

namespace FileTree
variable (tree : FileTree) (current : Location) (path : Path)

theorem contains_ends : Ends Fault.System (fun _ => True) (tree.contains current path) := by
  unfold contains
  split
  · exact trivial
  · exact rfl
  · exact trivial

theorem read_ends : Ends Fault.System (fun _ => True) (tree.read current path) := by
  unfold read
  split
  · next obstacle _ => exact obstacle.fault_system path
  · split
    · exact trivial
    · exact trivial
    · exact rfl
    · exact rfl

theorem filePlace_ends : Ends Fault.System (fun _ => True) (tree.filePlace current path) := by
  unfold filePlace
  split
  · next obstacle _ => exact obstacle.fault_system path
  · split
    · exact rfl
    · exact trivial

private theorem ensureOne_ends : Ends Fault.System (fun _ => True) (tree.ensureOne current path).2 := by
  unfold ensureOne
  split
  · exact trivial
  · dsimp only
    split
    · exact trivial
    · exact rfl
  · next obstacle _ => exact obstacle.fault_system path

theorem ensureWithin_ends (fuel : Nat) : Ends Fault.System (fun _ => True) (ensureWithin current fuel tree path).2 := by
  induction fuel generalizing path with
  | zero => exact ensureOne_ends tree current path
  | succ fuel ih =>
    rw [ensureWithin]
    split
    · split
      · exact ensureOne_ends _ current path
      · exact ih path.parent
    · exact ensureOne_ends tree current path

end FileTree
end Surd
