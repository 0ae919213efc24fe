import Surd.Proofs.WorkspacePaths

/-! Where results go. A home is put for a tilde first, and a text that is at the root then leads to the same place
whatever the workspace is. Any other text is a way on from the workspace, which is a place at the root itself. So the
text of a path for a result says all, and leads to it from anywhere. -/

namespace Surd
open Text

namespace Environment

variable {environment : Environment} {text expanded : String} {directory path : Path}

/-! ### What a tilde stands for -/

theorem expand_of_rooted (rooted : Rooted text) : environment.expand text = .ok text := by
  unfold expand
  split
  · rfl
  · next c rest letters =>
    rw [Rooted, letters] at rooted
    cases rooted
    rfl

/-- A home without a text is the root. -/
private theorem rooted_fromHome {home rest : String} (ends : rest = "" ∨ Rooted rest) (absolute : home = "" ∨ Rooted home) :
    Rooted (fromHome home rest) := by
  obtain ⟨slashes, same⟩ : trimSlashes home.toList <+: home.toList := List.rdropWhile_prefix (· == '/') home.toList
  unfold fromHome
  dsimp only
  split
  · rfl
  · next given =>
    rw [Rooted, String.toList_ofList]
    cases trimmed : trimSlashes home.toList with
    | nil =>
      rcases ends with rfl | rooted
      · rw [trimmed] at given
        exact absurd rfl given
      · exact rooted
    | cons c others =>
      rw [trimmed] at same
      rcases absolute with rfl | rooted
      · cases same
      · rwa [Rooted, ← same] at rooted

/-- A text that starts with a tilde and the name of a user whose home is not at the root. -/
def RelativeHome (environment : Environment) (text : String) : Prop :=
  ∃ user rest home, text = "~" ++ user ++ rest ∧ environment.users.lookup user = some home ∧ home ≠ "" ∧ ¬Rooted home

/-- The own home makes no text relative. -/
private theorem exists_expand (absolute : Rooted environment.home) (clean : Char.ofNat 0 ∉ text.toList) :
    ∃ expanded, environment.expand text = .ok expanded ∧
      (Rooted expanded ∨ expanded = text ∨ environment.RelativeHome text) := by
  rcases environment.expand_cases text with same | ⟨user, rest, home, same, ends, known, expands⟩ | ⟨zero, -⟩
  · exact ⟨text, same, .inr (.inl rfl)⟩
  · refine ⟨fromHome home rest, expands, ?_⟩
    by_cases homeward : home = "" ∨ Rooted home
    · exact .inl (rooted_fromHome ends homeward)
    · rw [not_or] at homeward
      rw [homeOf?] at known
      split at known
      · cases known
        exact absurd absolute homeward.2
      · exact .inr (.inr ⟨user, rest, home, same, known, homeward⟩)
  · exact absurd zero clean

/-! ### The workspace -/

theorem resolved_workspaceDirectory (stands : environment.current.Normal)
    (placed : environment.workspaceDirectory = .ok directory) : directory.Resolved := by
  have homes (name : String) (_ : Path.IsName name) :
      Ends Fault.System (fun home => (Path.ofText home).Normal) (environment.expand name) :=
    (environment.expand_ends name).mono (fun _ system => system) fun home _ => Path.normal_ofText home
  obtain ⟨path, normal, rfl⟩ := (workspaceDirectory_all homes (fun text _ => Path.normal_ofText text)
    (by decide) (by decide) (by decide)).answer placed
  exact Path.resolved_resolve stands normal

/-- The text of a workspace leads to that workspace, wherever a run stands. -/
theorem workspaceDirectory_text (resolved : directory.Resolved) (given : environment.workspace = some directory.text) :
    environment.workspaceDirectory = .ok directory := by
  have some : ¬directory.text.isEmpty = true :=
    mt String.isEmpty_iff.mp (Path.rooted_text resolved.isAbsolute resolved.normal).ne_empty
  have still : environment.expandPath directory = .ok directory := by
    rw [expandPath, resolved.root]
  rw [workspaceDirectory, given]
  dsimp only
  rw [if_neg some, Path.ofText_text resolved.normal, still]
  exact congrArg Except.ok (resolved.resolve_eq environment.current)

/-! ### The path of a result -/

section
variable (given : text ≠ "") (expands : environment.expand text = .ok expanded)
include given expands

theorem outputPath_of_rooted (rooted : Rooted expanded) : environment.outputPath text = .ok (Path.ofText expanded) := by
  rw [outputPath, if_neg (mt String.isEmpty_iff.mp given), expands]
  exact if_pos ((Path.isAbsolute_ofText_iff expanded).mpr rooted)

theorem outputPath_of_relative (relative : ¬Rooted expanded) (placed : environment.workspaceDirectory = .ok directory) :
    environment.outputPath text = .ok ⟨directory.root, directory.segments ++ Path.names expanded⟩ := by
  rw [outputPath, if_neg (mt String.isEmpty_iff.mp given), expands, placed, ← Path.join_ofText directory relative]
  exact if_neg (mt (Path.isAbsolute_ofText_iff expanded).mp relative)

end

/-- The text of an absolute path leads to that path. -/
theorem outputPath_text (absolute : path.isAbsolute = true) (normal : path.Normal) :
    environment.outputPath path.text = .ok path := by
  have rooted := Path.rooted_text absolute normal
  rw [outputPath_of_rooted rooted.ne_empty (expand_of_rooted rooted) rooted, Path.ofText_text normal]

/-- For a run that stands at a path in normal form, as any that is read from a text, the workspace is a place at the root
without pairs of points on the way to it, and its text given as the workspace leads to it again. If the own home is at
the root too, every text with something in it and no zero has a path for a result. The path is absolute and in normal
form, and its text leads to it from anywhere. When the text is at the root, once a home has been put for its tilde, the
path has its names and its leading slashes, whatever the workspace is. Otherwise the names follow those of the workspace;
and they are those of the text as it was typed, unless it starts with another user whose home is not at the root. -/
theorem outputPath_placed (stands : environment.current.Normal) (absolute : Rooted environment.home) (given : text ≠ "")
    (clean : Char.ofNat 0 ∉ text.toList) (placed : environment.workspaceDirectory = .ok directory) :
    (directory.Resolved ∧
      ∀ other : Environment, other.workspace = some directory.text → other.workspaceDirectory = .ok directory) ∧
    ∃ expanded path, environment.expand text = .ok expanded ∧ environment.outputPath text = .ok path ∧
      path.isAbsolute = true ∧ path.Normal ∧ (∀ other : Environment, other.outputPath path.text = .ok path) ∧
      (Rooted expanded → path.segments = Path.names expanded ∧
        (path.root = .double ↔ ∃ rest, expanded = "//" ++ rest ∧ ¬Rooted rest) ∧
        ∀ workspace, { environment with workspace }.outputPath text = .ok path) ∧
      (¬Rooted expanded → path = ⟨directory.root, directory.segments ++ Path.names expanded⟩ ∧
        (expanded = text ∨ environment.RelativeHome text)) := by
  have resolved := resolved_workspaceDirectory stands placed
  refine ⟨⟨resolved, fun other => workspaceDirectory_text resolved⟩, ?_⟩
  obtain ⟨expanded, expands, origin⟩ := exists_expand absolute clean
  have normal := Path.normal_ofText expanded
  by_cases rooted : Rooted expanded
  · have atRoot := (Path.isAbsolute_ofText_iff expanded).mpr rooted
    refine ⟨expanded, Path.ofText expanded, expands, outputPath_of_rooted given expands rooted, atRoot, normal,
      fun other => outputPath_text atRoot normal, fun _ => ?_, fun relative => absurd rooted relative⟩
    refine ⟨Path.segments_ofText expanded, Path.root_ofText_eq_double_iff expanded, fun workspace => ?_⟩
    have same : { environment with workspace }.expand text = .ok expanded := expands
    exact outputPath_of_rooted given same rooted
  · have kept := resolved.normal.join normal
    rw [Path.join_ofText directory rooted] at kept
    have atRoot : Path.isAbsolute ⟨directory.root, directory.segments ++ Path.names expanded⟩ = true := resolved.isAbsolute
    exact ⟨expanded, _, expands, outputPath_of_relative given expands rooted placed, atRoot, kept,
      fun other => outputPath_text atRoot kept, fun other => absurd other rooted, fun _ => ⟨rfl, origin.resolve_left rooted⟩⟩

/-- Surroundings with a workspace that is given by a way above the root. -/
def upward : Environment := ⟨⟨.single, ["srv"]⟩, "/home/ann/", [], some "~/../../../x/./y/..//", fun _ => SquareRoot.drawing⟩

/-- A way above the root ends there. A tilde in front of an unknown name is part of a name like others. -/
theorem outputPath_placed_unknown_user :
    let path : Path := ⟨.single, ["x", "~nobody", "..", "r.txt"]⟩
    upward.workspaceDirectory = .ok ⟨.single, ["x"]⟩ ∧ upward.outputPath "~nobody/./..//r.txt" = .ok path ∧
      ∀ other : Environment, other.outputPath "/x/~nobody/../r.txt" = .ok path := by
  have placed : upward.workspaceDirectory = .ok ⟨.single, ["x"]⟩ := rfl
  have plain : upward.expand "~nobody/./..//r.txt" = .ok "~nobody/./..//r.txt" := rfl
  have stands : upward.current.Normal := List.forall_mem_singleton.mpr (by decide)
  obtain ⟨-, expanded, path, expands, leads, -, -, again, -, behind⟩ :=
    @outputPath_placed upward "~nobody/./..//r.txt" ⟨.single, ["x"]⟩ stands rfl (by decide) (by decide) placed
  cases plain.symm.trans expands
  obtain ⟨rfl, -⟩ := behind (by decide)
  exact ⟨placed, leads, again⟩

end Environment
end Surd
