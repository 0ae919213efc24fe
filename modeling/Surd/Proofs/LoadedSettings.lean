import Surd.Proofs.DottedKeys
import Surd.Proofs.ValueWriting
import Surd.Proofs.WorkspacePaths

/-! Settings that load have passed their check, so that the switches read from them are the truth
values that stand there. What is told of settings that do not load shows the name of their file, and
nothing that the file holds but between quotes. -/

namespace Surd
namespace Settings
open Text (Control)

/-- Settings in which every key with a default has a value of its kind. -/
structure Checked (data : List (String × Value)) : Prop where
  rowLength : ∃ n, 1 ≤ n ∧ setting data "OUTPUT" "PRIMES_PER_ROW" = .int n
  bound : ∃ n, 1 ≤ n ∧ setting data "BEHAVIOUR" "MAX_PRIMES_BOUND" = .int n
  debug : ∃ b, setting data "BEHAVIOUR" "DEBUG" = .bool b
  color : ∃ b, setting data "OUTPUT" "COLOR" = .bool b
  pretty : ∃ b, setting data "OUTPUT" "PRETTY" = .bool b

theorem checked_defaults : Checked defaults :=
  ⟨⟨10, by decide, rfl⟩, ⟨10000000, by decide, rfl⟩, ⟨false, rfl⟩, ⟨true, rfl⟩, ⟨false, rfl⟩⟩

/-- A text without control characters. -/
def Printed (text : String) : Prop := ∀ c, Control c → Text.Lacks c text

theorem Printed.dotted {name key : String} (before : Printed name) (behind : Printed key) :
    Printed (Settings.dotted name key) := by
  intro c control
  refine Text.lacks_append.mpr ⟨Text.lacks_append.mpr ⟨before c control, control.lacks rfl⟩, behind c control⟩

variable {file : String} {data : List (String × Value)}

/-- A fault that shows, of all texts, the name of the settings file at most. -/
def ShowsFile (file : String) (fault : Fault) : Prop := ∀ c, Control c → Text.Lacks c file → fault.Lacks c

/-- A fault that shows the name of the settings file if it is one of the user's, beside texts that print. -/
def TellsFile (file : String) (fault : Fault) : Prop :=
  fault.System ∨ file ∈ fault.rawTexts ∧ ∀ text ∈ fault.rawTexts, text = file ∨ Printed text

namespace TellsFile
variable {fault : Fault}

theorem shows (tells : TellsFile file fault) : ShowsFile file fault := by
  intro c control lacks text member
  rcases tells with system | ⟨-, each⟩
  · exact system.lacks text member
  · rcases each text member with rfl | printed
    · exact lacks
    · exact printed c control

/-- A fault of the user's holds a control character exactly if the name of the file does. -/
theorem lacks_iff (tells : TellsFile file fault) (told : fault.isUserError = true) {c : Char} (control : Control c) :
    fault.Lacks c ↔ Text.Lacks c file := by
  refine ⟨fun lacks => ?_, tells.shows c control⟩
  rcases tells with system | ⟨named, -⟩
  · exact absurd told system.untold
  · exact lacks file named

theorem of_one_text (one : fault.rawTexts = [file]) : TellsFile file fault := by
  refine .inr ⟨one ▸ List.mem_singleton_self file, fun text member => ?_⟩
  rw [one] at member
  exact .inl (List.mem_singleton.mp member)

theorem of_two_texts {other : String} (two : fault.rawTexts = [file, other]) (printed : Printed other) :
    TellsFile file fault := by
  refine .inr ⟨two ▸ List.mem_cons_self, fun text member => ?_⟩
  rw [two] at member
  rcases List.mem_cons.mp member with rfl | last
  · exact .inl rfl
  · exact .inr (List.mem_singleton.mp last ▸ printed)

end TellsFile

private theorem checkPositive_ends {name key : String} (printed : Printed (dotted name key)) :
    Ends (TellsFile file) (fun _ => ∃ n, 1 ≤ n ∧ setting data name key = .int n) (checkPositive file data name key) := by
  unfold checkPositive
  split
  · next n same =>
    split
    · next positive => exact ⟨n, positive, same⟩
    · exact .of_two_texts rfl printed
  · cases found : (setting data name key).unwritten? Value.writtenRoom with
    | none => exact .of_two_texts rfl printed
    | some fault => exact .inl (Value.stopped_unwritten? _ _ fault found)

private theorem checkSwitch_ends {name key : String} (printed : Printed (dotted name key)) :
    Ends (TellsFile file) (fun _ => ∃ b, setting data name key = .bool b) (checkSwitch file data name key) := by
  unfold checkSwitch
  split
  · next b same => exact ⟨b, same⟩
  · exact .of_two_texts rfl printed

theorem validate_ends : Ends (TellsFile file) (fun _ => Checked data) (validate file data) := by
  have output : Printed "OUTPUT" := fun c control => control.lacks rfl
  have behaviour : Printed "BEHAVIOUR" := fun c control => control.lacks rfl
  refine (checkPositive_ends (output.dotted fun c control => control.lacks rfl)).bind fun _ rowLength => ?_
  refine (checkPositive_ends (behaviour.dotted fun c control => control.lacks rfl)).bind fun _ bound => ?_
  refine (checkSwitch_ends (behaviour.dotted fun c control => control.lacks rfl)).bind fun _ debug => ?_
  refine (checkSwitch_ends (output.dotted fun c control => control.lacks rfl)).bind fun _ color => ?_
  refine (checkSwitch_ends (output.dotted fun c control => control.lacks rfl)).mono (fun _ tells => tells) fun _ pretty => ?_
  exact ⟨rowLength, bound, debug, color, pretty⟩

/-- Only the sections that have defaults are named in a fault. -/
theorem default_section {name : String} (known : (Value.entry? name defaults).isSome = true) :
    name = "BEHAVIOUR" ∨ name = "OUTPUT" := by
  rw [Value.entry?, Option.isSome_map, List.find?_isSome] at known
  obtain ⟨entry, member, same⟩ := known
  rw [← eq_of_beq same]
  rcases List.mem_cons.mp member with rfl | rest
  · exact .inl rfl
  · rw [List.mem_singleton.mp rest]
    exact .inr rfl

theorem overlay_ends (raw : List (String × Value)) : Ends (TellsFile file) (fun _ => True) (overlay file data raw) := by
  induction raw generalizing data with
  | nil => exact trivial
  | cons entry rest ih =>
    obtain ⟨name, value⟩ := entry
    rw [overlay.eq_def]
    dsimp only
    split
    · next known =>
      split
      · exact ih
      · apply TellsFile.of_two_texts rfl
        intro c control
        rcases default_section known with rfl | rfl
        · exact control.lacks rfl
        · exact control.lacks rfl
    · exact ih

theorem ofTable_ends (raw : List (String × Value)) : Ends (TellsFile file) Checked (ofTable file raw) := by
  refine (overlay_ends raw).bind fun data _ => ?_
  exact validate_ends.bind fun _ checked => checked

private theorem decodeFrom_ends (position : Nat) (bytes : List Nat) :
    Ends Fault.System (fun _ => True) (Text.decodeFrom position bytes) := by
  induction position, bytes using Text.decodeFrom.induct with
  | case1 position =>
    rw [Text.decodeFrom]
    trivial
  | case2 position byte rest unknown =>
    rw [Text.decodeFrom, unknown]
    rfl
  | case3 position byte rest bits following least largest known code left read ih =>
    rw [Text.decodeFrom, known]
    dsimp only
    split
    · next same =>
      rw [read] at same
      cases same
      exact ih.map fun _ _ => trivial
    · rfl
    · rfl
  | case4 position byte rest bits following least largest known good read =>
    rw [Text.decodeFrom, known]
    dsimp only
    split
    · next same => rw [read] at same; cases same
    · rfl
    · rfl
  | case5 position byte rest bits following least largest known good read =>
    rw [Text.decodeFrom, known]
    dsimp only
    split
    · next same => rw [read] at same; cases same
    · rfl
    · rfl

theorem parse_ends (content : ByteArray) : Ends (TellsFile file) (fun _ => True) (parse file content) := by
  have decoded : Ends Fault.System (fun _ => True) (Text.decode content) :=
    (decodeFrom_ends _ _).map fun _ _ => trivial
  refine (decoded.mono (fun _ => Or.inl) fun _ same => same).bind fun text _ => ?_
  split
  · exact trivial
  · exact TellsFile.of_one_text rfl
  · exact .inl rfl
  · exact .inl rfl

theorem ofFile_ends (tree : FileTree) (current : Location) (source : Path) :
    Ends (TellsFile source.name) (fun settings => Checked settings.data ∧ settings.source = some source)
      (ofFile tree current source) := by
  refine ((tree.read_ends current source).mono (fun _ => Or.inl) fun _ same => same).bind fun content _ => ?_
  refine (parse_ends content).bind fun raw _ => ?_
  exact (ofTable_ends raw).bind fun data checked => ⟨checked, rfl⟩

/-- What a refusal shows of the place of the settings file: the name if a file is there, the path if not. -/
def shownPlace (tree : FileTree) (current : Location) (source : Path) : String :=
  match tree.contains current source with
  | .ok true => source.name
  | _ => source.text

private theorem lacks_shownPlace {c : Char} (control : Control c) (tree : FileTree) (current : Location) {source : Path}
    (lacks : source.Lacks c) : Text.Lacks c (shownPlace tree current source) := by
  unfold shownPlace
  split
  · exact lacks.name
  · exact lacks.text control

theorem load_of_unexpanded {environment : Environment} {text : String} {fault : Fault} (tree : FileTree)
    (failed : environment.expandPath (Path.ofText text) = .error fault) :
    load environment tree (some text) = .error fault ∧ fault.System :=
  ⟨by simp only [load, failed, bind, Except.bind], (environment.expandPath_ends _).fault failed⟩

theorem load_named_ends {environment : Environment} {text : String} {source : Path} (tree : FileTree)
    (expanded : environment.expandPath (Path.ofText text) = .ok source) :
    Ends (TellsFile (shownPlace tree environment.current.segments source))
      (fun settings => Checked settings.data ∧ settings.source = some source) (load environment tree (some text)) := by
  cases found : tree.contains environment.current.segments source with
  | error fault =>
    simp only [load, expanded, found, bind, Except.bind]
    exact .inl ((tree.contains_ends _ source).fault found)
  | ok there =>
    cases there with
    | true =>
      simp only [load, expanded, found, shownPlace, bind, Except.bind, if_true]
      exact ofFile_ends tree _ source
    | false =>
      simp only [load, expanded, found, shownPlace, bind, Except.bind, Bool.false_eq_true, if_false]
      exact TellsFile.of_one_text rfl

/-- The workspace's file always has the same name. -/
theorem load_workspace_ends (environment : Environment) (tree : FileTree) :
    Ends (TellsFile "settings.toml")
      (fun settings => Checked settings.data ∧ ∀ path, settings.source = some path → environment.settingsPath = .ok path)
      (load environment tree none) := by
  cases placed : environment.settingsPath with
  | error fault =>
    simp only [load, placed, bind, Except.bind]
    exact .inl (environment.settingsPath_ends.fault placed)
  | ok source =>
    have named : source.name = "settings.toml" := Environment.name_settingsPath placed
    simp only [load, placed, bind, Except.bind]
    refine ((tree.contains_ends environment.current.segments source).mono (fun _ => Or.inl) fun _ same => same).bind
      fun found _ => ?_
    cases found with
    | true =>
      rw [← named]
      refine (ofFile_ends tree _ source).mono (fun _ tells => tells) ?_
      rintro settings ⟨checked, same⟩
      exact ⟨checked, fun path other => congrArg Except.ok (Option.some.inj (same.symm.trans other))⟩
    | false => exact ⟨checked_defaults, fun _ other => by cases other⟩

/-- How settings load. What goes wrong holds a character only if what was typed or the
surroundings do, and so does the path of the file that they come from. -/
theorem load_ends (environment : Environment) (tree : FileTree) (named : Option String) :
    Ends (fun fault => ∀ c, Control c → environment.Lacks c → (∀ text, named = some text → Text.Lacks c text) →
        fault.Lacks c)
      (fun settings => Checked settings.data ∧ ∀ c, Control c → environment.Lacks c →
        (∀ text, named = some text → Text.Lacks c text) → ∀ path, settings.source = some path → path.Lacks c)
      (load environment tree named) := by
  cases named with
  | none =>
    refine (load_workspace_ends environment tree).mono ?_ ?_
    · exact fun fault tells c control _ _ => tells.shows c control (control.lacks rfl)
    · rintro settings ⟨checked, placed⟩
      refine ⟨checked, fun c control surroundings _ path same => ?_⟩
      exact environment.settingsPath_ends.answer (placed path same) c control surroundings
  | some text =>
    cases expanded : environment.expandPath (Path.ofText text) with
    | error fault =>
      obtain ⟨failed, system⟩ := load_of_unexpanded tree expanded
      rw [failed]
      exact fun _ _ _ _ => system.lacks
    | ok source =>
      have made : ∀ c, Control c → environment.Lacks c → (∀ other, some text = some other → Text.Lacks c other) →
          source.Lacks c := by
        intro c control surroundings typed
        exact (environment.expandPath_ends _).answer expanded c control surroundings (Path.lacks_ofText (typed text rfl))
      refine (load_named_ends tree expanded).mono ?_ ?_
      · intro fault tells c control surroundings typed
        exact tells.shows c control (lacks_shownPlace control tree _ (made c control surroundings typed))
      · rintro settings ⟨checked, same⟩
        refine ⟨checked, fun c control surroundings typed path other => ?_⟩
        cases same.symm.trans other
        exact made c control surroundings typed

end Settings

namespace Context
open Settings (setting Checked)

variable {data : List (String × Value)}

private theorem descend_setting {name key : String} {value : Value} (held : setting data name key = value)
    (present : value ≠ .null) : descend (.table data) [name, key] = some value := by
  unfold setting Settings.entriesOf at held
  simp only [descend, Value.get?]
  cases found : Value.entry? name data with
  | none =>
    rw [found] at held
    exact absurd held.symm present
  | some inner =>
    rw [found] at held
    cases inner with
    | table entries =>
      simp only at held ⊢
      cases known : Value.entry? key entries with
      | none =>
        rw [known] at held
        exact absurd held.symm present
      | some other =>
        rw [known] at held
        exact congrArg some held
    | _ => exact absurd held.symm present

/-- A setting is looked up by its dotted name. -/
theorem lookUp_setting {name key path : String} {value : Value} (held : setting data name key = value)
    (present : value ≠ .null) (cut : parts path = [name, key]) (default : Value) : lookUp data path default = value := by
  have named : path ≠ "" := by
    rintro rfl
    cases cut
  rw [lookUp_eq_descend named, cut, descend_setting held present]
  rfl

theorem apply_debug (checked : Checked data) (profile : Value) :
    (apply data profile).debug = true ↔ setting data "BEHAVIOUR" "DEBUG" = .bool true := by
  obtain ⟨b, held⟩ := checked.debug
  have read : (apply data profile).debug = b :=
    congrArg Value.truth (lookUp_setting held (by simp) (by decide) (.bool false))
  rw [read, held, Value.bool.injEq]

theorem apply_color (checked : Checked data) (profile : Value) :
    (apply data profile).color = false ↔ setting data "OUTPUT" "COLOR" = .bool false := by
  obtain ⟨b, held⟩ := checked.color
  have read : (apply data profile).color = b :=
    congrArg Value.truth (lookUp_setting held (by simp) (by decide) (.bool true))
  rw [read, held, Value.bool.injEq]

end Context
end Surd
