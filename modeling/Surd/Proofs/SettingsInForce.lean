import Surd.Proofs.HeaderTexts
import Surd.Proofs.RunIndependence
import Surd.Proofs.SettingsOverlay

/-! Settings from their file on to where they are looked up. A file that is found, read and parsed loads
just when its table is well typed. What it holds, and the defaults it leaves alone, are then in force under
their dotted names. -/

namespace Surd

private theorem FileTree.contains_of_read {tree : FileTree} {current : Location} {path : Path} {content : ByteArray}
    (read : tree.read current path = .ok content) : tree.contains current path = .ok true := by
  unfold FileTree.read at read
  unfold contains
  split at read
  · cases read
  · next location located =>
    rw [located]
    dsimp only
    split at read
    · next file => rw [file, Option.isSome_some]
    · next sink => rw [sink, Option.isSome_some]
    · cases read
    · cases read

namespace Settings

/-- Where settings are looked for: in the file that was named, or in the workspace's. -/
def Located (environment : Environment) (named : Option String) (source : Path) : Prop :=
  match named with
  | none => environment.settingsPath = .ok source
  | some text => environment.expandPath (Path.ofText text) = .ok source

section
variable {environment : Environment} {tree : FileTree} {named : Option String} {source : Path} {content : ByteArray}
  {raw : List (String × Value)} (located : Located environment named source)
  (read : tree.read environment.current.segments source = .ok content)
include located read

theorem load_of_read : load environment tree named = ofFile tree environment.current.segments source := by
  have present := FileTree.contains_of_read read
  unfold load
  cases named with
  | none =>
    have path : environment.settingsPath = .ok source := located
    simp only [path, present, bind, Except.bind, if_true]
  | some text =>
    have path : environment.expandPath (Path.ofText text) = .ok source := located
    simp only [path, present, bind, Except.bind, if_true]

theorem load_of_parsed (parsed : parse source.name content = .ok raw) :
    load environment tree named = (ofTable source.name raw).map fun data => ⟨data, source.stem, some source⟩ := by
  rw [load_of_read located read]
  unfold ofFile
  simp only [read, parsed, bind, Except.bind]
  cases ofTable source.name raw with
  | error fault => rfl
  | ok data => rfl

end

private theorem parse_named {file : String} {content : ByteArray} {raw : List (String × Value)}
    (parsed : parse file content = .ok raw) : Named Value.Distinct raw := by
  have ends : Ends (fun _ => True) (Named Value.Distinct) (parse file content) := by
    have decoded : Ends (fun _ => True) (fun _ => True) (Text.decode content) := by
      cases Text.decode content with
      | error fault => trivial
      | ok text => trivial
    refine decoded.bind fun text _ => ?_
    split
    · next found => exact (Toml.read_named text).answer found
    · trivial
    · trivial
    · trivial
  exact ends.answer parsed

/-- Settings that take effect are found again by their dotted names, and the switches are set from them. -/
structure InForce (context : Context) (debug color pretty : Bool) (rowLength bound : Int) : Prop where
  debug : context.debug = debug ∧ ∀ standard, context.get "BEHAVIOUR.DEBUG" standard = .bool debug
  color : context.color = color ∧ ∀ standard, context.get "OUTPUT.COLOR" standard = .bool color
  pretty : ∀ standard, context.get "OUTPUT.PRETTY" standard = .bool pretty
  rowLength : ∀ standard, context.get "OUTPUT.PRIMES_PER_ROW" standard = .int rowLength
  bound : ∀ standard, context.get "BEHAVIOUR.MAX_PRIMES_BOUND" standard = .int bound

private theorem held?_of_setting {data : List (String × Value)} {name key : String} {value : Value}
    (same : setting data name key = value) (present : value ≠ .null) : held? data name key = some value := by
  rw [setting_eq] at same
  cases held : held? data name key with
  | none =>
    rw [held] at same
    exact absurd same.symm present
  | some other =>
    rw [held] at same
    exact congrArg some same

private theorem inForce_adopt {data : List (String × Value)} {debug color pretty : Bool} {rowLength bound : Int}
    (debugs : setting data "BEHAVIOUR" "DEBUG" = .bool debug) (colors : setting data "OUTPUT" "COLOR" = .bool color)
    (pretties : setting data "OUTPUT" "PRETTY" = .bool pretty)
    (rows : setting data "OUTPUT" "PRIMES_PER_ROW" = .int rowLength)
    (bounds : setting data "BEHAVIOUR" "MAX_PRIMES_BOUND" = .int bound) (context : Context) (profile : Value) :
    InForce (context.adopt data profile) debug color pretty rowLength bound := by
  have found : ∀ {name key path : String} {value : Value}, setting data name key = value → value ≠ .null →
      Context.parts path = [name, key] → ∀ standard, (context.adopt data profile).get path standard = value :=
    fun same present cut standard => Context.lookUp_setting same present cut standard
  have debugFound : ∀ standard, (context.adopt data profile).get "BEHAVIOUR.DEBUG" standard = .bool debug :=
    found debugs (by simp) (by decide)
  have colorFound : ∀ standard, (context.adopt data profile).get "OUTPUT.COLOR" standard = .bool color :=
    found colors (by simp) (by decide)
  exact ⟨⟨congrArg Value.truth (debugFound (.bool false)), debugFound⟩, ⟨congrArg Value.truth (colorFound (.bool true)), colorFound⟩,
    found pretties (by simp) (by decide), found rows (by simp) (by decide), found bounds (by simp) (by decide)⟩

/-- A file that is read and parsed. It loads just when it is well typed, and is refused as the user's
otherwise, unless the number to be told is nested too deep. What loads holds under each key what the file
has there, or else the default, and takes effect as it is held. -/
theorem load_overlay {environment : Environment} {tree : FileTree} {named : Option String} {source : Path}
    {content : ByteArray} {raw : List (String × Value)} (located : Located environment named source)
    (read : tree.read environment.current.segments source = .ok content) (parsed : parse source.name content = .ok raw)
    (writable : Value.entriesWritable raw = true) :
    (WellTyped raw ↔ ∃ settings, load environment tree named = .ok settings) ∧
      (∀ fault, load environment tree named = .error fault →
        fault.kind = .userInput ∨ fault = .tooDeepToWrite ∧ NestedNumber raw) ∧
      ∀ settings, load environment tree named = .ok settings →
        settings.name = source.stem ∧ settings.source = some source ∧
          (∀ name key, held? settings.data name key = (held? raw name key).or (held? defaults name key)) ∧
          (∀ name, Value.entry? name defaults = none → Value.entry? name settings.data = Value.entry? name raw) ∧
          ∃ debug color pretty rowLength bound, 1 ≤ rowLength ∧ 1 ≤ bound ∧
            held? settings.data "BEHAVIOUR" "DEBUG" = some (.bool debug) ∧
            held? settings.data "OUTPUT" "COLOR" = some (.bool color) ∧
            held? settings.data "OUTPUT" "PRETTY" = some (.bool pretty) ∧
            held? settings.data "OUTPUT" "PRIMES_PER_ROW" = some (.int rowLength) ∧
            held? settings.data "BEHAVIOUR" "MAX_PRIMES_BOUND" = some (.int bound) ∧
            ∀ context profile, InForce (Context.adopt context settings.data profile) debug color pretty rowLength bound := by
  have settles : Ends _ _ (ofTable source.name raw) := ofTable_settles (parse_named parsed) writable
  rw [load_of_parsed located read parsed]
  cases made : ofTable source.name raw with
  | error fault =>
    obtain ⟨ill, reason⟩ := settles.fault made
    refine ⟨⟨fun typed => absurd typed ill, ?_⟩, ?_, ?_⟩
    · rintro ⟨settings, ⟨⟩⟩
    · rintro _ ⟨⟩
      exact reason
    · rintro settings ⟨⟩
  | ok data =>
    obtain ⟨typed, merges, checked, unknown⟩ := settles.answer made
    refine ⟨⟨fun _ => ⟨_, rfl⟩, fun _ => typed⟩, ?_, ?_⟩
    · rintro fault ⟨⟩
    · rintro settings ⟨⟩
      obtain ⟨⟨rowLength, rowPositive, rows⟩, ⟨bound, boundPositive, bounds⟩, ⟨debug, debugs⟩, ⟨color, colors⟩,
        ⟨pretty, pretties⟩⟩ := checked
      exact ⟨rfl, rfl, merges, unknown, debug, color, pretty, rowLength, bound, rowPositive, boundPositive,
        held?_of_setting debugs (by simp), held?_of_setting colors (by simp), held?_of_setting pretties (by simp),
        held?_of_setting rows (by simp), held?_of_setting bounds (by simp),
        inForce_adopt debugs colors pretties rows bounds⟩

/-- A workspace whose settings are one header. -/
def headed (names : List (List Char)) : FileTree :=
  ⟨[(["w"], .directory), (["w", "settings.toml"], .file (Text.narrowBytes (Toml.headerText names)))]⟩

/-- A key that has no default stands beside the defaults of its section. -/
theorem load_overlay_extra_key :
    ∃ settings, load Session.surroundings (headed ["OUTPUT".toList, "THEME".toList]) none = .ok settings ∧
      held? settings.data "OUTPUT" "THEME" = some (.table []) ∧
      held? settings.data "OUTPUT" "PRIMES_PER_ROW" = some (.int 10) := by
  have proper : ∀ name ∈ ["OUTPUT".toList, "THEME".toList], Toml.BareName name :=
    List.forall_mem_cons.mpr ⟨by decide, List.forall_mem_singleton.mpr (by decide)⟩
  have typed : WellTyped [("OUTPUT", .table [("THEME", .table [])])] := by
    refine ⟨fun entry member _ => ⟨[("THEME", .table [])], ?_⟩, ?_, ?_, ?_, ?_, ?_⟩
    · rw [List.mem_singleton.mp member]
    all_goals
      rintro value ⟨⟩
  have parsed := parse_headerText proper (List.cons_ne_nil _ _) "settings.toml"
  have overlaid := @load_overlay Session.surroundings (headed ["OUTPUT".toList, "THEME".toList]) none
    ⟨.single, ["w", "settings.toml"]⟩ _ _ rfl rfl parsed (Value.entriesWritable_along _)
  obtain ⟨settings, loaded⟩ := overlaid.1.mp typed
  obtain ⟨-, -, merges, -⟩ := overlaid.2.2 settings loaded
  exact ⟨settings, loaded, merges _ _, merges _ _⟩

private theorem ofTable_nested {names : List String} (deep : Value.writtenRoom ≤ names.length) (file : String) :
    ofTable file (Toml.along ("OUTPUT" :: "PRIMES_PER_ROW" :: names)) = .error .tooDeepToWrite := by
  have stopped : (Value.table (Toml.along names)).unwritten? Value.writtenRoom = some .tooDeepToWrite := by
    have writable : (Value.table (Toml.along names)).isWritable = true := by
      rw [Value.isWritable, Value.entriesWritable_along]
    rw [Value.unwritten?_eq _ _ writable, Value.tooDeep?, Value.depth, Value.entriesDepth_along, if_neg (by omega)]
  have refused : ∀ data, setting data "OUTPUT" "PRIMES_PER_ROW" = .table (Toml.along names) →
      validate file data = .error .tooDeepToWrite := by
    intro data same
    simp only [validate, checkPositive, same, stopped, Option.getD_some, bind, Except.bind]
  obtain ⟨data, laidOver, same⟩ : ∃ data, overlay file defaults (Toml.along ("OUTPUT" :: "PRIMES_PER_ROW" :: names)) =
      .ok data ∧ setting data "OUTPUT" "PRIMES_PER_ROW" = .table (Toml.along names) := ⟨_, rfl, rfl⟩
  simp only [ofTable, laidOver, refused data same, bind, Except.bind]

/-- A header that goes too deep where a number should be: the table is well formed, the setting is not, and
what stops the loading is no fault of the user's. -/
theorem nested_number_unrefused :
    let names := "OUTPUT".toList :: "PRIMES_PER_ROW".toList :: List.replicate 1200 ['a']
    (∃ raw, parse "settings.toml" (Text.narrowBytes (Toml.headerText names)) = .ok raw ∧
      Value.entriesWritable raw = true ∧ ¬WellTyped raw) ∧
      load Session.surroundings (headed names) none = .error .tooDeepToWrite ∧
      Fault.tooDeepToWrite.kind ≠ .userInput := by
  intro names
  have inner : ∀ name ∈ List.replicate 1200 ['a'], Toml.BareName name := by
    intro name member
    rw [List.eq_of_mem_replicate member]
    decide
  have proper : ∀ name ∈ names, Toml.BareName name :=
    List.forall_mem_cons.mpr ⟨by decide, List.forall_mem_cons.mpr ⟨by decide, inner⟩⟩
  have parsed := parse_headerText proper (List.cons_ne_nil _ _) "settings.toml"
  have shape : names.map String.ofList =
      "OUTPUT" :: "PRIMES_PER_ROW" :: (List.replicate 1200 ['a']).map String.ofList := rfl
  have deep : Value.writtenRoom ≤ ((List.replicate 1200 ['a']).map String.ofList).length := by
    rw [List.length_map, List.length_replicate]
    decide
  rw [shape] at parsed
  refine ⟨⟨_, parsed, Value.entriesWritable_along _, ?_⟩, ?_, by decide⟩
  · intro typed
    obtain ⟨n, -, same⟩ := typed.rowLength _ rfl
    cases same
  · have located : Located Session.surroundings none ⟨.single, ["w", "settings.toml"]⟩ := rfl
    rw [load_of_parsed located rfl parsed, ofTable_nested deep]
    rfl

end Settings
end Surd
