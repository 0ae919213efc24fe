import Surd.CommandLine.Request
import Surd.Proofs.CodeRemoval
import Surd.Proofs.FaultTexts

/-! Command lines without an escape character. Reading one cuts its words and puts them into texts of
its own, so that neither a refusal nor the place of the settings file holds what was not typed. -/

namespace Surd.CommandLine
open Text Ansi

/-- A word with nothing in it, nor in the value attached to it, that is an escape character. -/
def Word.Plain : Word → Prop
  | .operand text => Lacks escape text
  | .separator => True
  | .option text use => Lacks escape text ∧ ∀ value, use.bind Use.attached = some value → Lacks escape value

theorem Word.Plain.text {word : Word} (plain : word.Plain) : Lacks escape word.text := by
  cases word with
  | operand text => exact plain
  | separator => decide
  | option text use => exact plain.1

theorem Word.Plain.bare {text : String} (typed : Lacks escape text) {use : Option Use} (none : use.bind Use.attached = none) :
    (Word.option text use).Plain := by
  refine ⟨typed, fun value attached => ?_⟩
  rw [none] at attached
  cases attached

/-- A stop that shows no escape character if it is a refusal. -/
def Stop.Plain : Stop → Prop
  | .shown _ => True
  | .refused text => Lacks escape text

/-- A level of the command line whose own texts have no escape character. -/
structure Grammar.Plain (grammar : Grammar) : Prop where
  program : Lacks escape grammar.program
  usage : Lacks escape grammar.usage

theorem lacks_lines {texts : List String} (each : ∀ text ∈ texts, Lacks escape text) : Lacks escape (lines texts) := by
  rw [lines, lacks_join]
  intro line member
  obtain ⟨text, inside, rfl⟩ := List.mem_map.mp member
  exact lacks_append.mpr ⟨each text inside, by decide⟩

theorem mainGrammar_plain : mainGrammar.Plain := by
  refine ⟨control_escape.lacks rfl, lacks_lines ?_⟩
  simp only [List.forall_mem_cons]
  exact ⟨control_escape.lacks rfl, control_escape.lacks rfl, control_escape.lacks rfl, List.forall_mem_nil _⟩

theorem CommandName.lacks_text (name : CommandName) : Lacks escape name.text := by
  cases name <;> exact control_escape.lacks rfl

theorem CommandName.lacks_operand (name : CommandName) : Lacks escape name.operand := by
  cases name <;> exact control_escape.lacks rfl

theorem CommandName.grammar_plain (name : CommandName) : name.grammar.Plain := by
  have program : Lacks escape programName := control_escape.lacks rfl
  refine ⟨lacks_append.mpr ⟨lacks_append.mpr ⟨program, control_escape.lacks rfl⟩, name.lacks_text⟩, lacks_lines ?_⟩
  intro line member
  rw [List.mem_singleton.mp member]
  cases name <;>
    simp (disch := decide) only [lacks_append, lacks_toString, program, CommandName.lacks_text, CommandName.lacks_operand,
      control_escape.lacks, and_self]

theorem Flag.lacks_name (flag : Flag) : ∀ name ∈ flag.names, Lacks escape name := by
  cases flag <;> decide

variable {grammar : Grammar} {text : String}

theorem refuse_plain (plain : grammar.Plain) {message : String} (lacks : Lacks escape message) :
    (refuse grammar message).Plain := by
  have lineEnd : Lacks escape "\n" := by decide
  refine lacks_append.mpr ⟨plain.usage, ?_⟩
  simp (disch := decide) only [lacks_append, lacks_toString, plain.program, lacks, lineEnd, control_escape.lacks, and_self]

theorem refuseFlag_plain (plain : grammar.Plain) (flag : Flag) {message : String} (lacks : Lacks escape message) :
    (refuseFlag grammar flag message).Plain := by
  have label : Lacks escape flag.label := Lacks.intercalate (control_escape.lacks rfl) flag.lacks_name
  apply refuse_plain plain
  simp (disch := decide) only [lacks_append, lacks_toString, label, lacks, control_escape.lacks, and_self]

namespace Grammar

private theorem lacks_known {entry : String × Flag} (member : entry ∈ grammar.known) : Lacks escape entry.1 := by
  obtain ⟨flag, -, inside⟩ := List.mem_flatMap.mp member
  obtain ⟨name, among, rfl⟩ := List.mem_map.mp inside
  exact flag.lacks_name name among

theorem lacks_value {text : List Char} (typed : escape ∉ text) {value : List Char}
    (cut : (splitValue text).2 = some value) : escape ∉ value := by
  unfold splitValue at cut
  split at cut
  · cases cut
  · next mark rest behind =>
    cases cut
    intro member
    exact typed ((List.dropWhile_sublist _).subset (behind ▸ List.mem_cons_of_mem mark member))

theorem unknown_plain (typed : Lacks escape text) : (unknown text).Plain := by
  unfold unknown
  split
  · exact typed
  · exact .bare typed rfl

private theorem long_ends (grammar : Grammar) (typed : Lacks escape text) : Ends (Lacks escape) Word.Plain (grammar.long text) := by
  have known : ∀ flag, (Word.option text (some ⟨flag, false, (splitValue text.toList).2.map String.ofList⟩)).Plain := by
    intro flag
    refine ⟨typed, fun value attached => ?_⟩
    obtain ⟨piece, cut, rfl⟩ := Option.map_eq_some_iff.mp attached
    exact lacks_ofList.mpr (lacks_value typed cut)
  unfold long
  dsimp only
  split
  · next flag _ => exact known flag
  · split
    · exact unknown_plain typed
    · next name flag _ => exact known flag
    · have names : Lacks escape (", ".intercalate ((grammar.startingWith (splitValue text.toList).1).map Prod.fst)) := by
        refine Lacks.intercalate (control_escape.lacks rfl) fun name member => ?_
        obtain ⟨entry, inside, rfl⟩ := List.mem_map.mp member
        exact lacks_known (List.mem_filter.mp inside).1
      change Lacks escape _
      simp (disch := decide) only [lacks_append, lacks_toString, typed, names, control_escape.lacks, and_self]

private theorem short_plain (grammar : Grammar) (typed : Lacks escape text) : (grammar.short text).Plain := by
  unfold short
  dsimp only
  split
  · next value flag cut _ =>
    refine ⟨typed, ?_⟩
    rintro _ ⟨⟩
    exact lacks_ofList.mpr (lacks_value typed cut)
  · split
    · refine ⟨typed, ?_⟩
      rintro _ ⟨⟩
      exact lacks_ofList.mpr fun member => typed (List.mem_of_mem_drop member)
    · exact unknown_plain typed

private theorem classify_ends (grammar : Grammar) (typed : Lacks escape text) :
    Ends (Lacks escape) Word.Plain (grammar.classify text) := by
  unfold classify
  split
  · exact typed
  · split
    · exact typed
    · split
      · exact Word.Plain.bare typed rfl
      · exact typed
      · split
        · exact grammar.long_ends typed
        · exact grammar.short_plain typed

theorem words_ends (grammar : Grammar) {texts : List String} (typed : ∀ text ∈ texts, Lacks escape text) :
    Ends (Lacks escape) (fun words => ∀ word ∈ words, word.Plain) (grammar.words texts) := by
  induction texts with
  | nil => exact List.forall_mem_nil _
  | cons text rest ih =>
    obtain ⟨first, others⟩ := List.forall_mem_cons.mp typed
    unfold words
    split
    · change ∀ word ∈ Word.separator :: rest.map .operand, word.Plain
      refine List.forall_mem_cons.mpr ⟨trivial, fun word member => ?_⟩
      obtain ⟨text, inside, rfl⟩ := List.mem_map.mp member
      exact others text inside
    · refine (grammar.classify_ends first).bind fun word plain => ?_
      refine (ih others).bind fun words each => ?_
      exact List.forall_mem_cons.mpr ⟨plain, each⟩

end Grammar

/-- What has been read, with no escape character in the place of the settings file and in what nobody
knows. -/
structure Options.Plain (options : Options) : Prop where
  config : ∀ text, options.config = some (.value text) → Lacks escape text
  unknown : ∀ text ∈ options.unknown, Lacks escape text

namespace Options
variable {options : Options}

theorem plain_initial : Plain {} := by
  refine ⟨fun text none => ?_, fun text none => ?_⟩
  · cases none
  · cases none

theorem Plain.leave (plain : options.Plain) (typed : Lacks escape text) : (options.leave text).Plain := by
  refine ⟨plain.config, fun other member => ?_⟩
  rcases List.mem_append.mp member with before | last
  · exact plain.unknown other before
  · rwa [List.mem_singleton.mp last]

theorem Plain.take (plain : options.Plain) (text : String) : (options.take text).Plain := ⟨plain.config, plain.unknown⟩

private theorem turn_ends (grammar : Grammar) (plain : options.Plain) (flag : Flag) :
    Ends Stop.Plain Plain (options.turn grammar flag) := by
  cases flag with
  | help => exact trivial
  | version => exact trivial
  | _ => exact ⟨plain.config, plain.unknown⟩

private theorem set_ends (level : grammar.Plain) (plain : options.Plain) (flag : Flag) {given : Given String}
    (typed : ∀ text, given = .value text → Lacks escape text) : Ends Stop.Plain Plain (options.set grammar flag given) := by
  unfold set
  split
  · refine ⟨?_, plain.unknown⟩
    rintro text ⟨⟩
    exact typed text rfl
  · exact ⟨plain.config, plain.unknown⟩
  · exact ⟨plain.config, plain.unknown⟩
  · split
    · exact ⟨plain.config, plain.unknown⟩
    · apply refuseFlag_plain level
      simp (disch := decide) only [lacks_append, lacks_toString, control_escape.lacks_quoted, control_escape.lacks, and_self]
  · exact plain

end Options

theorem readOption_ends (level : grammar.Plain) {options : Options} (plain : options.Plain) {use : Use}
    {rest : List Word} (attached : ∀ value, use.attached = some value → Lacks escape value)
    (each : ∀ word ∈ rest, word.Plain) :
    Ends Stop.Plain (fun read => read.1.Plain ∧ ∀ word ∈ read.2, word.Plain) (readOption grammar options use rest) := by
  unfold readOption
  split
  · split
    · next text given =>
      refine (Options.set_ends level plain use.flag ?_).map fun _ kept => ⟨kept, each⟩
      intro value same
      unfold attachedValue at same
      split at same
      · cases same
      · cases same
        exact attached text given
    · next text after =>
      obtain ⟨first, others⟩ := List.forall_mem_cons.mp each
      refine (Options.set_ends level plain use.flag ?_).map fun _ kept => ⟨kept, others⟩
      rintro _ ⟨⟩
      exact first
    · exact refuseFlag_plain level use.flag (control_escape.lacks rfl)
  · split
    · apply refuseFlag_plain level
      simp (disch := decide) only [lacks_append, lacks_toString, control_escape.lacks_quoted, control_escape.lacks, and_self]
    · exact (Options.turn_ends grammar plain use.flag).map fun _ kept => ⟨kept, each⟩

private theorem dropSeparator_plain {words : List Word} (each : ∀ word ∈ words, word.Plain) :
    ∀ word ∈ dropSeparator words, word.Plain := by
  unfold dropSeparator
  split
  · exact (List.forall_mem_cons.mp each).2
  · exact each

theorem readCommand_ends (level : grammar.Plain) {options : Options} (plain : options.Plain) {words : List Word}
    (each : ∀ word ∈ words, word.Plain) : Ends Stop.Plain Options.Plain (readCommand grammar options words) := by
  induction options, words using readCommand.induct grammar with
  | case1 options =>
    rw [readCommand]
    exact plain
  | case2 options text rest full ih =>
    obtain ⟨first, others⟩ := List.forall_mem_cons.mp each
    rw [readCommand, if_pos full]
    exact ih (plain.leave first) others
  | case3 options text rest free ih =>
    obtain ⟨-, others⟩ := List.forall_mem_cons.mp each
    rw [readCommand, if_neg free]
    exact ih (plain.take text) (dropSeparator_plain others)
  | case4 options rest full ih =>
    obtain ⟨-, others⟩ := List.forall_mem_cons.mp each
    rw [readCommand.eq_def]
    dsimp only
    rw [if_pos full]
    exact ih (plain.leave (by decide)) others
  | case5 options free text after ih =>
    obtain ⟨-, others⟩ := List.forall_mem_cons.mp each
    rw [readCommand, if_neg free]
    exact ih (plain.take text) (List.forall_mem_cons.mp others).2
  | case6 options rest free apart ih =>
    obtain ⟨-, others⟩ := List.forall_mem_cons.mp each
    rw [readCommand, if_neg free]
    · exact ih (plain.leave (by decide)) others
    · exact apart
  | case7 options text rest ih =>
    obtain ⟨first, others⟩ := List.forall_mem_cons.mp each
    rw [readCommand]
    exact ih (plain.leave first.1) others
  | case8 options text use rest stop read =>
    obtain ⟨first, others⟩ := List.forall_mem_cons.mp each
    rw [readCommand_of_refused read]
    exact (readOption_ends level plain first.2 others).fault read
  | case9 options text use rest after left read ih =>
    obtain ⟨first, others⟩ := List.forall_mem_cons.mp each
    obtain ⟨kept, remaining⟩ := (readOption_ends level plain first.2 others).answer read
    rw [readCommand_of_read read]
    exact ih kept remaining

theorem command_ends (name : CommandName) {texts : List String} (typed : ∀ text ∈ texts, Lacks escape text) :
    Ends Stop.Plain (fun read => ∀ text ∈ read.2, Lacks escape text) (command name texts) := by
  have level := name.grammar_plain
  have words := (name.grammar.words_ends typed).mapError fun message => refuse_plain level
  refine words.bind fun words each => ?_
  refine (readCommand_ends level Options.plain_initial each).bind fun options plain => ?_
  split
  · apply refuse_plain level
    simp (disch := decide) only [lacks_append, lacks_toString, name.lacks_operand, control_escape.lacks, and_self]
  · exact plain.unknown

/-- A request whose settings file, if one is named, has no escape character in its name. -/
def Request.Plain (request : Request) : Prop := ∀ text, request.config = some (.value text) → Lacks escape text

private theorem dispatch_ends {options : Options} (plain : options.Plain) (name : String) {rest : List Word}
    (each : ∀ word ∈ rest, word.Plain) : Ends Stop.Plain Request.Plain (dispatch options name rest) := by
  unfold dispatch
  split
  · apply refuse_plain mainGrammar_plain
    have choices : Lacks escape (", ".intercalate (CommandName.all.map fun command => Text.quoted command.text)) := by
      refine Lacks.intercalate (control_escape.lacks rfl) fun text member => ?_
      obtain ⟨command, -, rfl⟩ := List.mem_map.mp member
      exact control_escape.lacks_quoted command.text
    simp (disch := decide) only [lacks_append, lacks_toString, choices, control_escape.lacks_quoted, control_escape.lacks,
      and_self]
  · next name _ =>
    have typed : ∀ text ∈ rest.map Word.text, Lacks escape text := by
      intro text member
      obtain ⟨word, inside, rfl⟩ := List.mem_map.mp member
      exact (each word inside).text
    refine (command_ends name typed).bind fun read unknown => ?_
    dsimp only
    split
    · exact plain.config
    · have left : Lacks escape (" ".intercalate (options.unknown ++ read.2)) :=
        Lacks.intercalate (control_escape.lacks rfl) (List.forall_mem_append.mpr ⟨plain.unknown, unknown⟩)
      apply refuse_plain mainGrammar_plain
      simp (disch := decide) only [lacks_append, lacks_toString, left, control_escape.lacks, and_self]

theorem readMain_ends {options : Options} (plain : options.Plain) {words : List Word}
    (each : ∀ word ∈ words, word.Plain) : Ends Stop.Plain Request.Plain (readMain options words) := by
  have missing : commandMissing.Plain := refuse_plain mainGrammar_plain (control_escape.lacks rfl)
  induction options, words using readMain.induct with
  | case1 options =>
    rw [readMain]
    exact missing
  | case2 options name rest =>
    rw [readMain]
    exact dispatch_ends plain name (List.forall_mem_cons.mp each).2
  | case3 options rest last =>
    rw [readMain, if_pos last]
    exact missing
  | case4 options rest further =>
    rw [readMain, if_neg further]
    exact dispatch_ends plain "--" (List.forall_mem_cons.mp each).2
  | case5 options text rest ih =>
    obtain ⟨first, others⟩ := List.forall_mem_cons.mp each
    rw [readMain]
    exact ih (plain.leave first.1) others
  | case6 options text use rest stop read =>
    obtain ⟨first, others⟩ := List.forall_mem_cons.mp each
    rw [readMain_of_refused read]
    exact (readOption_ends mainGrammar_plain plain first.2 others).fault read
  | case7 options text use rest after left read ih =>
    obtain ⟨first, others⟩ := List.forall_mem_cons.mp each
    obtain ⟨kept, remaining⟩ := (readOption_ends mainGrammar_plain plain first.2 others).answer read
    rw [readMain_of_read read]
    exact ih kept remaining

theorem request_ends {texts : List String} (typed : ∀ text ∈ texts, Lacks escape text) :
    Ends Stop.Plain Request.Plain (request texts) := by
  have words := (mainGrammar.words_ends typed).mapError fun message => refuse_plain mainGrammar_plain
  exact words.bind fun words each => readMain_ends Options.plain_initial each

end Surd.CommandLine
