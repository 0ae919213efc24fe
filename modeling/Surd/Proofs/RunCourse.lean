import Surd.Proofs.CommandAnswers
import Surd.Proofs.LoadedSettings
import Surd.Proofs.RunIndependence

/-! A run in two halves. Its course is how far the request gets and with what: the settings, the
answer, what is done to the files, the fault that stops it. What is on a terminal, colours, traces and
what earlier runs left have no part in it, but for pictures. They only decide how the course is told,
which is the other half. -/

namespace Surd

/-- Pictures hold no escape character, whether they go to a terminal or not. -/
def Environment.DrawsPlainly (environment : Environment) : Prop :=
  ∀ terminal root, Text.Lacks Ansi.escape (environment.draw terminal root)

namespace Session
open CommandLine (Request)

/-- How far a request gets, and with what. Before its settings are in force nothing is done. -/
inductive Course where
  | interrupted (settings : Option Settings) (done : List Action)
  | unloaded (fault : Fault)
  | incomplete (settings : Settings)
  | faulted (settings : Settings) (fault : Fault)
  | answered (settings : Settings) (result : Result)
  | unsaved (settings : Settings) (result : Result) (changes : List Action) (fault : Fault)
  | saved (settings : Settings) (result : Result) (changes : List Action) (path : Path)

def answer (environment : Environment) (call : Call) (settings : Settings) (request : Request) : Except Fault Result :=
  request.command.execute (environment.draw call.stdoutTerminal) (.apply settings.data (.text settings.name))

/-- How far a request gets that the user does not break off. -/
def undisturbed (environment : Environment) (call : Call) (tree : FileTree) (request : Request) : Course :=
  match loadSettings environment tree request.config with
  | .error fault => .unloaded fault
  | .ok settings =>
    if !call.complete then .incomplete settings
    else
      match answer environment call settings request with
      | .error fault => .faulted settings fault
      | .ok result =>
        match outputText request with
        | none => .answered settings result
        | some target =>
          let saving := save environment tree target result.text
          match saving.result with
          | .error fault => .unsaved settings result saving.actions fault
          | .ok path => .saved settings result saving.actions path

namespace Course

def settings? : Course → Option Settings
  | .interrupted settings _ => settings
  | .unloaded _ => none
  | .incomplete settings | .faulted settings _ | .answered settings _ | .unsaved settings _ _ _
  | .saved settings _ _ _ => some settings

/-- The context at the end: the one that was found, until settings take effect. -/
def inForce (context : Context) (request : Request) (course : Course) : Context :=
  (course.settings?.map fun settings => contextOf context settings request).getD context

def fault? : Course → Option Fault
  | .unloaded fault | .faulted _ fault | .unsaved _ _ _ fault => some fault
  | _ => none

def result? : Course → Option Result
  | .answered _ result | .unsaved _ result _ _ | .saved _ result _ _ => some result
  | _ => none

/-- What is done once the settings are in force. -/
def deeds : Course → List Action
  | .interrupted _ done => done
  | .unloaded _ => []
  | .incomplete _ => Action.line .print missingPart
  | .faulted settings _ => opening settings.source
  | .answered settings result => opening settings.source ++ told result
  | .unsaved settings result changes _ => opening settings.source ++ (told result ++ changes)
  | .saved settings result changes path =>
    opening settings.source ++ (told result ++ (changes ++ traces [s!"wrote {path.text}"]))

def conclusion : Course → Except Fault Nat
  | .interrupted _ _ => .ok 130
  | .incomplete _ => .ok 1
  | .answered _ result | .saved _ result _ _ => .ok result.code
  | .unloaded fault | .faulted _ fault | .unsaved _ _ _ fault => .error fault

/-- A course that the user breaks off, unless it has ended before. -/
def brokenOff? (course : Course) : Interruption → Option Course
  | .early => some (.interrupted none [])
  | .late count bytes => course.settings?.bind fun settings =>
    (Action.brokenOff? bytes count course.deeds).map (.interrupted (some settings))

/-- What a course has come to at its end, told in a context. -/
def stage (call : Call) (tree : FileTree) (current : Context) (course : Course) : Stage :=
  Action.carryOutAll call ⟨⟨"", ""⟩, tree, current⟩ course.deeds

/-- How a course is told. -/
def outcome (call : Call) (tree : FileTree) (current : Context) (course : Course) : Outcome :=
  match course with
  | .interrupted settings done => abort (stage call tree current (.interrupted settings done))
  | whole => conclude call (whole.stage call tree current) whole.conclusion

end Course

def course (environment : Environment) (call : Call) (tree : FileTree) (request : Request) : Course :=
  let whole := undisturbed environment call tree request
  (call.interruption.bind whole.brokenOff?).getD whole

/-- What has happened when a course ends so. -/
def Course.Taken (environment : Environment) (call : Call) (tree : FileTree) (request : Request) : Course → Prop
  | .interrupted settings done =>
    settings = none ∧ done = [] ∨ ∃ bytes count known, settings = some known ∧
      (undisturbed environment call tree request).settings? = some known ∧
      Action.brokenOff? bytes count (undisturbed environment call tree request).deeds = some done
  | .unloaded fault => loadSettings environment tree request.config = .error fault
  | .incomplete settings => loadSettings environment tree request.config = .ok settings ∧ call.complete = false
  | .faulted settings fault =>
    loadSettings environment tree request.config = .ok settings ∧ call.complete = true ∧
      answer environment call settings request = .error fault
  | .answered settings result =>
    loadSettings environment tree request.config = .ok settings ∧ call.complete = true ∧
      answer environment call settings request = .ok result ∧ outputText request = none
  | .unsaved settings result changes fault =>
    loadSettings environment tree request.config = .ok settings ∧ call.complete = true ∧
      answer environment call settings request = .ok result ∧
      ∃ target, outputText request = some target ∧ save environment tree target result.text = ⟨changes, .error fault⟩
  | .saved settings result changes path =>
    loadSettings environment tree request.config = .ok settings ∧ call.complete = true ∧
      answer environment call settings request = .ok result ∧
      ∃ target, outputText request = some target ∧ save environment tree target result.text = ⟨changes, .ok path⟩

variable {environment : Environment} {call : Call} {tree : FileTree} {context : Context} {request : Request}

theorem undisturbed_taken (environment : Environment) (call : Call) (tree : FileTree) (request : Request) :
    (undisturbed environment call tree request).Taken environment call tree request := by
  unfold undisturbed
  split
  next fault unloaded => exact unloaded
  next settings loaded =>
    split
    next incomplete => exact ⟨loaded, by simpa using incomplete⟩
    next complete =>
      have complete : call.complete = true := by simpa using complete
      split
      next fault faulted => exact ⟨loaded, complete, faulted⟩
      next result answered =>
        split
        next none => exact ⟨loaded, complete, answered, none⟩
        next target given =>
          have whole : ∀ {ended}, (save environment tree target result.text).result = ended →
              save environment tree target result.text = ⟨(save environment tree target result.text).actions, ended⟩ := by
            rintro _ rfl
            rfl
          dsimp only
          split
          next fault unsaved => exact ⟨loaded, complete, answered, target, given, whole unsaved⟩
          next path saved => exact ⟨loaded, complete, answered, target, given, whole saved⟩

/-- A command sees the settings of its context only, which are those that were loaded. -/
private theorem execute_contextOf (context : Context) (settings : Settings) (request : Request) :
    request.command.execute (environment.draw call.stdoutTerminal) (contextOf context settings request) =
      answer environment call settings request :=
  CommandLine.Command.execute_congr rfl _ request.command

/-- The steps of a request whose settings load are the deeds of its course, and end as it does. -/
theorem perform_eq {settings : Settings} (loaded : loadSettings environment tree request.config = .ok settings)
    (context : Context) :
    perform environment call tree (contextOf context settings request) settings.source request =
      ⟨(undisturbed environment call tree request).deeds, (undisturbed environment call tree request).conclusion⟩ := by
  simp only [perform, undisturbed, loaded, execute_contextOf]
  cases complete : call.complete with
  | false => rfl
  | true =>
    simp only [checkParts, if_true, Bool.not_true, Bool.false_eq_true, if_false, List.flatMap_nil, Steps.act_bind, List.nil_append]
    cases answered : answer environment call settings request with
    | error fault =>
      rw [Steps.error_bind, List.append_nil]
      rfl
    | ok result =>
      rw [Steps.ok_bind]
      dsimp only
      cases target : outputText request with
      | none =>
        dsimp only [pure]
        rw [List.append_nil]
        rfl
      | some text =>
        dsimp only
        obtain ⟨changes, saved⟩ := save environment tree text result.text
        cases saved with
        | error fault => rfl
        | ok path => rfl

section
variable {whole : Course} {settings : Settings}

/-- Whether a course is broken off depends on how much there is to be done. -/
theorem follow_eq (started : call.interruption ≠ some .early) (known : whole.settings? = some settings)
    (unbroken : ∀ kept done, whole ≠ .interrupted kept done) (current : Context) :
    follow call ⟨⟨"", ""⟩, tree, current⟩ ⟨whole.deeds, whole.conclusion⟩ =
        ((call.interruption.bind whole.brokenOff?).getD whole).outcome call tree current := by
  have finished : whole.outcome call tree current = conclude call (whole.stage call tree current) whole.conclusion := by
    cases whole with
    | interrupted kept done => exact absurd rfl (unbroken kept done)
    | _ => rfl
  unfold follow Call.brokenOff?
  cases disturbed : call.interruption with
  | none => exact finished.symm
  | some interruption =>
    rw [disturbed] at started
    cases interruption with
    | early => exact absurd rfl started
    | late count bytes =>
      simp only [Option.bind_some, Course.brokenOff?, known]
      cases Action.brokenOff? bytes count whole.deeds with
      | none => exact finished.symm
      | some done => rfl

end

theorem settings?_undisturbed {settings : Settings} (loaded : loadSettings environment tree request.config = .ok settings) :
    (undisturbed environment call tree request).settings? = some settings := by
  simp only [undisturbed, loaded]
  split
  · rfl
  · split
    · rfl
    · split
      · rfl
      · split
        · rfl
        · rfl

theorem undisturbed_ne_interrupted (kept : Option Settings) (done : List Action) :
    undisturbed environment call tree request ≠ .interrupted kept done := by
  unfold undisturbed
  split
  · exact Course.noConfusion
  · split
    · exact Course.noConfusion
    · split
      · exact Course.noConfusion
      · split
        · exact Course.noConfusion
        · dsimp only
          split
          · exact Course.noConfusion
          · exact Course.noConfusion

/-- Settings that have loaded are in force unless the run is broken off before. -/
private theorem settings?_course {settings : Settings} (started : call.interruption ≠ some .early)
    (loaded : loadSettings environment tree request.config = .ok settings) :
    (course environment call tree request).settings? = some settings := by
  have known : (undisturbed environment call tree request).settings? = some settings := settings?_undisturbed loaded
  rw [course]
  cases disturbed : call.interruption with
  | none => exact known
  | some interruption =>
    cases interruption with
    | early => exact absurd disturbed started
    | late count bytes =>
      simp only [Option.bind_some, Course.brokenOff?, known]
      cases Action.brokenOff? bytes count (undisturbed environment call tree request).deeds with
      | none => exact known
      | some done => rfl

theorem run_eq_outcome (accepted : CommandLine.request call.argv = .ok request) (context : Context) :
    let course := course environment call tree request
    run environment call tree context = course.outcome call tree (course.inForce context request) := by
  intro told
  by_cases early : call.interruption = some .early
  · have broken : told = .interrupted none [] := by simp only [told, course, early, Option.bind_some, Course.brokenOff?, Option.getD_some]
    rw [run_of_early early, broken]
    rfl
  · cases loaded : loadSettings environment tree request.config with
    | error fault =>
      have whole : undisturbed environment call tree request = .unloaded fault := by simp only [undisturbed, loaded]
      have unbroken : told = .unloaded fault := by
        simp only [told, course, whole]
        cases disturbed : call.interruption with
        | none => rfl
        | some interruption =>
          cases interruption with
          | early => exact absurd disturbed early
          | late count bytes => rfl
      rw [run, if_neg early, accepted, unbroken]
      dsimp only
      rw [loaded]
      rfl
    | ok settings =>
      have inForce : told.inForce context request = contextOf context settings request := by
        rw [Course.inForce, settings?_course early loaded]
        rfl
      rw [run_of_loaded accepted early loaded, perform_eq loaded, inForce]
      exact follow_eq early (settings?_undisturbed loaded) undisturbed_ne_interrupted _

/-- Settings that have loaded decide together with the request, and with nothing else. -/
theorem contextOf_debug {settings : Settings} (checked : Settings.Checked settings.data) :
    (contextOf context settings request).debug = true ↔
      request.debug = true ∨ Settings.setting settings.data "BEHAVIOUR" "DEBUG" = .bool true := by
  rw [← Context.apply_debug checked (.text settings.name)]
  change (_ || request.debug) = true ↔ _
  rw [Bool.or_eq_true, or_comm]
  rfl

theorem contextOf_color {settings : Settings} (checked : Settings.Checked settings.data) :
    (contextOf context settings request).color = false ↔
      request.noColor = true ∨ Settings.setting settings.data "OUTPUT" "COLOR" = .bool false := by
  rw [← Context.apply_color checked (.text settings.name)]
  change (_ && !request.noColor) = false ↔ _
  rw [Bool.and_eq_false_iff, Bool.not_eq_false', or_comm]
  rfl

theorem course_taken (environment : Environment) (call : Call) (tree : FileTree) (request : Request) :
    (course environment call tree request).Taken environment call tree request := by
  have whole := undisturbed_taken environment call tree request
  rw [course]
  cases disturbed : call.interruption with
  | none => exact whole
  | some interruption =>
    cases interruption with
    | early => exact .inl ⟨rfl, rfl⟩
    | late count bytes =>
      simp only [Option.bind_some, Course.brokenOff?]
      cases known : (undisturbed environment call tree request).settings? with
      | none => exact whole
      | some settings =>
        rw [Option.bind_some]
        cases broken : Action.brokenOff? bytes count (undisturbed environment call tree request).deeds with
        | none => exact whole
        | some done => exact .inr ⟨bytes, count, settings, rfl, known, broken⟩

/-- Settings load as `Settings.load` says, from what was typed or from the workspace. -/
theorem loadSettings_ends (environment : Environment) (tree : FileTree) (named : Option (CommandLine.Given String)) :
    Ends (fun fault => ∀ c, Text.Control c → environment.Lacks c →
        (∀ text, named = some (.value text) → Text.Lacks c text) → fault.Lacks c)
      (fun settings => Settings.Checked settings.data ∧ ∀ c, Text.Control c → environment.Lacks c →
        (∀ text, named = some (.value text) → Text.Lacks c text) → ∀ path, settings.source = some path → path.Lacks c)
      (loadSettings environment tree named) := by
  cases named with
  | none =>
    refine (Settings.load_ends environment tree none).mono ?_ ?_
    · exact fun fault lacks c control surroundings _ => lacks c control surroundings fun _ same => by cases same
    · rintro settings ⟨checked, lacks⟩
      exact ⟨checked, fun c control surroundings _ => lacks c control surroundings fun _ same => by cases same⟩
  | some given =>
    cases given with
    | nothing => exact fun c control _ _ => Fault.lacks_of_no_text rfl
    | value text =>
      have typed : ∀ {c}, (∀ other, some (CommandLine.Given.value text) = some (.value other) → Text.Lacks c other) →
          ∀ other, some text = some other → Text.Lacks c other := by
        rintro c lacks other ⟨⟩
        exact lacks text rfl
      refine (Settings.load_ends environment tree (some text)).mono ?_ ?_
      · exact fun fault lacks c control surroundings given => lacks c control surroundings (typed given)
      · rintro settings ⟨checked, lacks⟩
        exact ⟨checked, fun c control surroundings given => lacks c control surroundings (typed given)⟩

/-- What saving comes to: nothing is done for a path that leads nowhere, and behind the directories that
are made the file is written or what goes wrong is no fault of the user's. -/
inductive Saving (environment : Environment) (tree : FileTree) (target text : String) : Steps Path → Prop
  | unplaced {fault : Fault} (fails : environment.outputPath target = .error fault) (system : fault.System) :
    Saving environment tree target text ⟨[], .error fault⟩
  | stopped {path : Path} {fault : Fault} (leads : environment.outputPath target = .ok path) (system : fault.System) :
    Saving environment tree target text
      ⟨(tree.ensureDirectory environment.current.segments path.parent).1.map .makeDirectory, .error fault⟩
  | written {path : Path} {place : Location} (leads : environment.outputPath target = .ok path)
    (placed : (tree.withDirectories (tree.ensureDirectory environment.current.segments path.parent).1).filePlace
      environment.current.segments path = .ok place) :
    Saving environment tree target text
      ⟨(tree.ensureDirectory environment.current.segments path.parent).1.map .makeDirectory ++
        [.emptyFile place, .fillFile place (Ansi.strip text ++ "\n").toUTF8], .ok path⟩

theorem save_saving (environment : Environment) (tree : FileTree) (target text : String) :
    Saving environment tree target text (save environment tree target text) := by
  unfold save
  cases leads : environment.outputPath target with
  | error fault => exact .unplaced leads ((environment.outputPath_ends target).fault leads)
  | ok path =>
    rw [Steps.ok_bind]
    dsimp only
    rw [Steps.act_bind]
    cases ready : (tree.ensureDirectory environment.current.segments path.parent).2 with
    | error fault =>
      rw [Steps.error_bind, List.append_nil]
      exact .stopped leads ((FileTree.ensureWithin_ends tree _ path.parent _).fault ready)
    | ok _ =>
      rw [Steps.ok_bind]
      cases placed : (tree.withDirectories (tree.ensureDirectory environment.current.segments path.parent).1).filePlace
          environment.current.segments path with
      | error fault =>
        rw [Steps.error_bind, List.append_nil]
        exact .stopped leads ((FileTree.filePlace_ends _ _ path).fault placed)
      | ok place =>
        exact .written leads placed

theorem exists_of_mem_traces {texts : List String} {action : Action} (member : action ∈ traces texts) :
    ∃ text, action = .trace text := by
  obtain ⟨text, -, inside⟩ := List.mem_flatMap.mp member
  rcases Action.mem_line.mp inside with same | same
  · exact ⟨_, same⟩
  · exact ⟨_, same⟩

theorem silent_traces {texts : List String} : ∀ action ∈ traces texts, action.Silent := by
  intro action member
  obtain ⟨text, rfl⟩ := exists_of_mem_traces member
  exact fun _ => Action.noConfusion

theorem shown_told (result : Result) : Action.shown (told result) = Ansi.strip result.text ++ "\n" := by
  rw [told, Action.shown_append, Action.shown_of_silent silent_traces, Action.shown_line, String.empty_append]

/-- What goes wrong when a result is written is no fault of the user's. -/
private theorem save_system {target text : String} {changes : List Action} {fault : Fault}
    (fails : save environment tree target text = ⟨changes, .error fault⟩) : fault.System := by
  have saving := save_saving environment tree target text
  rw [fails] at saving
  cases saving with
  | unplaced fails system => exact system
  | stopped leads system => exact system

private theorem silent_directories {made : List Location} : ∀ action ∈ made.map Action.makeDirectory, action.Silent := by
  intro action member
  obtain ⟨location, -, rfl⟩ := List.mem_map.mp member
  exact fun _ => Action.noConfusion

/-- Saving prints nothing. -/
theorem silent_changes {target text : String} {changes : List Action} {ended : Except Fault Path}
    (saves : save environment tree target text = ⟨changes, ended⟩) : ∀ action ∈ changes, action.Silent := by
  have saving := save_saving environment tree target text
  rw [saves] at saving
  intro action member
  cases saving with
  | unplaced fails system => cases member
  | stopped leads system => exact silent_directories action member
  | written leads placed =>
    simp only [List.mem_append, List.mem_cons, List.not_mem_nil, or_false] at member
    rcases member with made | rfl | rfl
    · exact silent_directories action made
    · exact fun _ => Action.noConfusion
    · exact fun _ => Action.noConfusion

private theorem tidy_missingPart : Ansi.Tidy missingPart := by
  have heading : Ansi.Tidy (Ansi.red ++ Ansi.bright ++ "\nMissing dependencies:") :=
    ((Ansi.tidy_code 31).append (Ansi.tidy_code 1)).append (.of_lacks (by decide))
  have named : Ansi.Tidy (Ansi.red ++ Ansi.bright ++ "\nMissing dependencies:" ++ Ansi.reset ++ " sympy\nInstall with: ") :=
    (heading.append (Ansi.tidy_code 0)).append (.of_lacks (by decide))
  exact ((named.append (Ansi.tidy_code 33)).append (.of_lacks (by decide))).append (Ansi.tidy_code 0)

section
variable {stage : Stage} {fault : Fault}

theorem fail_of_user (told : fault.isUserError = true) :
    fail call stage fault =
      ⟨stage.complain (userLine stage.context call.stderrTerminal fault.message), .exit 2⟩ := by
  rw [fail, if_pos told]

theorem fail_of_traced (system : fault.System) (traces : stage.context.debug = true) :
    fail call stage fault = ⟨stage, .raised fault⟩ := by
  rw [fail, if_neg system.untold, if_pos traces]

theorem fail_of_untraced (system : fault.System) (untraced : stage.context.debug = false) :
    fail call stage fault = ⟨stage.complain (unexpectedLines fault), .exit 1⟩ := by
  rw [fail, if_neg system.untold, untraced]
  rfl

/-- The three ways in which a fault ends a run. -/
theorem fail_cases (context : Context) (fault : Fault) :
    fault.isUserError = true ∨ fault.System ∧ context.debug = true ∨ fault.System ∧ context.debug = false := by
  cases told : fault.isUserError with
  | true => exact .inl rfl
  | false =>
    cases traces : context.debug with
    | true => exact .inr (.inl ⟨told, rfl⟩)
    | false => exact .inr (.inr ⟨told, rfl⟩)

/-- A fault is told on the error stream only, and nothing is undone for it. -/
private theorem fail_keeps (stage : Stage) (fault : Fault) :
    (fail call stage fault).transcript.stdout = stage.transcript.stdout ∧ (fail call stage fault).tree = stage.tree := by
  rcases fail_cases stage.context fault with told | ⟨system, traces⟩ | ⟨system, silence⟩
  · rw [fail_of_user told]
    exact ⟨rfl, rfl⟩
  · rw [fail_of_traced system traces]
    exact ⟨rfl, rfl⟩
  · rw [fail_of_untraced system silence]
    exact ⟨rfl, rfl⟩

/-- A fault ends a run as a refusal if it is one of the user's. -/
theorem fail_exit {code : Nat} (ended : (fail call stage fault).ending = .exit code) :
    code = 2 ∧ fault.isUserError = true ∨ code = 1 := by
  rcases fail_cases stage.context fault with told | ⟨system, traces⟩ | ⟨system, silence⟩
  · rw [fail_of_user told] at ended
    exact .inl ⟨(Ending.exit.inj ended).symm, told⟩
  · rw [fail_of_traced system traces] at ended
    cases ended
  · rw [fail_of_untraced system silence] at ended
    exact .inr (Ending.exit.inj ended).symm

end

namespace Course
open Ansi CommandLine.Command

variable {course : Course} {current : Context} {fault : Fault}

theorem outcome_of_fault (arises : course.fault? = some fault) :
    course.outcome call tree current = fail call (course.stage call tree current) fault := by
  cases course with
  | unloaded other => cases arises; rfl
  | faulted settings other => cases arises; rfl
  | unsaved settings result changes other => cases arises; rfl
  | _ => cases arises

theorem stage_context : (course.stage call tree current).context = current := Action.carryOutAll_context

/-- Where traces are off, nothing stands before the lines that tell a fault. -/
theorem stage_of_untraced (untraced : current.debug = false) :
    (course.stage call tree current).transcript.stderr = "" :=
  Action.carryOutAll_stderr_of_untraced untraced

/-- How a run ends changes neither what it has printed nor the files. -/
theorem outcome_keeps :
    (course.outcome call tree current).transcript.stdout = (course.stage call tree current).transcript.stdout ∧
      (course.outcome call tree current).tree = (course.stage call tree current).tree := by
  cases course with
  | unloaded fault => exact fail_keeps _ fault
  | faulted settings fault => exact fail_keeps _ fault
  | unsaved settings result changes fault => exact fail_keeps _ fault
  | _ => exact ⟨rfl, rfl⟩

theorem outcome_tree : (course.outcome call tree current).tree = course.deeds.foldl Action.onTree tree :=
  outcome_keeps.2.trans Action.carryOutAll_tree

theorem Taken.inForce_of_unloaded (taken : course.Taken environment call tree request)
    (unloaded : loadSettings environment tree request.config = .error fault) : course.inForce context request = context := by
  cases course with
  | interrupted settings done =>
    rcases taken with ⟨rfl, -⟩ | ⟨bytes, count, known, -, kept, -⟩
    · rfl
    · simp only [undisturbed, unloaded] at kept
      cases kept
  | unloaded other => rfl
  | _ => cases unloaded.symm.trans taken.1

theorem Taken.inForce_of_loaded {settings : Settings} (taken : course.Taken environment call tree request)
    (arises : course.fault? = some fault) (loaded : loadSettings environment tree request.config = .ok settings) :
    course.inForce context request = contextOf context settings request := by
  cases course with
  | unloaded other => cases loaded.symm.trans taken
  | faulted known other => cases loaded.symm.trans taken.1; rfl
  | unsaved known result changes other => cases loaded.symm.trans taken.1; rfl
  | _ => cases arises

/-- What an action of a run may print. -/
inductive Printing (environment : Environment) (call : Call) (tree : FileTree) (request : Request) : String → Prop
  | nothing : Printing environment call tree request ""
  | lineEnd : Printing environment call tree request "\n"
  | notice : Printing environment call tree request missingPart
  | result {settings : Settings} {result : Result} (loaded : loadSettings environment tree request.config = .ok settings)
    (answered : answer environment call settings request = .ok result) : Printing environment call tree request result.text

section
variable {action : Action}

theorem printing_of_silent (silent : action.Silent) : Printing environment call tree request action.printed := by
  rw [silent.printed]
  exact .nothing

private theorem printing_of_told {settings : Settings} {result : Result}
    (loaded : loadSettings environment tree request.config = .ok settings)
    (answered : answer environment call settings request = .ok result) (member : action ∈ told result) :
    Printing environment call tree request action.printed := by
  rcases List.mem_append.mp member with trace | line
  · exact printing_of_silent (silent_traces action trace)
  · rcases Action.mem_line.mp line with rfl | rfl
    · exact .result loaded answered
    · exact .lineEnd

private theorem Taken.printing_of_unbroken (taken : course.Taken environment call tree request)
    (unbroken : ∀ kept done, course ≠ .interrupted kept done) (member : action ∈ course.deeds) :
    Printing environment call tree request action.printed := by
  cases course with
  | interrupted settings done => exact absurd rfl (unbroken settings done)
  | unloaded fault => cases member
  | incomplete settings =>
    rcases Action.mem_line.mp member with rfl | rfl
    · exact .notice
    · exact .lineEnd
  | faulted settings fault => exact printing_of_silent (silent_traces action member)
  | answered settings result =>
    rcases List.mem_append.mp member with trace | telling
    · exact printing_of_silent (silent_traces action trace)
    · exact printing_of_told taken.1 taken.2.2.1 telling
  | unsaved settings result changes fault =>
    obtain ⟨loaded, -, answered, target, -, unsaved⟩ := taken
    rcases List.mem_append.mp member with trace | later
    · exact printing_of_silent (silent_traces action trace)
    · rcases List.mem_append.mp later with telling | change
      · exact printing_of_told loaded answered telling
      · exact printing_of_silent (silent_changes unsaved action change)
  | saved settings result changes path =>
    obtain ⟨loaded, -, answered, target, -, saved⟩ := taken
    rcases List.mem_append.mp member with trace | later
    · exact printing_of_silent (silent_traces action trace)
    · rcases List.mem_append.mp later with telling | last
      · exact printing_of_told loaded answered telling
      · rcases List.mem_append.mp last with change | closing
        · exact printing_of_silent (silent_changes saved action change)
        · exact printing_of_silent (silent_traces action closing)

theorem Taken.printing (taken : course.Taken environment call tree request) (member : action ∈ course.deeds) :
    Printing environment call tree request action.printed := by
  cases course with
  | interrupted settings done =>
    rcases taken with ⟨-, rfl⟩ | ⟨bytes, count, known, -, -, broken⟩
    · cases member
    · rcases Action.mem_of_brokenOff broken member with inside | ⟨location, content, -, rfl⟩
      · exact (undisturbed_taken environment call tree request).printing_of_unbroken undisturbed_ne_interrupted inside
      · exact .nothing
  | _ => exact taken.printing_of_unbroken (fun kept done => Course.noConfusion) member

end

/-- Where answers are tidy, all that is printed is. -/
theorem Taken.tidy_deeds (taken : course.Taken environment call tree request)
    (answers : ∀ {settings result}, loadSettings environment tree request.config = .ok settings →
      answer environment call settings request = .ok result → Tidy result.text) :
    ∀ action ∈ course.deeds, Tidy action.printed := by
  intro action member
  have printing := taken.printing member
  generalize action.printed = text at printing
  cases printing with
  | nothing => exact .of_lacks Text.lacks_empty
  | lineEnd => exact .of_lacks (by decide)
  | notice => exact tidy_missingPart
  | result loaded answered => exact answers loaded answered

/-- Without its colours, what a run prints is the same on any terminal, but for pictures. -/
theorem strip_stdout (tidy : ∀ action ∈ course.deeds, Tidy action.printed) :
    strip (course.outcome call tree current).transcript.stdout = Action.shown course.deeds := by
  have nothing : strip "" = "" := strip_of_lacks Text.lacks_empty
  rw [outcome_keeps.1, stage, Action.strip_carryOutAll tidy (.of_lacks Text.lacks_empty), nothing, String.empty_append]

/-- Behind an answer nothing more is printed. -/
theorem Taken.shown_of_answered (taken : course.Taken environment call tree request) {result : Result}
    (answered : course.result? = some result) : Action.shown course.deeds = strip result.text ++ "\n" := by
  cases course with
  | answered settings other =>
    cases answered
    rw [deeds, Action.shown_append, opening, Action.shown_of_silent silent_traces, shown_told, String.empty_append]
  | unsaved settings other changes fault =>
    cases answered
    obtain ⟨-, -, -, target, -, unsaved⟩ := taken
    rw [deeds, Action.shown_append, Action.shown_append, opening, Action.shown_of_silent silent_traces, shown_told,
      Action.shown_of_silent (silent_changes unsaved), String.empty_append, String.append_empty]
  | saved settings other changes path =>
    cases answered
    obtain ⟨-, -, -, target, -, saved⟩ := taken
    rw [deeds, Action.shown_append, Action.shown_append, Action.shown_append, opening, Action.shown_of_silent silent_traces,
      shown_told, Action.shown_of_silent (silent_changes saved), Action.shown_of_silent silent_traces, String.empty_append,
      String.append_empty, String.append_empty]
  | _ => cases answered

theorem Taken.proper (taken : course.Taken environment call tree request) {result : Result}
    (answered : course.result? = some result) : Proper (environment.draw call.stdoutTerminal) result := by
  have answers : ∀ {settings}, answer environment call settings request = .ok result →
      Proper (environment.draw call.stdoutTerminal) result :=
    fun same => (execute_ends control_escape _ request.command).answer same
  cases course with
  | answered settings other => cases answered; exact answers taken.2.2.1
  | unsaved settings other changes fault => cases answered; exact answers taken.2.2.1
  | saved settings other changes path => cases answered; exact answers taken.2.2.1
  | _ => cases answered

theorem Taken.tidy (taken : course.Taken environment call tree request) (draws : environment.DrawsPlainly) :
    ∀ action ∈ course.deeds, Tidy action.printed :=
  taken.tidy_deeds fun _ answered =>
    ((execute_ends control_escape _ request.command).answer answered).tidy (draws call.stdoutTerminal)

/-- A fault of the user's arises before anything is printed or written. -/
theorem Taken.of_userError (taken : course.Taken environment call tree request)
    (arises : course.fault? = some fault) (told : fault.isUserError = true) :
    course = .unloaded fault ∨ ∃ settings, course = .faulted settings fault := by
  cases course with
  | unloaded other =>
    cases arises
    exact .inl rfl
  | faulted settings other =>
    cases arises
    exact .inr ⟨settings, rfl⟩
  | unsaved settings result changes other =>
    cases arises
    obtain ⟨-, -, -, target, -, unsaved⟩ := taken
    exact absurd told (save_system unsaved).untold
  | _ => cases arises

theorem Taken.of_exit (taken : course.Taken environment call tree request) {code : Nat}
    (ended : (course.outcome call tree current).ending = .exit code) :
    code = 130 ∧ (∃ settings done, course = .interrupted settings done) ∨
      code = 2 ∧ (∃ fault, course.fault? = some fault ∧ fault.isUserError = true) ∨
      code = 1 ∨ code = 0 ∧ ∃ result, course.result? = some result ∧ course.fault? = none := by
  have failed : ∀ {fault}, course.fault? = some fault →
      code = 2 ∧ (∃ fault, course.fault? = some fault ∧ fault.isUserError = true) ∨ code = 1 := by
    intro fault arises
    rw [outcome_of_fault arises] at ended
    rcases fail_exit ended with ⟨two, told⟩ | one
    · exact .inl ⟨two, fault, arises, told⟩
    · exact .inr one
  have answered : ∀ {result}, course.result? = some result → Ending.exit result.code = .exit code → code = 0 ∨ code = 1 := by
    intro result shown same
    rw [← Ending.exit.inj same]
    exact (taken.proper shown).code
  cases course with
  | interrupted settings done => exact .inl ⟨(Ending.exit.inj ended).symm, settings, done, rfl⟩
  | incomplete settings => exact .inr (.inr (.inl (Ending.exit.inj ended).symm))
  | unloaded fault => exact .inr ((failed rfl).imp_right .inl)
  | faulted settings fault => exact .inr ((failed rfl).imp_right .inl)
  | unsaved settings result changes fault => exact .inr ((failed rfl).imp_right .inl)
  | answered settings result =>
    rcases answered rfl ended with zero | one
    · exact .inr (.inr (.inr ⟨zero, result, rfl, rfl⟩))
    · exact .inr (.inr (.inl one))
  | saved settings result changes path =>
    rcases answered rfl ended with zero | one
    · exact .inr (.inr (.inr ⟨zero, result, rfl, rfl⟩))
    · exact .inr (.inr (.inl one))

/-- Only a fault of the user's ends an accepted request with the code of a refusal. -/
theorem Taken.of_refused (taken : course.Taken environment call tree request)
    (refused : (course.outcome call tree current).ending = .exit 2) :
    ∃ fault, course.fault? = some fault ∧ fault.isUserError = true := by
  rcases taken.of_exit refused with ⟨other, -⟩ | ⟨-, user⟩ | other | ⟨other, -⟩
  · cases other
  · exact user
  · cases other
  · cases other

end Course

theorem drawsPlainly_surroundings : surroundings.DrawsPlainly := fun _ root => root.lacks_drawing

/-- A workspace that holds one directory, and no settings. -/
def nested : FileTree := ⟨[(["w"], .directory), (["w", "d"], .directory)]⟩

end Surd.Session
