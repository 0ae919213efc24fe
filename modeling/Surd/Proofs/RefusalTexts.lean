import Surd.Proofs.CommandLineTexts
import Surd.Proofs.RunCourse

/-! What a refused run tells. Its line loses its colours where they are off or the stream is no
terminal; no other escape character can get there, since all that it shows of what was typed, of the
surroundings and of the settings is either free of them or quoted. -/

namespace Surd.Session
open CommandLine (Request)
open Settings (setting)
open Ansi Text

variable {environment : Environment} {call : Call} {tree : FileTree} {context : Context} {request : Request}
  {settings : Settings}

/-- A message behind the mark of an error, unless it says itself what it is. -/
def marked (message : String) : String :=
  if message.startsWith "Invalid input:" || message.startsWith "Error:" then message
  else red ++ "Error:" ++ reset ++ " " ++ message

theorem userLine_eq (context : Context) (terminal : Bool) (message : String) :
    userLine context terminal message =
      (if context.color && terminal then marked message else strip (marked message)) ++ "\n" := rfl

private theorem tidy_marked {message : String} (plain : Lacks escape message) : Tidy (marked message) := by
  have mark : Tidy (red ++ "Error:" ++ reset ++ " ") :=
    (((tidy_code 31).append (.of_lacks (by decide))).append (tidy_code 0)).append (.of_lacks (by decide))
  unfold marked
  split
  · exact .of_lacks plain
  · exact mark.append (.of_lacks plain)

theorem lacks_userLine {message : String} (plain : Lacks escape message) {terminal : Bool}
    (off : terminal = false ∨ context.color = false) : Lacks escape (userLine context terminal message) := by
  have kept : ¬(context.color && terminal) = true := by
    rcases off with absent | colourless
    · rw [absent, Bool.and_false]
      decide
    · rw [colourless, Bool.false_and]
      decide
  rw [userLine_eq, if_neg kept]
  exact lacks_append.mpr ⟨tidy_marked plain, by decide⟩

/-- The trace at the start names the settings file. -/
private theorem lacks_opening (named : ∀ path, settings.source = some path → path.Lacks escape) :
    ∀ action ∈ opening settings.source, Lacks escape action.traced := by
  have name : Lacks escape ((settings.source.map Path.text).getD "defaults") := by
    cases source : settings.source with
    | none => exact control_escape.lacks rfl
    | some path => exact (named path source).text control_escape
  have program : Lacks escape CommandLine.programName := control_escape.lacks rfl
  have version : Lacks escape CommandLine.version := control_escape.lacks rfl
  intro action member
  obtain ⟨text, inside, written⟩ := List.mem_flatMap.mp member
  rw [List.mem_singleton.mp inside] at written
  rcases Action.mem_line.mp written with rfl | rfl
  · simp (disch := decide) only [Action.traced, traceLine, lacks_append, lacks_toString, name, program, version,
      control_escape.lacks, and_self]
  · exact (by decide : Lacks escape "\n")

theorem lacks_fail {stage : Stage} {fault : Fault} (told : fault.isUserError = true) (raw : fault.Lacks escape)
    (plain : Lacks escape stage.transcript.stderr) (off : call.stderrTerminal = false ∨ stage.context.color = false) :
    Lacks escape (fail call stage fault).transcript.stderr := by
  rw [fail_of_user told]
  exact lacks_append.mpr ⟨plain, lacks_userLine ((Fault.lacks_message_iff control_escape told).mpr raw) off⟩

theorem lacks_surroundings : surroundings.Lacks escape := by
  refine ⟨Path.lacks_ofText (by decide), by decide, ?_, ?_⟩
  · intro user member
    cases member
  · rintro text ⟨⟩
    decide

/-- With no escape character in what was typed and in the surroundings, a run that ends as a refusal
tells of it without one where its error stream is no terminal, and where colours are off: by the command
line or by the settings that loaded, or, if none did, by what was in force before. -/
theorem refusal_uncoloured (typed : ∀ text ∈ call.argv, Lacks escape text) (placed : environment.Lacks escape)
    (refused : (run environment call tree context).ending = .exit 2)
    (off : call.stderrTerminal = false ∨ ∀ request, CommandLine.request call.argv = .ok request →
      (∀ settings, loadSettings environment tree request.config = .ok settings →
        request.noColor = true ∨ setting settings.data "OUTPUT" "COLOR" = .bool false) ∧
      ∀ fault, loadSettings environment tree request.config = .error fault → context.color = false) :
    Lacks escape (run environment call tree context).transcript.stderr := by
  have line := CommandLine.request_ends typed
  cases accepted : CommandLine.request call.argv with
  | error stop =>
    rcases run_of_stopped accepted context with ⟨transcript, aborted⟩ | ⟨text, -, shown⟩ | ⟨text, rfl, told⟩
    · rw [aborted] at refused
      cases refused
    · rw [shown] at refused
      cases refused
    · rw [told]
      exact line.fault accepted
  | ok request =>
    have named := line.answer accepted
    have taken := course_taken environment call tree request
    have told : run environment call tree context = _ := run_eq_outcome accepted context
    generalize course environment call tree request = reached at taken told
    rw [told] at refused ⊢
    obtain ⟨fault, arises, user⟩ := taken.of_refused refused
    rw [Course.outcome_of_fault arises]
    have loading := loadSettings_ends environment tree request.config
    rcases taken.of_userError arises user with rfl | ⟨settings, rfl⟩
    · have raw := loading.fault taken escape control_escape placed named
      refine lacks_fail user raw lacks_empty (off.imp_right fun asked => ?_)
      exact (asked request accepted).2 fault taken
    · obtain ⟨loaded, -, faulted⟩ := taken
      obtain ⟨checked, source⟩ := loading.answer loaded
      have raw := (CommandLine.Command.execute_ends control_escape _ request.command).fault faulted
      have dark : call.stderrTerminal = false ∨ (contextOf context settings request).color = false :=
        off.imp_right fun asked => (contextOf_color checked).mpr ((asked request accepted).1 settings loaded)
      have opens : Lacks escape
          ((Course.faulted settings fault).stage call tree (contextOf context settings request)).transcript.stderr :=
        Action.lacks_stderr_carryOutAll (lacks_opening (source escape control_escape placed named)) dark lacks_empty
      exact lacks_fail user raw opens (by rwa [Course.stage_context])

theorem refusal_uncoloured_on_terminal :
    let call : Call := ⟨["--no-color", "--debug", "factor", "1"], false, true, true, none⟩
    (run surroundings call nested .fresh).ending = .exit 2 ∧
      Lacks escape (run surroundings call nested .fresh).transcript.stderr := by
  have accepted : CommandLine.request ["--no-color", "--debug", "factor", "1"] =
      .ok ⟨none, none, true, true, .factor "1"⟩ := by decide +kernel
  intro call
  have refused : (run surroundings call nested .fresh).ending = .exit 2 := by
    rw [run_eq_outcome accepted .fresh]
    rfl
  refine ⟨refused, refusal_uncoloured (by decide) lacks_surroundings refused (.inr fun request same => ?_)⟩
  cases accepted.symm.trans same
  have loaded : loadSettings surroundings nested none = .ok .standard := rfl
  exact ⟨fun settings _ => .inl rfl, fun fault failed => by cases loaded.symm.trans failed⟩

/-- A settings file that was named and is missing is told in colour on a terminal, although the command
line turns colours off. -/
theorem loading_refusal_coloured :
    let call : Call := ⟨["--no-color", "--config", "none", "isqrt", "4"], false, true, true, none⟩
    (CommandLine.request call.argv).map Request.noColor = .ok true ∧
      (∀ text ∈ call.argv, Lacks escape text) ∧ surroundings.Lacks escape ∧
      (run surroundings call nested .fresh).ending = .exit 2 ∧
      ¬Lacks escape (run surroundings call nested .fresh).transcript.stderr := by
  have accepted : CommandLine.request ["--no-color", "--config", "none", "isqrt", "4"] =
      .ok ⟨some (.value "none"), none, true, false, .floorRoot "4"⟩ := by decide +kernel
  intro call
  refine ⟨congrArg _ accepted, by decide, lacks_surroundings, ?_, ?_⟩
  · rw [run_eq_outcome accepted .fresh]
    rfl
  · rw [run_eq_outcome accepted .fresh]
    decide +kernel

end Surd.Session
