import Surd.Proofs.FaultDisclosure
import Surd.Proofs.RefusalTexts

/-! How many lines a refusal takes. Its message has no line end but those that stand in it unquoted,
and the one text of a user's that is not quoted is the place of a settings file: the whole path of a
file that is missing, the name of one that does not load. -/

namespace Surd.Session
open Settings (shownPlace)
open Ansi Text

variable {environment : Environment} {call : Call} {tree : FileTree} {context : Context}
  {request : CommandLine.Request} {c : Char} {fault : Fault}

/-- A fault of the user's that keeps settings from loading holds a control character exactly if the
place that was named shows one. -/
private theorem unloaded_lacks_iff {named : Option (CommandLine.Given String)} (control : Control c)
    (unloaded : loadSettings environment tree named = .error fault) (told : fault.isUserError = true) :
    fault.Lacks c ↔ ∀ text source, named = some (.value text) →
      environment.expandPath (Path.ofText text) = .ok source →
      Lacks c (shownPlace tree environment.current.segments source) := by
  cases named with
  | none =>
    have tells := (Settings.load_workspace_ends environment tree).fault unloaded
    rw [tells.lacks_iff told control]
    exact iff_of_true (control.lacks rfl) fun _ _ same => by cases same
  | some given =>
    cases given with
    | nothing =>
      cases unloaded
      cases told
    | value text =>
      cases expanded : environment.expandPath (Path.ofText text) with
      | error other =>
        obtain ⟨failed, system⟩ := Settings.load_of_unexpanded tree expanded
        cases unloaded.symm.trans failed
        exact absurd told system.untold
      | ok source =>
        have tells := (Settings.load_named_ends tree expanded).fault unloaded
        rw [tells.lacks_iff told control]
        refine ⟨?_, fun each => each text source rfl expanded⟩
        rintro lacks _ other ⟨⟩ same
        cases expanded.symm.trans same
        exact lacks

private theorem userLine_cases (context : Context) (terminal : Bool) (message : String) :
    ∃ line, (line = marked message ∨ line = strip (marked message)) ∧
      userLine context terminal message = line ++ "\n" := by
  refine ⟨_, ?_, userLine_eq context terminal message⟩
  split
  · exact .inl rfl
  · exact .inr rfl

private theorem lacks_marked {message : String} : Lacks '\n' (marked message) ↔ Lacks '\n' message := by
  have mark : Lacks '\n' (red ++ "Error:" ++ reset ++ " ") := by decide
  unfold marked
  split
  · exact Iff.rfl
  · exact lacks_append.trans (and_iff_right mark)

/-- With traces off, an accepted request that is refused tells its message and a line end, and nothing
else. The message holds another line end only if settings that were named do not load and their place,
as far as it is shown, holds one. -/
theorem refusal_single_line (accepted : CommandLine.request call.argv = .ok request)
    (refused : (run environment call tree context).ending = .exit 2)
    (untraced : (run environment call tree context).context.debug = false) :
    ∃ fault line, (course environment call tree request).fault? = some fault ∧
      (line = marked fault.message ∨ line = strip (marked fault.message)) ∧
      (run environment call tree context).transcript.stderr = line ++ "\n" ∧
      (Lacks '\n' line ↔ ∀ text source, request.config = some (.value text) →
        environment.expandPath (Path.ofText text) = .ok source →
        (∃ unloaded, loadSettings environment tree request.config = .error unloaded) →
        Lacks '\n' (shownPlace tree environment.current.segments source)) := by
  have taken := course_taken environment call tree request
  have told : run environment call tree context = _ := run_eq_outcome accepted context
  generalize course environment call tree request = reached at taken told ⊢
  rw [told] at refused untraced ⊢
  obtain ⟨fault, arises, user⟩ := taken.of_refused refused
  rw [Course.outcome_of_fault arises, fail_of_user user] at untraced ⊢
  obtain ⟨line, wording, shown⟩ := userLine_cases (reached.inForce context request) call.stderrTerminal fault.message
  refine ⟨fault, line, arises, wording, ?_, ?_⟩
  · have dark : (reached.stage call tree (reached.inForce context request)).context.debug = false := untraced
    rw [Course.stage_context] at dark
    have silent : (reached.stage call tree (reached.inForce context request)).transcript.stderr = "" :=
      Course.stage_of_untraced dark
    rw [Stage.complain, silent, String.empty_append, Course.stage_context, shown]
  have plain : Lacks '\n' (marked fault.message) ↔ fault.Lacks '\n' :=
    lacks_marked.trans (Fault.lacks_message_iff control_lineEnd user)
  have kept : Lacks '\n' line ↔ fault.Lacks '\n' := by
    rcases wording with rfl | rfl
    · exact plain
    · exact outside_lineEnd.lacks_strip.trans plain
  rw [kept]
  rcases taken.of_userError arises user with rfl | ⟨settings, rfl⟩
  · rw [unloaded_lacks_iff control_lineEnd taken user]
    exact ⟨fun each text source same expanded _ => each text source same expanded,
      fun each text source same expanded => each text source same expanded ⟨fault, taken⟩⟩
  · obtain ⟨loaded, -, faulted⟩ := taken
    have raw := (CommandLine.Command.execute_ends control_lineEnd _ request.command).fault faulted
    refine iff_of_true raw ?_
    rintro text source - - ⟨other, unloaded⟩
    cases unloaded.symm.trans loaded

theorem refusal_single_line_of_broken_operand :
    let call : Call := ⟨["isqrt", "4\n4"], false, false, true, none⟩
    (run surroundings call nested .fresh).ending = .exit 2 ∧
      ∃ line, (run surroundings call nested .fresh).transcript.stderr = line ++ "\n" ∧ Lacks '\n' line := by
  have accepted : CommandLine.request ["isqrt", "4\n4"] = .ok ⟨none, none, false, false, .floorRoot "4\n4"⟩ := by
    decide +kernel
  intro call
  have refused : (run surroundings call nested .fresh).ending = .exit 2 := by
    rw [run_eq_outcome accepted .fresh]
    rfl
  have untraced : (run surroundings call nested .fresh).context.debug = false := by
    rw [run_eq_outcome accepted .fresh]
    rfl
  obtain ⟨fault, line, -, -, shown, whole⟩ := refusal_single_line accepted refused untraced
  exact ⟨refused, line, shown, whole.mpr fun text source same => by cases same⟩

/-- A line end in the name of a settings file that is missing breaks the line. -/
theorem missing_settings_two_lines :
    let call : Call := ⟨["--config", "a\nb", "isqrt", "4"], false, false, true, none⟩
    let outcome := run surroundings call nested .fresh
    outcome.ending = .exit 2 ∧ outcome.context.debug = false ∧
      ¬∃ line, outcome.transcript.stderr = line ++ "\n" ∧ Lacks '\n' line := by
  have accepted : CommandLine.request ["--config", "a\nb", "isqrt", "4"] =
      .ok ⟨some (.value "a\nb"), none, false, false, .floorRoot "4"⟩ := by decide +kernel
  intro call outcome
  have told : outcome = _ := run_eq_outcome accepted .fresh
  rw [told]
  refine ⟨rfl, rfl, ?_⟩
  rintro ⟨line, shown, lacks⟩
  have printed : "Error: Settings file not found: a\nb" ++ "\n" = line ++ "\n" := by
    rw [← shown]
    decide +kernel
  have same : "Error: Settings file not found: a\nb" = line := (String.append_left_inj "\n").mp printed
  exact absurd (same ▸ lacks) (by decide)

end Surd.Session
