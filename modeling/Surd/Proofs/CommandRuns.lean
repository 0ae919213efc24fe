import Surd.Proofs.DecimalTexts
import Surd.Proofs.RunCourse

/-! Runs that get as far as their command. From there on the answer of the command decides how the
run ends and, unless the result is also to be written to a file, what it prints. A command line that
holds a command's name and its operand, and nothing else, makes the request for that command. -/

namespace Surd
namespace CommandLine

/-- What a command's name asks for with an operand and no options. -/
def CommandName.plain (name : CommandName) (text : String) : Command :=
  match name with
  | .primes => .primes text none
  | .isprime => .isPrime text
  | .factor => .factor text
  | .isqrt => .floorRoot text
  | .sqrt => .squareRoot text false

/-- A word that cannot be taken for an option. -/
def IsOperand (text : String) : Prop := text.toList.head? ≠ some '-'

instance (text : String) : Decidable (IsOperand text) := inferInstanceAs (Decidable (_ ≠ _))

theorem Grammar.classify_operand (grammar : Grammar) {text : String} (operand : IsOperand text) :
    grammar.classify text = .ok (.operand text) := by
  unfold IsOperand at operand
  unfold classify
  cases letters : text.toList with
  | nil => rfl
  | cons first rest =>
    rw [letters] at operand
    have other : first ≠ '-' := fun same => operand (congrArg some same)
    exact if_pos other

private theorem IsOperand.ne_separator {text : String} (operand : IsOperand text) : text ≠ "--" := by
  rintro rfl
  exact operand rfl

/-- Only a sign at its front could make what begins with a number look like an option. -/
theorem isOperand_int_append {n : Int} (nonneg : 0 ≤ n) (rest : String) : IsOperand (toString n ++ rest) := by
  obtain ⟨c, head, other⟩ := Text.head?_int_append nonneg rest
  rw [IsOperand, head]
  exact fun same => other (Option.some.inj same)

theorem isOperand_int {n : Int} (nonneg : 0 ≤ n) : IsOperand (toString n) := by
  have operand := isOperand_int_append nonneg ""
  rwa [String.append_empty] at operand

theorem Grammar.words_operand (grammar : Grammar) {text : String} (operand : IsOperand text) (rest : List String) :
    grammar.words (text :: rest) = (grammar.words rest).map (.operand text :: ·) := by
  rw [words, if_neg operand.ne_separator, grammar.classify_operand operand]
  cases grammar.words rest with
  | error message => rfl
  | ok words => rfl

theorem Grammar.words_separator (grammar : Grammar) (rest : List String) :
    grammar.words ("--" :: rest) = .ok (.separator :: rest.map .operand) := by
  rw [words, if_pos rfl]

theorem ofText?_text (name : CommandName) : CommandName.ofText? name.text = some name := by
  cases name with
  | _ => decide

theorem isOperand_text (name : CommandName) : IsOperand name.text := by
  cases name with
  | _ => decide

theorem command_operand (name : CommandName) {texts : List String} {text : String} {words : List Word}
    (known : name.grammar.words texts = .ok words)
    (read : readCommand name.grammar {} words = .ok { operand := some text }) :
    command name texts = .ok (name.plain text, []) := by
  unfold command
  simp only [known, Except.mapError, bind, Except.bind, read]
  cases name with
  | _ => rfl

theorem dispatch_operand (name : CommandName) {words : List Word} {text : String}
    (read : command name (words.map Word.text) = .ok (name.plain text, [])) :
    dispatch {} name.text words = .ok ⟨none, none, false, false, name.plain text⟩ := by
  unfold dispatch
  rw [ofText?_text]
  simp only [read, bind, Except.bind]
  rfl

theorem request_operand (name : CommandName) {text : String} (operand : IsOperand text) :
    request [name.text, text] = .ok ⟨none, none, false, false, name.plain text⟩ := by
  have single : ∀ grammar : Grammar, grammar.words [text] = .ok [.operand text] := fun grammar =>
    grammar.words_operand operand []
  have words : mainGrammar.words [name.text, text] = .ok [.operand name.text, .operand text] := by
    rw [mainGrammar.words_operand (isOperand_text name), single]
    rfl
  have inner : command name [text] = .ok (name.plain text, []) := by
    refine command_operand name (single _) ?_
    simp only [readCommand, Options.take, dropSeparator]
    rfl
  unfold request
  rw [words]
  change readMain {} [.operand name.text, .operand text] = _
  rw [readMain]
  exact dispatch_operand name inner

/-- Behind a separator any text is an operand. -/
theorem request_separated (name : CommandName) (text : String) :
    request [name.text, "--", text] = .ok ⟨none, none, false, false, name.plain text⟩ := by
  have words : mainGrammar.words [name.text, "--", text] = .ok [.operand name.text, .separator, .operand text] := by
    rw [mainGrammar.words_operand (isOperand_text name), mainGrammar.words_separator]
    rfl
  have inner : command name ["--", text] = .ok (name.plain text, []) := by
    refine command_operand name (Grammar.words_separator _ _) ?_
    simp only [List.map_cons, List.map_nil, readCommand, Options.take]
    rfl
  unfold request
  rw [words]
  change readMain {} [.operand name.text, .separator, .operand text] = _
  rw [readMain]
  exact dispatch_operand name inner

end CommandLine

namespace Session
open CommandLine (Request)
open Ansi

/-- A run gets as far as its command: the user does not break it off, its settings load, and no part
is missing. -/
structure Reaches (environment : Environment) (call : Call) (tree : FileTree) (request : Request)
    (settings : Settings) : Prop where
  accepted : CommandLine.request call.argv = .ok request
  undisturbed : call.interruption = none
  loaded : loadSettings environment tree request.config = .ok settings
  complete : call.complete = true

namespace Reaches
variable {environment : Environment} {call : Call} {tree : FileTree} {context : Context} {request : Request}
  {settings : Settings} {result : Result} {fault : Fault}
  (reaches : Reaches environment call tree request settings)
include reaches

theorem checked : Settings.Checked settings.data :=
  ((loadSettings_ends environment tree request.config).answer reaches.loaded).1

theorem course_eq : course environment call tree request =
    match answer environment call settings request with
    | .error fault => .faulted settings fault
    | .ok result =>
      match outputText request with
      | none => .answered settings result
      | some target =>
        let saving := save environment tree target result.text
        match saving.result with
        | .error fault => .unsaved settings result saving.actions fault
        | .ok path => .saved settings result saving.actions path := by
  rw [course, reaches.undisturbed]
  simp only [Session.undisturbed, reaches.loaded, reaches.complete]
  rfl

theorem run_of_fault (failed : answer environment call settings request = .error fault) (context : Context) :
    run environment call tree context =
      fail call (Action.carryOutAll call ⟨⟨"", ""⟩, tree, contextOf context settings request⟩ (opening settings.source))
        fault := by
  have same : course environment call tree request = .faulted settings fault := by rw [reaches.course_eq, failed]
  have told : run environment call tree context = _ := run_eq_outcome reaches.accepted context
  rw [told, same]
  rfl

theorem refused (failed : answer environment call settings request = .error fault) (user : fault.isUserError = true)
    (context : Context) :
    (run environment call tree context).ending = .exit 2 ∧ (run environment call tree context).transcript.stdout = "" := by
  rw [reaches.run_of_fault failed, fail_of_user user]
  exact ⟨rfl, Action.carryOutAll_stdout_of_silent silent_traces⟩

/-- A result is printed, whether it is also to be written or not. -/
theorem prints (known : answer environment call settings request = .ok result) (tidy : Tidy result.text) (context : Context) :
    strip (run environment call tree context).transcript.stdout = strip result.text ++ "\n" := by
  have shown : (course environment call tree request).result? = some result := by
    rw [reaches.course_eq, known]
    cases outputText request with
    | none => rfl
    | some target =>
      dsimp only
      cases (save environment tree target result.text).result with
      | error fault => rfl
      | ok path => rfl
  have taken := course_taken environment call tree request
  have told : run environment call tree context = _ := run_eq_outcome reaches.accepted context
  have answers : ∀ {other found}, loadSettings environment tree request.config = .ok other →
      answer environment call other request = .ok found → Tidy found.text := by
    intro other found loaded answered
    cases reaches.loaded.symm.trans loaded
    cases known.symm.trans answered
    exact tidy
  rw [told, Course.strip_stdout (taken.tidy_deeds answers), taken.shown_of_answered shown]

/-- The code of a result that is not to be written ends the run. -/
theorem answered (unsaved : outputText request = none) (known : answer environment call settings request = .ok result)
    (tidy : Tidy result.text) (context : Context) :
    (run environment call tree context).ending = .exit result.code ∧
      strip (run environment call tree context).transcript.stdout = strip result.text ++ "\n" := by
  have same : course environment call tree request = .answered settings result := by
    rw [reaches.course_eq, known, unsaved]
  have told : run environment call tree context = _ := run_eq_outcome reaches.accepted context
  refine ⟨?_, reaches.prints known tidy context⟩
  rw [told, same]
  rfl

end Reaches
end Session
end Surd
