import Surd.Action
import Surd.Proofs.CodeRemoval

/-! What actions come to, one after the other: the context stays, the streams get what is printed and
traced, and the files are changed in their order. Actions that are broken off are some of the first
ones, and maybe a cut one behind them. -/

namespace Surd
namespace Action
open Ansi Text

variable {call : Call} {stage : Stage} {action : Action} {actions done : List Action}

/-- What an action writes to the output stream. -/
def printed : Action → String
  | .print text => text
  | _ => ""

/-- What an action writes to the error stream where traces are on. -/
def traced : Action → String
  | .trace text => text
  | _ => ""

def Silent (action : Action) : Prop := ∀ text, action ≠ .print text

theorem Silent.printed (silent : action.Silent) : action.printed = "" := by
  cases action with
  | print text => exact absurd rfl (silent text)
  | _ => rfl

/-- What actions show on the output stream, without colours. -/
def shown (actions : List Action) : String := String.join (actions.map fun action => strip action.printed)

theorem shown_append (first second : List Action) : shown (first ++ second) = shown first ++ shown second := by
  rw [shown, List.map_append, String.join_append]
  rfl

theorem shown_of_silent (silent : ∀ action ∈ actions, action.Silent) : shown actions = "" := by
  induction actions with
  | nil => rfl
  | cons action rest ih =>
    obtain ⟨first, others⟩ := List.forall_mem_cons.mp silent
    rw [shown, List.map_cons, String.join_cons, first.printed, strip_of_lacks lacks_empty, String.empty_append]
    exact ih others

theorem mem_line {write : String → Action} {text : String} :
    action ∈ line write text ↔ action = write text ∨ action = write "\n" := by
  rw [line, List.mem_cons, List.mem_singleton]

theorem shown_line (text : String) : shown (line .print text) = strip text ++ "\n" := by
  have plain : strip "\n" = "\n" := strip_of_lacks (by decide)
  rw [shown, line, List.map_cons, List.map_cons, List.map_nil, String.join_cons, String.join_cons]
  exact congrArg _ ((congrArg (· ++ "") plain).trans String.append_empty)

/-- A trace is written to the error stream where traces are on, and else nothing is. -/
private theorem carryOut_trace (call : Call) (stage : Stage) (text : String) :
    carryOut call stage (.trace text) =
      stage.complain (if stage.context.debug then (Tint.of call.stderrTerminal stage.context.color).write text else "") := by
  cases traces : stage.context.debug with
  | true =>
    rw [if_pos rfl, carryOut]
    exact if_pos traces
  | false =>
    have nothing : stage.complain "" = stage := by rw [Stage.complain, String.append_empty]
    rw [if_neg Bool.false_ne_true, nothing, carryOut]
    exact if_neg (Bool.not_eq_true _ ▸ traces)

theorem carryOutAll_cons (call : Call) (stage : Stage) (action : Action) (rest : List Action) :
    carryOutAll call stage (action :: rest) = carryOutAll call (carryOut call stage action) rest := rfl

private theorem carryOut_context : (carryOut call stage action).context = stage.context := by
  cases action with
  | trace text =>
    rw [carryOut_trace]
    rfl
  | _ => rfl

theorem carryOutAll_context : (carryOutAll call stage actions).context = stage.context := by
  induction actions generalizing stage with
  | nil => rfl
  | cons action rest ih => rw [carryOutAll_cons, ih, carryOut_context]

private theorem carryOut_tree : (carryOut call stage action).tree = action.onTree stage.tree := by
  cases action with
  | trace text =>
    rw [carryOut_trace]
    rfl
  | _ => rfl

theorem carryOutAll_tree : (carryOutAll call stage actions).tree = actions.foldl onTree stage.tree := by
  induction actions generalizing stage with
  | nil => rfl
  | cons action rest ih => rw [carryOutAll_cons, ih, carryOut_tree, List.foldl_cons]

private theorem carryOut_stdout (tidy : Tidy action.printed) (plain : Tidy stage.transcript.stdout) :
    Tidy (carryOut call stage action).transcript.stdout ∧
      strip (carryOut call stage action).transcript.stdout = strip stage.transcript.stdout ++ strip action.printed := by
  have silent : strip stage.transcript.stdout = strip stage.transcript.stdout ++ strip "" := by
    rw [strip_of_lacks lacks_empty, String.append_empty]
  cases action with
  | print text =>
    have fresh : Tidy text := tidy
    refine ⟨plain.append (Tint.tidy_write fresh _), (strip_append plain _).trans ?_⟩
    rw [Tint.strip_write fresh]
    rfl
  | trace text =>
    rw [carryOut_trace]
    exact ⟨plain, silent⟩
  | _ => exact ⟨plain, silent⟩

/-- Without its colours, what actions print is the same on any terminal. -/
theorem strip_carryOutAll (tidy : ∀ action ∈ actions, Tidy action.printed) (plain : Tidy stage.transcript.stdout) :
    strip (carryOutAll call stage actions).transcript.stdout = strip stage.transcript.stdout ++ shown actions := by
  induction actions generalizing stage with
  | nil => exact String.append_empty.symm
  | cons action rest ih =>
    obtain ⟨first, others⟩ := List.forall_mem_cons.mp tidy
    obtain ⟨still, added⟩ := @carryOut_stdout call stage action first plain
    rw [carryOutAll_cons, ih others still, added, String.append_assoc]
    exact congrArg _ (String.join_cons).symm

/-- Actions that print nothing leave the output stream as it is, character by character. -/
theorem carryOutAll_stdout_of_silent (silent : ∀ action ∈ actions, action.Silent) :
    (carryOutAll call stage actions).transcript.stdout = stage.transcript.stdout := by
  induction actions generalizing stage with
  | nil => rfl
  | cons action rest ih =>
    obtain ⟨first, others⟩ := List.forall_mem_cons.mp silent
    rw [carryOutAll_cons, ih others]
    cases action with
    | print text => exact absurd rfl (first text)
    | trace text =>
      rw [carryOut_trace]
      rfl
    | _ => rfl

private theorem carryOut_stderr_of_untraced (untraced : stage.context.debug = false) :
    (carryOut call stage action).transcript.stderr = stage.transcript.stderr := by
  cases action with
  | trace text =>
    unfold carryOut
    rw [untraced]
    rfl
  | _ => rfl

/-- Where traces are off, actions write nothing to the error stream. -/
theorem carryOutAll_stderr_of_untraced (untraced : stage.context.debug = false) :
    (carryOutAll call stage actions).transcript.stderr = stage.transcript.stderr := by
  induction actions generalizing stage with
  | nil => rfl
  | cons action rest ih =>
    have still : (carryOut call stage action).context.debug = false := by rw [carryOut_context, untraced]
    rw [carryOutAll_cons, ih still, carryOut_stderr_of_untraced untraced]

theorem lacks_stderr_carryOutAll {c : Char} (each : ∀ action ∈ actions, Lacks c action.traced)
    (off : call.stderrTerminal = false ∨ stage.context.color = false) (plain : Lacks c stage.transcript.stderr) :
    Lacks c (carryOutAll call stage actions).transcript.stderr := by
  induction actions generalizing stage with
  | nil => exact plain
  | cons action rest ih =>
    obtain ⟨first, others⟩ := List.forall_mem_cons.mp each
    rw [carryOutAll_cons]
    refine ih others (by rwa [carryOut_context]) ?_
    cases action with
    | trace text =>
      have tint : Tint.of call.stderrTerminal stage.context.color = .plain := by
        rcases off with absent | colourless
        · rw [absent]
          rfl
        · rw [colourless, Tint.of, Bool.and_false]
          rfl
      rw [carryOut_trace, tint]
      refine lacks_append.mpr ⟨plain, ?_⟩
      split
      · exact lacks_strip first
      · exact lacks_empty
    | _ => exact plain

section
variable {bytes count : Nat}

/-- What is done of actions that are broken off are some of them, and maybe a part of one that fills a
file. -/
theorem mem_of_brokenOff (broken : brokenOff? bytes count actions = some done) (member : action ∈ done) :
    action ∈ actions ∨ ∃ location content, .fillFile location content ∈ actions ∧
      action = .fillFile location (content.extract 0 bytes) := by
  induction count, actions using brokenOff?.induct generalizing done with
  | case1 =>
    cases broken
    cases member
  | case2 first rest =>
    cases broken
    cases first with
    | fillFile location content => exact .inr ⟨location, content, List.mem_cons_self, List.mem_singleton.mp member⟩
    | _ => cases member
  | case3 count first rest ih =>
    obtain ⟨others, further, rfl⟩ := Option.map_eq_some_iff.mp broken
    rcases List.mem_cons.mp member with rfl | later
    · exact .inl List.mem_cons_self
    · rcases ih further later with whole | ⟨location, content, whole, cut⟩
      · exact .inl (List.mem_cons_of_mem first whole)
      · exact .inr ⟨location, content, List.mem_cons_of_mem first whole, cut⟩
  | case4 => cases broken

/-- Actions that are broken off end among the first of them, or the first are all done. -/
theorem brokenOff_append {first second : List Action} (broken : brokenOff? bytes count (first ++ second) = some done) :
    brokenOff? bytes count first = some done ∨
      ∃ rest later, done = first ++ rest ∧ brokenOff? bytes later second = some rest := by
  induction first generalizing count done with
  | nil => exact .inr ⟨done, count, rfl, broken⟩
  | cons action first ih =>
    cases count with
    | zero => exact .inl broken
    | succ count =>
      obtain ⟨others, further, rfl⟩ := Option.map_eq_some_iff.mp broken
      rcases ih further with early | ⟨rest, later, rfl, behind⟩
      · exact .inl (congrArg (Option.map (action :: ·)) early)
      · exact .inr ⟨rest, later, rfl, behind⟩

end
end Action

namespace Steps
variable {α β : Type}

theorem act_bind (actions : List Action) (next : Unit → Steps β) :
    (act actions >>= next) = ⟨actions ++ (next ()).actions, (next ()).result⟩ := rfl

theorem ok_bind (a : α) (next : α → Steps β) : ((liftM (Except.ok (ε := Fault) a) : Steps α) >>= next) = next a := rfl

theorem error_bind (fault : Fault) (next : α → Steps β) :
    ((liftM (Except.error (α := α) fault) : Steps α) >>= next) = ⟨[], .error fault⟩ := rfl

end Steps
end Surd
