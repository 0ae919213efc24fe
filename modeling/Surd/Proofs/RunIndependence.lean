import Mathlib.Control.Monad.Basic
import Surd.Proofs.Actions
import Surd.Session

/-! What earlier runs leave does not reach a run whose settings load. Putting settings in force
replaces all that was in force, and it comes before the command, so that the command and whatever
tells of its faults see the settings and the request of this run only. -/

namespace Surd

/-- Every part of a context is replaced: the switches are read only once the settings are. -/
theorem Context.adopt_eq_apply (context : Context) (settings : List (String × Value)) (profile : Value) :
    context.adopt settings profile = apply settings profile := rfl

namespace Session
variable {environment : Environment} {call : Call} {tree : FileTree} {request : CommandLine.Request}
  {settings : Settings}

theorem contextOf_eq (context : Context) (settings : Settings) (request : CommandLine.Request) :
    contextOf context settings request = contextOf .fresh settings request := by
  unfold contextOf
  rw [context.adopt_eq_apply, Context.fresh.adopt_eq_apply]

private theorem fail_context (call : Call) (stage : Stage) (fault : Fault) : (fail call stage fault).context = stage.context := by
  unfold fail
  split
  · rfl
  · split
    · rfl
    · rfl

/-- Nothing that a run does behind its settings, and no fault of it, changes the context. -/
theorem follow_context (call : Call) (stage : Stage) (steps : Steps Nat) :
    (follow call stage steps).context = stage.context := by
  unfold follow
  split
  · exact Action.carryOutAll_context
  · unfold conclude
    split
    · exact Action.carryOutAll_context
    · exact (fail_context call _ _).trans Action.carryOutAll_context

/-- Even where nothing is to be done the user can break a run off before it ends. -/
private theorem follow_nothing (call : Call) (stage : Stage) (code : Nat) :
    follow call stage (pure code) = abort stage ∨ follow call stage (pure code) = ⟨stage, .exit code⟩ := by
  have broken : call.brokenOff? [] = some [] ∨ call.brokenOff? [] = none := by
    unfold Call.brokenOff?
    split
    · next count bytes _ =>
      cases count with
      | zero => exact .inl rfl
      | succ count => exact .inr rfl
    · exact .inr rfl
  rcases broken with early | late
  · left
    simp only [follow, pure, early]
    rfl
  · right
    simp only [follow, pure, late]
    rfl

theorem run_of_early (early : call.interruption = some .early) (context : Context) :
    run environment call tree context = abort ⟨⟨"", ""⟩, tree, context⟩ := by
  rw [run, if_pos early]

/-- A command line without a request is told at once, on one of the streams, unless the user breaks the run off. -/
theorem run_of_stopped {stop : CommandLine.Stop} (stopped : CommandLine.request call.argv = .error stop) (context : Context) :
    (∃ transcript, run environment call tree context = abort ⟨transcript, tree, context⟩) ∨
      (∃ text, stop = .shown text ∧ run environment call tree context = ⟨⟨⟨text, ""⟩, tree, context⟩, .exit 0⟩) ∨
      ∃ text, stop = .refused text ∧ run environment call tree context = ⟨⟨⟨"", text⟩, tree, context⟩, .exit 2⟩ := by
  by_cases early : call.interruption = some .early
  · exact .inl ⟨_, run_of_early early context⟩
  · rw [run, if_neg early, stopped]
    cases stop with
    | shown text => exact (follow_nothing call _ 0).imp (fun aborted => ⟨_, aborted⟩) fun ended => .inl ⟨text, rfl, ended⟩
    | refused text => exact (follow_nothing call _ 2).imp (fun aborted => ⟨_, aborted⟩) fun ended => .inr ⟨text, rfl, ended⟩

/-- A request whose settings load runs in the context that these make of the one before. -/
theorem run_of_loaded (accepted : CommandLine.request call.argv = .ok request) (started : call.interruption ≠ some .early)
    (loaded : loadSettings environment tree request.config = .ok settings) (context : Context) :
    run environment call tree context =
      follow call ⟨⟨"", ""⟩, tree, contextOf context settings request⟩
        (perform environment call tree (contextOf context settings request) settings.source request) := by
  rw [run, if_neg started, accepted]
  dsimp only
  rw [loaded]

/-- Two runs of one request on the same files, with settings that load, end alike, print the same and
leave the same files, whatever was in force before each of them. What they leave in force is also
the same, unless the user broke them off before their settings took effect. -/
theorem run_independent (accepted : CommandLine.request call.argv = .ok request)
    (loaded : loadSettings environment tree request.config = .ok settings) (first second : Context) :
    (run environment call tree first).ending = (run environment call tree second).ending ∧
      (run environment call tree first).transcript = (run environment call tree second).transcript ∧
      (run environment call tree first).tree = (run environment call tree second).tree ∧
      (call.interruption ≠ some .early →
        (run environment call tree first).context = (run environment call tree second).context ∧
        (run environment call tree first).context = contextOf .fresh settings request) := by
  by_cases early : call.interruption = some .early
  · rw [run_of_early early first, run_of_early early second]
    exact ⟨rfl, rfl, rfl, fun started => absurd early started⟩
  · rw [run_of_loaded accepted early loaded first, run_of_loaded accepted early loaded second,
      contextOf_eq first, contextOf_eq second]
    exact ⟨rfl, rfl, rfl, fun _ => ⟨rfl, follow_context call _ _⟩⟩

/-- A workspace with those settings in it. -/
def furnished (content : String) : FileTree :=
  ⟨[(["w"], .directory), (["w", "settings.toml"], .file content.toUTF8)]⟩

/-- The surroundings of a run there, with pictures that look the same everywhere. -/
def surroundings : Environment := ⟨Path.ofText "/w", "/home", [], some "/w", fun _ => SquareRoot.drawing⟩

/-- A fault of the command is told alike in a new process and after a run that left traces on and
colours off. The settings file names neither, so both come from the defaults. -/
theorem run_independent_after_traces :
    let call : Call := ⟨["--output", "o.txt", "factor", "1"], true, true, true, none⟩
    let tree := furnished "[OUTPUT]\nPRETTY = true\n"
    let traces : Context := ⟨.null, [], true, false⟩
    (run surroundings call tree traces).transcript = (run surroundings call tree .fresh).transcript ∧
      (run surroundings call tree traces).context.color = (run surroundings call tree .fresh).context.color := by
  have accepted : CommandLine.request ["--output", "o.txt", "factor", "1"] =
      .ok ⟨none, some (.value "o.txt"), false, false, .factor "1"⟩ := by decide +kernel
  have loads : (loadSettings surroundings (furnished "[OUTPUT]\nPRETTY = true\n") none).toBool = true := by
    decide +kernel
  intro call tree traces
  cases loaded : loadSettings surroundings tree none with
  | error fault => rw [loaded] at loads; cases loads
  | ok settings =>
    obtain ⟨-, printed, -, left⟩ := @run_independent surroundings call tree _ settings accepted loaded traces .fresh
    exact ⟨printed, congrArg Context.color (left (by decide)).1⟩

end Session
end Surd
