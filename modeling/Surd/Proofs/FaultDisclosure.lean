import Surd.Proofs.RunCourse

/-! How a fault is disclosed that is none of the user's: raised again where traces are on, told in two
lines where they are not. The switch for traces is set when the settings are in force. A fault that
keeps them from loading comes before that, and meets the switch as the run before left it. -/

namespace Surd.Session
open CommandLine (Request)
open Settings (setting)

variable {environment : Environment} {call : Call} {tree : FileTree} {context : Context} {request : Request}
  {fault : Fault} {settings : Settings}

private theorem fail_raised_iff {stage : Stage} (system : fault.System) :
    (fail call stage fault).ending = .raised fault ↔ stage.context.debug = true := by
  constructor
  · intro raised
    by_contra untraced
    rw [fail_of_untraced system (Bool.eq_false_iff.mpr untraced)] at raised
    cases raised
  · intro traces
    rw [fail_of_traced system traces]

/-- With settings that load, a run raises a fault again just when it asks for traces, on its command
line or in those settings; what was in force before has no part in it. With settings that do not load,
only what was in force before counts. A fault that is not raised again is told in its two lines. -/
theorem run_fault_disclosed (accepted : CommandLine.request call.argv = .ok request)
    (arises : (course environment call tree request).fault? = some fault) (system : fault.System) :
    let ending := (run environment call tree context).ending
    (∀ settings, loadSettings environment tree request.config = .ok settings →
        (ending = .raised fault ↔ request.debug = true ∨ setting settings.data "BEHAVIOUR" "DEBUG" = .bool true)) ∧
      (∀ unloaded, loadSettings environment tree request.config = .error unloaded →
        (ending = .raised fault ↔ context.debug = true)) ∧
      (ending ≠ .raised fault →
        ending = .exit 1 ∧ (run environment call tree context).transcript.stderr = unexpectedLines fault) := by
  have taken := course_taken environment call tree request
  have told : run environment call tree context = _ := run_eq_outcome accepted context
  generalize course environment call tree request = reached at arises taken told
  rw [Course.outcome_of_fault arises] at told
  rw [told]
  refine ⟨?_, ?_, ?_⟩
  · intro settings loaded
    have checked := (loadSettings_ends environment tree request.config).answer loaded
    rw [fail_raised_iff system, Course.stage_context, taken.inForce_of_loaded arises loaded, contextOf_debug checked.1]
  · intro unloaded failed
    rw [fail_raised_iff system, Course.stage_context, taken.inForce_of_unloaded failed]
  · intro kept
    have untraced : (reached.inForce context request).debug = false := by
      refine Bool.eq_false_iff.mpr fun traces => kept ?_
      rw [fail_raised_iff system, Course.stage_context, traces]
    rw [fail_of_untraced system (by rwa [Course.stage_context]), Stage.complain, Course.stage_of_untraced untraced,
      String.empty_append]
    exact ⟨rfl, rfl⟩

theorem run_fault_disclosed_while_writing :
    let call : Call := ⟨["--debug", "--output", "d", "isqrt", "4"], false, false, true, none⟩
    (run surroundings call nested .fresh).ending = .raised (.isDirectory "/w/d") := by
  have accepted : CommandLine.request ["--debug", "--output", "d", "isqrt", "4"] =
      .ok ⟨none, some (.value "d"), false, true, .floorRoot "4"⟩ := by decide +kernel
  have loaded : loadSettings surroundings nested none = .ok .standard := rfl
  intro call
  have disclosed := @run_fault_disclosed surroundings call nested .fresh _ (.isDirectory "/w/d") accepted rfl rfl
  exact (disclosed.1 .standard loaded).mpr (.inl rfl)

/-- A directory in the place of the settings file: the traces that the run asks for do not raise the
fault again, and those of an earlier run do, whether or not this one asks. -/
theorem loading_fault_undisclosed :
    let asking : Call := ⟨["--debug", "--config", "d", "isqrt", "4"], false, false, true, none⟩
    let silent : Call := ⟨["--config", "d", "isqrt", "4"], false, false, true, none⟩
    let traces : Context := ⟨.null, [], true, true⟩
    (CommandLine.request asking.argv).map Request.debug = .ok true ∧
      (CommandLine.request silent.argv).map Request.debug = .ok false ∧
      loadSettings surroundings nested (some (.value "d")) = .error (.isDirectory "d") ∧
      (run surroundings asking nested .fresh).ending = .exit 1 ∧
      (run surroundings silent nested traces).ending = .raised (.isDirectory "d") := by
  have asks : CommandLine.request ["--debug", "--config", "d", "isqrt", "4"] =
      .ok ⟨some (.value "d"), none, false, true, .floorRoot "4"⟩ := by decide +kernel
  have keeps : CommandLine.request ["--config", "d", "isqrt", "4"] =
      .ok ⟨some (.value "d"), none, false, false, .floorRoot "4"⟩ := by decide +kernel
  have unloaded : loadSettings surroundings nested (some (.value "d")) = .error (.isDirectory "d") := rfl
  intro asking silent traces
  refine ⟨congrArg _ asks, congrArg _ keeps, unloaded, ?_, ?_⟩
  · rw [run_eq_outcome asks .fresh]
    rfl
  · rw [run_eq_outcome keeps traces]
    rfl

end Surd.Session
