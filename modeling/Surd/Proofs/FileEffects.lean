import Surd.Proofs.RunCourse
import Surd.Proofs.TreeGrowth

/-! What a run does to files. What it saves goes to one place, behind all that is printed, and however
far the user lets it get, the file there holds a first part of what was printed, without colours. -/

namespace Surd
namespace Action

variable {current : Location} {path : Path} {content : ByteArray} {before tree : FileTree} {action : Action}
  {actions done : List Action}

/-- An action that a result may need which goes to a path: a directory comes where nothing stands, and the
file stands where the path leads to and gets a first part of the content. -/
inductive Fits (current : Location) (path : Path) (content : ByteArray) (tree : FileTree) : Action → Prop
  | print (text : String) : Fits current path content tree (.print text)
  | trace (text : String) : Fits current path content tree (.trace text)
  | makeDirectory {location : Location} (none : tree.entry? location = none) :
    Fits current path content tree (.makeDirectory location)
  | emptyFile {location : Location} (placed : tree.filePlace current path = .ok location) :
    Fits current path content tree (.emptyFile location)
  | fillFile {location : Location} (placed : tree.filePlace current path = .ok location) (count : Nat) :
    Fits current path content tree (.fillFile location (content.extract 0 count))

/-- Actions each of which fits when it is its turn. -/
def FitAll (current : Location) (path : Path) (content : ByteArray) : FileTree → List Action → Prop
  | _, [] => True
  | tree, action :: rest => Fits current path content tree action ∧ FitAll current path content (action.onTree tree) rest

/-- What may have become of the files: new directories, and where the path leads to, a file with a first
part of the content. -/
def Touched (current : Location) (path : Path) (content : ByteArray) (before after : FileTree) : Prop :=
  ∀ location, after.entry? location ≠ before.entry? location →
    before.entry? location = none ∧ after.entry? location = some .directory ∨
      after.locate current path = .ok location ∧ ∃ count, after.entry? location = some (.file (content.extract 0 count))

private theorem touched_makeDirectory (touched : Touched current path content before tree) {location : Location}
    (none : tree.entry? location = none) : Touched current path content before (tree.put location .directory) := by
  have free : tree.entry? location ≠ some .directory := by
    intro stands
    cases none.symm.trans stands
  have fresh : before.entry? location = Option.none := by
    by_contra stood
    have changed : tree.entry? location ≠ before.entry? location := fun same => stood (same.symm.trans none)
    rcases touched location changed with ⟨-, held⟩ | ⟨-, count, held⟩
    · cases none.symm.trans held
    · cases none.symm.trans held
  intro other changed
  by_cases same : other = location
  · subst same
    exact .inl ⟨fresh, tree.entry?_put_same (FileTree.ne_root_of_free free) _⟩
  · rw [tree.entry?_put_other same] at changed ⊢
    rcases touched other changed with made | ⟨located, held⟩
    · exact .inl made
    · exact .inr ⟨FileTree.locate_put free _ located, held⟩

private theorem touched_write (touched : Touched current path content before tree) {location : Location}
    (placed : tree.filePlace current path = .ok location) (count : Nat) :
    Touched current path content before (tree.write location (content.extract 0 count)) := by
  obtain ⟨located, free⟩ := FileTree.filePlace_eq_ok_iff.mp placed
  obtain ⟨leads, kept, held⟩ := FileTree.write_effect free (content.extract 0 count)
  rcases held with filled | ⟨-, swallowed⟩
  · intro other changed
    by_cases same : other = location
    · subst same
      exact .inr ⟨leads located, count, filled⟩
    · rw [kept other same] at changed ⊢
      exact (touched other changed).imp_right (And.imp_left leads)
  · rwa [swallowed]

theorem touched_onTree (touched : Touched current path content before tree) (fits : Fits current path content tree action) :
    Touched current path content before (action.onTree tree) := by
  cases fits with
  | print text => exact touched
  | trace text => exact touched
  | makeDirectory none => exact touched_makeDirectory touched none
  | emptyFile placed =>
    have nothing : content.extract 0 0 = ByteArray.empty := ByteArray.extract_same
    have written := touched_write touched placed 0
    rwa [nothing] at written
  | fillFile placed count => exact touched_write touched placed count

/-- Whatever fits, one after the other, leaves the files touched only. -/
theorem FitAll.touched (fit : FitAll current path content tree actions) :
    Touched current path content tree (actions.foldl onTree tree) := by
  suffices kept : ∀ {start}, Touched current path content start tree →
      Touched current path content start (actions.foldl onTree tree) from kept fun _ changed => absurd rfl changed
  induction actions generalizing tree with
  | nil => exact fun touched => touched
  | cons action rest ih => exact fun touched => ih fit.2 (touched_onTree touched fit.1)

theorem fitAll_append {first second : List Action} :
    FitAll current path content tree (first ++ second) ↔
      FitAll current path content tree first ∧ FitAll current path content (first.foldl onTree tree) second := by
  induction first generalizing tree with
  | nil => exact (iff_of_eq (true_and _)).symm
  | cons action rest ih => exact (and_congr_right fun _ => ih).trans and_assoc.symm

theorem FitAll.brokenOff {bytes count : Nat} (fit : FitAll current path content tree actions)
    (broken : brokenOff? bytes count actions = some done) : FitAll current path content tree done := by
  induction count, actions using brokenOff?.induct generalizing tree done with
  | case1 =>
    cases broken
    trivial
  | case2 action rest =>
    cases broken
    obtain ⟨fits, -⟩ := fit
    cases fits with
    | fillFile placed count =>
      rw [part, ByteArray.extract_extract]
      exact ⟨.fillFile placed _, trivial⟩
    | _ => trivial
  | case3 count action rest ih =>
    obtain ⟨others, further, rfl⟩ := Option.map_eq_some_iff.mp broken
    exact ⟨fit.1, ih fit.2 further⟩
  | case4 => cases broken

/-- A write to one of the streams. -/
def Tells : Action → Prop
  | .print _ | .trace _ => True
  | _ => False

private theorem fitAll_of_tells (tells : ∀ action ∈ actions, action.Tells) : FitAll current path content tree actions := by
  induction actions generalizing tree with
  | nil => trivial
  | cons action rest ih =>
    obtain ⟨first, others⟩ := List.forall_mem_cons.mp tells
    cases action with
    | print text => exact ⟨.print text, ih others⟩
    | trace text => exact ⟨.trace text, ih others⟩
    | _ => cases first

/-- Writes to the streams change nothing in the files. -/
theorem foldl_of_tells (tells : ∀ action ∈ actions, action.Tells) : actions.foldl onTree tree = tree := by
  induction actions generalizing tree with
  | nil => rfl
  | cons action rest ih =>
    obtain ⟨first, others⟩ := List.forall_mem_cons.mp tells
    cases action with
    | print text => exact ih others
    | trace text => exact ih others
    | _ => cases first

theorem tells_of_brokenOff {bytes count : Nat} (tells : ∀ action ∈ actions, action.Tells)
    (broken : brokenOff? bytes count actions = some done) : ∀ action ∈ done, action.Tells := by
  intro action member
  rcases mem_of_brokenOff broken member with whole | ⟨location, content, whole, -⟩
  · exact tells action whole
  · cases tells _ whole

private theorem silent_of_brokenOff {bytes count : Nat} (silent : ∀ action ∈ actions, action.Silent)
    (broken : brokenOff? bytes count actions = some done) : ∀ action ∈ done, action.Silent := by
  intro action member
  rcases mem_of_brokenOff broken member with whole | ⟨location, content, -, rfl⟩
  · exact silent action whole
  · exact fun _ => Action.noConfusion

private theorem fitAll_directories {made : List Location} (free : FileTree.Free tree made) :
    FitAll current path content tree (made.map .makeDirectory) := by
  induction free with
  | nil => trivial
  | cons none _ ih => exact ⟨.makeDirectory none, ih⟩

end Action

namespace Session
open CommandLine (Request)
open Surd.Action
open Ansi

variable {environment : Environment} {call : Call} {tree : FileTree} {context : Context} {request : Request}

/-- What a file gets in which a result is saved. -/
def savedContent (result : Result) : ByteArray := (strip result.text ++ "\n").toUTF8

theorem foldl_directories (tree : FileTree) (made : List Location) :
    (made.map .makeDirectory).foldl onTree tree = tree.withDirectories made := List.foldl_map

/-- Saving does nothing for a path that leads nowhere, and what fits for any other. -/
theorem save_fits {target : String} {result : Result} {changes : List Action} {ended : Except Fault Path}
    (saves : save environment tree target result.text = ⟨changes, ended⟩) :
    changes = [] ∨ ∃ path, environment.outputPath target = .ok path ∧
      FitAll environment.current.segments path (savedContent result) tree changes := by
  have saving := save_saving environment tree target result.text
  rw [saves] at saving
  cases saving with
  | unplaced => exact .inl rfl
  | stopped leads => exact .inr ⟨_, leads, fitAll_directories (FileTree.ensureWithin_free _ _ _ _)⟩
  | written leads placed =>
    refine .inr ⟨_, leads, fitAll_append.mpr ⟨fitAll_directories (FileTree.ensureWithin_free _ _ _ _), ?_⟩⟩
    have whole : (savedContent result).extract 0 (savedContent result).size = savedContent result :=
      ByteArray.extract_zero_size
    have again := FileTree.filePlace_write placed .empty
    have fills : Fits _ _ (savedContent result) _ (.fillFile _ ((savedContent result).extract 0 (savedContent result).size)) :=
      .fillFile again _
    rw [whole] at fills
    rw [foldl_directories]
    exact ⟨.emptyFile placed, fills, trivial⟩

/-- Where a saved result's path leads to no sink, it is read there. -/
private theorem read_saved {target : String} {result : Result} {changes : List Action} {path : Path}
    (saved : save environment tree target result.text = ⟨changes, .ok path⟩) :
    environment.outputPath target = .ok path ∧
      (FileTree.leadsTo (changes.foldl onTree tree) environment.current.segments path .sink = false →
        FileTree.read (changes.foldl onTree tree) environment.current.segments path = .ok (savedContent result)) := by
  have saving := save_saving environment tree target result.text
  rw [saved] at saving
  cases saving with
  | written leads placed =>
    rw [List.foldl_append, foldl_directories]
    exact ⟨leads, FileTree.read_write (FileTree.filePlace_write placed .empty) _⟩

theorem tells_traces {texts : List String} : ∀ action ∈ traces texts, action.Tells := by
  intro action member
  obtain ⟨text, rfl⟩ := exists_of_mem_traces member
  trivial

theorem tells_told {result : Result} : ∀ action ∈ told result, action.Tells := by
  intro action member
  rcases List.mem_append.mp member with trace | line
  · exact tells_traces action trace
  · rcases Action.mem_line.mp line with rfl | rfl
    · trivial
    · trivial

/-- What is done where a result goes to a file: all that is printed comes first, and what fits the file's path
comes behind it. -/
structure Written (environment : Environment) (call : Call) (tree : FileTree) (request : Request) (path : Path)
    (result : Result) (deeds : List Action) : Prop where
  complete : call.complete = true
  wanted : ∃ target, outputText request = some target ∧ environment.outputPath target = .ok path
  answered : ∃ settings, loadSettings environment tree request.config = .ok settings ∧
    answer environment call settings request = .ok result
  cut : ∃ first later, deeds = first ++ later ∧ (∀ action ∈ first, action.Tells) ∧
    Action.shown first = strip result.text ++ "\n" ∧ (∀ action ∈ later, action.Silent) ∧
    FitAll environment.current.segments path (savedContent result) tree later

namespace Written
variable {path : Path} {result : Result} {deeds done : List Action}
  (written : Written environment call tree request path result deeds)
include written

theorem shown : Action.shown deeds = strip result.text ++ "\n" := by
  obtain ⟨first, later, rfl, -, shown, silent, -⟩ := written.cut
  rw [Action.shown_append, shown, Action.shown_of_silent silent, String.append_empty]

theorem touched : Touched environment.current.segments path (savedContent result) tree (deeds.foldl onTree tree) := by
  obtain ⟨first, later, rfl, tells, -, -, fit⟩ := written.cut
  rw [List.foldl_append, foldl_of_tells tells]
  exact fit.touched

/-- Broken off, it has come to no change of the files, or all is printed. -/
theorem brokenOff {bytes count : Nat} (broken : brokenOff? bytes count deeds = some done) :
    (∀ action ∈ done, action.Tells) ∨ Written environment call tree request path result done := by
  obtain ⟨first, later, rfl, tells, shown, silent, fit⟩ := written.cut
  rcases brokenOff_append broken with early | ⟨rest, further, rfl, late⟩
  · exact .inl (tells_of_brokenOff tells early)
  · exact .inr ⟨written.complete, written.wanted, written.answered,
      first, rest, rfl, tells, shown, silent_of_brokenOff silent late, fit.brokenOff late⟩

end Written

namespace Course
variable {course : Course} {current : Context}

private theorem Taken.written_of_unbroken (taken : course.Taken environment call tree request)
    (unbroken : ∀ kept done, course ≠ .interrupted kept done) :
    (∀ action ∈ course.deeds, action.Tells) ∨
      ∃ path result, Written environment call tree request path result course.deeds := by
  have front : ∀ (settings : Settings) (result : Result), ∀ action ∈ opening settings.source ++ told result, action.Tells := by
    intro settings result action member
    rcases List.mem_append.mp member with trace | telling
    · exact tells_traces action trace
    · exact tells_told action telling
  have printed : ∀ (settings : Settings) (result : Result), Action.shown (opening settings.source ++ told result) = strip result.text ++ "\n" := by
    intro settings result
    rw [Action.shown_append, opening, Action.shown_of_silent silent_traces, shown_told, String.empty_append]
  cases course with
  | interrupted settings done => exact absurd rfl (unbroken settings done)
  | unloaded fault => exact .inl (List.forall_mem_nil _)
  | incomplete settings =>
    refine .inl ?_
    rw [deeds, Action.line, List.forall_mem_cons, List.forall_mem_singleton]
    exact ⟨trivial, trivial⟩
  | faulted settings fault => exact .inl tells_traces
  | answered settings result => exact .inl (front settings result)
  | unsaved settings result changes fault =>
    obtain ⟨loaded, complete, answered, target, wanted, unsaved⟩ := taken
    rw [deeds, ← List.append_assoc]
    rcases save_fits unsaved with rfl | ⟨path, leads, fit⟩
    · rw [List.append_nil]
      exact .inl (front settings result)
    · exact .inr ⟨path, result, complete, ⟨target, wanted, leads⟩, ⟨settings, loaded, answered⟩, _, changes, rfl,
        front settings result, printed settings result, silent_changes unsaved, fit⟩
  | saved settings result changes path =>
    obtain ⟨loaded, complete, answered, target, wanted, saved⟩ := taken
    rw [deeds, ← List.append_assoc]
    rcases save_fits saved with rfl | ⟨other, leads, fit⟩
    · refine .inl fun action member => ?_
      rcases List.mem_append.mp member with early | closing
      · exact front settings result action early
      · exact tells_traces action closing
    · refine .inr ⟨other, result, complete, ⟨target, wanted, leads⟩, ⟨settings, loaded, answered⟩, _, _, rfl,
        front settings result, printed settings result, ?_, fitAll_append.mpr ⟨fit, fitAll_of_tells tells_traces⟩⟩
      intro action member
      rcases List.mem_append.mp member with change | trace
      · exact silent_changes saved action change
      · exact silent_traces action trace

/-- However far a course gets, it changes no file, or has printed its result and writes what fits. -/
theorem Taken.written (taken : course.Taken environment call tree request) :
    (∀ action ∈ course.deeds, action.Tells) ∨
      ∃ path result, Written environment call tree request path result course.deeds := by
  cases course with
  | interrupted settings done =>
    rcases taken with ⟨-, rfl⟩ | ⟨bytes, count, known, -, -, broken⟩
    · exact .inl (List.forall_mem_nil _)
    · rcases (undisturbed_taken environment call tree request).written_of_unbroken undisturbed_ne_interrupted with
        tells | ⟨path, result, written⟩
      · exact .inl (tells_of_brokenOff tells broken)
      · exact (written.brokenOff broken).imp_right fun kept => ⟨path, result, kept⟩
  | _ => exact taken.written_of_unbroken fun kept done => Course.noConfusion

/-- A refusal and a missing part come before anything is written. -/
theorem Taken.tree_of_early (taken : course.Taken environment call tree request)
    (early : (course.outcome call tree current).ending = .exit 2 ∨ call.complete = false) :
    course.deeds.foldl onTree tree = tree := by
  rcases early with refused | incomplete
  · obtain ⟨fault, arises, told⟩ := taken.of_refused refused
    rcases taken.of_userError arises told with rfl | ⟨settings, rfl⟩
    · rfl
    · exact foldl_of_tells tells_traces
  · rcases taken.written with tells | ⟨path, result, written⟩
    · exact foldl_of_tells tells
    · cases incomplete.symm.trans written.complete

/-- An accepted request whose result is to be written, and that ends with the code of an answer, gets
to the end of its course. -/
private theorem Taken.saved_of_answered {target : String} (taken : course.Taken environment call tree request)
    (wanted : outputText request = some target)
    (answered : (course.outcome call tree current).ending = .exit 0 ∨
      (course.outcome call tree current).ending = .exit 1 ∧ call.complete = true ∧ course.fault? = none) :
    ∃ settings result changes path, course = .saved settings result changes path := by
  have told : (∃ result, course.result? = some result) ∧ course.fault? = none := by
    rcases answered with zero | ⟨one, complete, unfailed⟩
    · rcases taken.of_exit zero with ⟨other, -⟩ | ⟨other, -⟩ | other | ⟨-, result, shown, unfailed⟩
      · cases other
      · cases other
      · cases other
      · exact ⟨⟨result, shown⟩, unfailed⟩
    · cases course with
      | interrupted settings done => cases one
      | incomplete settings => cases taken.2.symm.trans complete
      | answered settings result => exact ⟨⟨result, rfl⟩, rfl⟩
      | saved settings result changes path => exact ⟨⟨result, rfl⟩, rfl⟩
      | _ => cases unfailed
  obtain ⟨⟨shown, same⟩, unfailed⟩ := told
  cases course with
  | answered settings result => cases taken.2.2.2.symm.trans wanted
  | saved settings result changes path => exact ⟨settings, result, changes, path, rfl⟩
  | unsaved settings result changes fault => cases unfailed
  | _ => cases same

private theorem foldl_saved {settings : Settings} {result : Result} {changes : List Action} {path : Path} :
    (saved settings result changes path).deeds.foldl onTree tree = changes.foldl onTree tree := by
  rw [deeds, List.foldl_append, List.foldl_append, List.foldl_append, opening, foldl_of_tells tells_traces,
    foldl_of_tells tells_told, foldl_of_tells tells_traces]

/-- A result that is to be written, in a run that ends with the code of an answer, is printed and stands where
its path leads. -/
private theorem Taken.filled {target : String} (taken : course.Taken environment call tree request)
    (wanted : outputText request = some target)
    (answered : (course.outcome call tree current).ending = .exit 0 ∨
      (course.outcome call tree current).ending = .exit 1 ∧ call.complete = true ∧ course.fault? = none) :
    ∃ path result, environment.outputPath target = .ok path ∧ course.result? = some result ∧
      Action.shown course.deeds = strip result.text ++ "\n" ∧
      ((course.deeds.foldl onTree tree).leadsTo environment.current.segments path .sink = false →
        (course.deeds.foldl onTree tree).read environment.current.segments path = .ok (savedContent result)) := by
  obtain ⟨settings, result, changes, path, reached⟩ := taken.saved_of_answered wanted answered
  have shows : course.result? = some result := congrArg result? reached
  have printed := taken.shown_of_answered shows
  rw [reached] at taken
  obtain ⟨-, -, -, named, given, saved⟩ := taken
  cases given.symm.trans wanted
  obtain ⟨leads, holds⟩ := read_saved saved
  refine ⟨path, result, leads, shows, printed, ?_⟩
  rw [reached, foldl_saved]
  exact holds

end Course

private theorem run_tree_of_stopped {stop : CommandLine.Stop} (stopped : CommandLine.request call.argv = .error stop) :
    (run environment call tree context).tree = tree := by
  rcases run_of_stopped stopped context with ⟨transcript, told⟩ | ⟨text, -, told⟩ | ⟨text, -, told⟩
  · rw [told]
    rfl
  · rw [told]
  · rw [told]

/-- What changes in the files is directories that come where nothing stood, and the one file that the
request names for its result. Nothing changes in a run that ends as a refusal, or that misses a part. If
the user breaks a run off that has changed something, its result was printed before, and the file holds a
first part of that. When a result is to be written and the run ends with the code of an answer, the
file holds all that was printed without its colours, which is the plain result and a line end. -/
theorem run_files (environment : Environment) (call : Call) (tree : FileTree) (context : Context) :
    let outcome := run environment call tree context
    (∀ location, outcome.tree.entry? location ≠ tree.entry? location →
      tree.entry? location = none ∧ outcome.tree.entry? location = some .directory ∨
        ∃ request target path, CommandLine.request call.argv = .ok request ∧ outputText request = some target ∧
          environment.outputPath target = .ok path ∧
          outcome.tree.locate environment.current.segments path = .ok location) ∧
    (outcome.ending = .exit 2 ∨ call.complete = false → outcome.tree = tree) ∧
    (environment.DrawsPlainly → outcome.ending = .exit 130 → outcome.tree = tree ∨
      ∃ request settings result, CommandLine.request call.argv = .ok request ∧
        loadSettings environment tree request.config = .ok settings ∧
        answer environment call settings request = .ok result ∧
        strip outcome.transcript.stdout = strip result.text ++ "\n" ∧
        ∀ location, outcome.tree.entry? location ≠ tree.entry? location →
          tree.entry? location = none ∧ outcome.tree.entry? location = some .directory ∨
            ∃ count, outcome.tree.entry? location =
              some (.file ((strip outcome.transcript.stdout).toUTF8.extract 0 count))) ∧
    (environment.DrawsPlainly → ∀ request target, CommandLine.request call.argv = .ok request →
      outputText request = some target →
      outcome.ending = .exit 0 ∨
        outcome.ending = .exit 1 ∧ call.complete = true ∧ (course environment call tree request).fault? = none →
      ∃ path result, environment.outputPath target = .ok path ∧
        (course environment call tree request).result? = some result ∧
        strip outcome.transcript.stdout = strip result.text ++ "\n" ∧
        (outcome.tree.leadsTo environment.current.segments path .sink = false →
          outcome.tree.read environment.current.segments path = .ok (strip outcome.transcript.stdout).toUTF8)) := by
  intro outcome
  cases accepted : CommandLine.request call.argv with
  | error stop =>
    have same : outcome.tree = tree := run_tree_of_stopped accepted
    rw [same]
    refine ⟨fun location changed => absurd rfl changed, fun _ => rfl, fun _ _ => .inl rfl, ?_⟩
    intro _ request target impossible
    cases impossible
  | ok request =>
    have taken := course_taken environment call tree request
    have told : outcome = _ := run_eq_outcome accepted context
    have left : outcome.tree = (course environment call tree request).deeds.foldl onTree tree := by
      rw [told, Course.outcome_tree]
    have shown : environment.DrawsPlainly →
        strip outcome.transcript.stdout = Action.shown (course environment call tree request).deeds := by
      intro draws
      rw [told, Course.strip_stdout (taken.tidy draws)]
    have touched : outcome.tree = tree ∨ ∃ path result,
        Written environment call tree request path result (course environment call tree request).deeds := by
      rw [left]
      exact taken.written.imp_left foldl_of_tells
    refine ⟨?_, ?_, ?_, ?_⟩
    · intro location changed
      rcases touched with same | ⟨path, result, written⟩
      · rw [same] at changed
        exact absurd rfl changed
      · rw [left] at changed ⊢
        obtain ⟨target, wanted, leads⟩ := written.wanted
        exact (written.touched location changed).imp_right fun held => ⟨request, target, path, rfl, wanted, leads, held.1⟩
    · intro early
      rw [told] at early
      rw [left]
      exact taken.tree_of_early early
    · intro draws _
      refine touched.imp_right fun ⟨path, result, written⟩ => ?_
      obtain ⟨settings, loaded, answered⟩ := written.answered
      have printed := (shown draws).trans written.shown
      refine ⟨request, settings, result, rfl, loaded, answered, printed, fun location changed => ?_⟩
      rw [printed]
      rw [left] at changed ⊢
      exact (written.touched location changed).imp_right And.right
    · rintro draws _ target ⟨⟩ wanted answered
      rw [told] at answered
      obtain ⟨path, result, leads, shows, telling, holds⟩ := taken.filled wanted answered
      have printed := (shown draws).trans telling
      refine ⟨path, result, leads, shows, printed, ?_⟩
      rw [left, printed]
      exact holds

/-- The resets that a terminal gets after each write are not in the file. -/
theorem run_files_on_terminal :
    let call : Call := ⟨["--output", "o.txt", "isqrt", "4"], true, false, true, none⟩
    let outcome := run surroundings call nested .fresh
    outcome.tree.read ["w"] ⟨.single, ["w", "o.txt"]⟩ = .ok (strip outcome.transcript.stdout).toUTF8 := by
  have accepted : CommandLine.request ["--output", "o.txt", "isqrt", "4"] =
      .ok ⟨none, some (.value "o.txt"), false, false, .floorRoot "4"⟩ := by decide +kernel
  intro call outcome
  have told : outcome = _ := run_eq_outcome accepted .fresh
  have ending : outcome.ending = .exit 0 := by
    rw [told]
    rfl
  have kept : outcome.tree.leadsTo ["w"] ⟨.single, ["w", "o.txt"]⟩ .sink = false := by
    rw [told]
    rfl
  obtain ⟨path, result, leads, -, -, held⟩ :=
    (run_files surroundings call nested .fresh).2.2.2 drawsPlainly_surroundings _ "o.txt" accepted rfl (.inl ending)
  have known : surroundings.outputPath "o.txt" = .ok ⟨.single, ["w", "o.txt"]⟩ := rfl
  cases known.symm.trans leads
  exact held kept

/-- A workspace with a result of an earlier run, and a device that swallows all that is written to it. -/
def occupied : FileTree :=
  ⟨[(["w"], .directory), (["w", "o.txt"], .file "old".toUTF8), (["dev"], .directory), (["dev", "null"], .sink)]⟩

/-- A run that is broken off when its file is open leaves it empty, and a run that ends well leaves nothing in
a sink. -/
theorem run_files_lost :
    let brokenOff : Call := ⟨["--output", "o.txt", "isqrt", "4"], false, false, true, some (.late 5 0)⟩
    let swallowed : Call := ⟨["--output", "/dev/null", "isqrt", "4"], false, false, true, none⟩
    (run surroundings brokenOff occupied .fresh).ending = .exit 130 ∧
      occupied.entry? ["w", "o.txt"] = some (.file "old".toUTF8) ∧
      (run surroundings brokenOff occupied .fresh).tree.entry? ["w", "o.txt"] = some (.file .empty) ∧
      (run surroundings swallowed occupied .fresh).ending = .exit 0 ∧
      surroundings.outputPath "/dev/null" = .ok ⟨.single, ["dev", "null"]⟩ ∧
      (run surroundings swallowed occupied .fresh).tree.read ["w"] ⟨.single, ["dev", "null"]⟩ = .ok .empty ∧
      strip (run surroundings swallowed occupied .fresh).transcript.stdout = "floor(sqrt(4)) = 2\n" := by
  have brokenAccepted : CommandLine.request ["--output", "o.txt", "isqrt", "4"] =
      .ok ⟨none, some (.value "o.txt"), false, false, .floorRoot "4"⟩ := by decide +kernel
  have swallowedAccepted : CommandLine.request ["--output", "/dev/null", "isqrt", "4"] =
      .ok ⟨none, some (.value "/dev/null"), false, false, .floorRoot "4"⟩ := by decide +kernel
  intro brokenOff swallowed
  have early : run surroundings brokenOff occupied .fresh = _ := run_eq_outcome brokenAccepted .fresh
  have sunk : run surroundings swallowed occupied .fresh = _ := run_eq_outcome swallowedAccepted .fresh
  rw [early, sunk]
  refine ⟨rfl, rfl, ?_, rfl, rfl, rfl, ?_⟩
  · decide +kernel
  · decide +kernel

end Session
end Surd
