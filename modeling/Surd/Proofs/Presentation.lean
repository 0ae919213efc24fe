import Surd.Proofs.RunCourse

/-! The presentation of a run: its switches and its terminals. Command lines that are the same but for
their switches make requests that are alike but for them. Such requests take the same course, and the
presentation decides only how that course is told. -/

namespace Surd
namespace CommandLine

/-- The same request, whatever its switches say. -/
structure Request.Alike (first second : Request) : Prop where
  config : first.config = second.config
  output : first.output = second.output
  command : first.command = second.command

def Request.switched (noColor debug : Bool) (request : Request) : Request :=
  { request with noColor := request.noColor || noColor, debug := request.debug || debug }

def Options.switched (noColor debug : Bool) (options : Options) : Options :=
  { options with noColor := options.noColor || noColor, debug := options.debug || debug }

variable {grammar : Grammar} {noColor debug : Bool}

private theorem Options.turn_switched (options : Options) (flag : Flag) :
    (options.switched noColor debug).turn grammar flag = (options.turn grammar flag).map (switched noColor debug) := by
  cases flag <;> rfl

private theorem Options.set_switched (options : Options) (flag : Flag) (given : Given String) :
    (options.switched noColor debug).set grammar flag given =
      (options.set grammar flag given).map (switched noColor debug) := by
  cases flag with
  | perRow =>
    cases given with
    | nothing => rfl
    | value text =>
      simp only [set]
      split
      · rfl
      · rfl
  | _ => rfl

private theorem readOption_switched (options : Options) (use : Use) (rest : List Word) :
    readOption grammar (options.switched noColor debug) use rest =
      (readOption grammar options use rest).map fun read => (read.1.switched noColor debug, read.2) := by
  have paired : ∀ (result : Except Stop Options) (left : List Word),
      ((result.map (Options.switched noColor debug)).map fun options => (options, left)) =
        (result.map fun options => (options, left)).map fun read => (read.1.switched noColor debug, read.2) := by
    intro result left
    cases result with
    | error stop => rfl
    | ok options => rfl
  unfold readOption
  split
  · split
    · rw [Options.set_switched, paired]
    · rw [Options.set_switched, paired]
    · rfl
  · split
    · rfl
    · rw [Options.turn_switched, paired]

private theorem dispatch_switched (options : Options) (name : String) (rest : List Word) :
    dispatch (options.switched noColor debug) name rest =
      (dispatch options name rest).map (Request.switched noColor debug) := by
  unfold dispatch
  split
  · rfl
  · next known _ =>
    cases command known (rest.map Word.text) with
    | error stop => rfl
    | ok read =>
      obtain ⟨command, unknown⟩ := read
      dsimp only [bind, Except.bind]
      change (if (options.unknown ++ unknown).isEmpty = true then _ else _) = _
      split
      · rfl
      · rfl

/-- A switch that is on changes nothing of a request but itself, whatever follows. -/
private theorem readMain_switched (options : Options) (words : List Word) :
    readMain (options.switched noColor debug) words = (readMain options words).map (Request.switched noColor debug) := by
  induction options, words using readMain.induct with
  | case1 options =>
    rw [readMain, readMain]
    rfl
  | case2 options name rest =>
    rw [readMain, readMain]
    exact dispatch_switched options name rest
  | case3 options rest last =>
    rw [readMain, if_pos last, readMain, if_pos last]
    rfl
  | case4 options rest further =>
    rw [readMain, if_neg further, readMain, if_neg further]
    exact dispatch_switched options "--" rest
  | case5 options text rest ih =>
    rw [readMain, readMain]
    exact ih
  | case6 options text use rest stop read =>
    have switched := @readOption_switched mainGrammar noColor debug options use rest
    rw [read] at switched
    rw [readMain_of_refused read, readMain_of_refused switched]
    rfl
  | case7 options text use rest after left read ih =>
    have switched := @readOption_switched mainGrammar noColor debug options use rest
    rw [read] at switched
    rw [readMain_of_read read, readMain_of_read switched]
    exact ih

/-- A switch, as it counts: with a value attached it would be refused. -/
def Use.isSwitch (use : Use) : Bool := use.attached.isNone && (use.flag == .noColor || use.flag == .debug)

/-- The words of a command line without the switches in front of the command. A word that an option takes
as its value stays with it. -/
def dropSwitches (words : List Word) : List Word :=
  match words with
  | .option text none :: rest => .option text none :: dropSwitches rest
  | .option text (some use) :: rest =>
    if use.isSwitch then dropSwitches rest
    else if use.flag.takesValue && use.attached.isNone then
      match rest with
      | .operand value :: after => .option text (some use) :: .operand value :: dropSwitches after
      | rest => .option text (some use) :: rest
    else .option text (some use) :: dropSwitches rest
  | words => words
termination_by structural words

/-- What a command line says besides its switches. -/
def unswitched (texts : List String) : Except String (List Word) := (mainGrammar.words texts).map dropSwitches

private theorem readOption_of_switch {use : Use} (switch : use.isSwitch = true) (options : Options) (rest : List Word) :
    ∃ noColor debug, readOption mainGrammar options use rest = .ok (options.switched noColor debug, rest) := by
  obtain ⟨flag, short, attached⟩ := use
  obtain ⟨config, output, noColor, debug, perRow, pretty, operand, unknown⟩ := options
  simp only [Use.isSwitch, Bool.and_eq_true, Bool.or_eq_true, beq_iff_eq, Option.isNone_iff_eq_none] at switch
  obtain ⟨rfl, rfl | rfl⟩ := switch
  · refine ⟨true, false, ?_⟩
    rw [Options.switched, Bool.or_true, Bool.or_false]
    rfl
  · refine ⟨false, true, ?_⟩
    rw [Options.switched, Bool.or_true, Bool.or_false]
    rfl

/-- An option that does not take the next word is noted whatever follows. -/
private theorem readOption_alone {use : Use} (alone : (use.flag.takesValue && use.attached.isNone) = false) (options : Options) :
    ∃ noted : Except Stop Options, ∀ rest, readOption mainGrammar options use rest = noted.map fun options => (options, rest) := by
  obtain ⟨flag, short, attached⟩ := use
  cases takes : flag.takesValue with
  | true =>
    cases attached with
    | none => simp only [takes, Option.isNone_none, Bool.and_self, Bool.true_eq_false] at alone
    | some value =>
      refine ⟨options.set mainGrammar flag (attachedValue value), fun rest => ?_⟩
      simp only [readOption, takes, if_true]
  | false =>
    cases idle : (Use.mk flag short attached).idle? with
    | some text =>
      refine ⟨.error (refuseFlag mainGrammar flag s!"ignored explicit argument {Text.quoted text}"), fun rest => ?_⟩
      simp only [readOption, takes, Bool.false_eq_true, if_false, idle]
      rfl
    | none =>
      refine ⟨options.turn mainGrammar flag, fun rest => ?_⟩
      simp only [readOption, takes, Bool.false_eq_true, if_false, idle]

private theorem map_switched_switched (result : Except Stop Request) (first second : Bool × Bool) :
    (result.map (Request.switched first.1 first.2)).map (Request.switched second.1 second.2) =
      result.map (Request.switched (first.1 || second.1) (first.2 || second.2)) := by
  cases result with
  | error stop => rfl
  | ok request =>
    simp only [Except.map, Request.switched, Bool.or_assoc]

private theorem map_switched_off (result : Except Stop Request) : result = result.map (Request.switched false false) := by
  cases result with
  | error stop => rfl
  | ok request =>
    obtain ⟨config, output, noColor, debug, command⟩ := request
    simp only [Except.map, Request.switched, Bool.or_false]

/-- Without its switches, a command line makes the same request but for them. -/
theorem readMain_dropSwitches (options : Options) (words : List Word) :
    ∃ noColor debug, readMain options words = (readMain options (dropSwitches words)).map (Request.switched noColor debug) := by
  induction words using dropSwitches.induct generalizing options with
  | case1 text rest ih =>
    rw [dropSwitches, readMain, readMain]
    exact ih (options.leave text)
  | case2 text use rest switch ih =>
    obtain ⟨noColor, debug, read⟩ := readOption_of_switch switch options rest
    obtain ⟨others, traces, same⟩ := ih options
    rw [dropSwitches.eq_def]
    dsimp only
    rw [if_pos switch, readMain_of_read read, readMain_switched, same]
    exact ⟨_, _, map_switched_switched _ (others, traces) (noColor, debug)⟩
  | case3 text use other takes value after ih =>
    have noted : ∀ rest, readOption mainGrammar options use (.operand value :: rest) =
        (options.set mainGrammar use.flag (.value value)).map fun options => (options, rest) := by
      obtain ⟨valued, bare⟩ := Bool.and_eq_true_iff.mp takes
      intro rest
      simp only [readOption, if_pos valued, Option.isNone_iff_eq_none.mp bare]
    rw [dropSwitches.eq_def]
    dsimp only
    rw [if_neg other, if_pos takes]
    cases set : options.set mainGrammar use.flag (.value value) with
    | error stop =>
      rw [set] at noted
      rw [readMain_of_refused (noted after), readMain_of_refused (noted _)]
      exact ⟨false, false, rfl⟩
    | ok later =>
      rw [set] at noted
      rw [readMain_of_read (noted after), readMain_of_read (noted _)]
      exact ih later
  | case4 text use other takes rest unvalued =>
    have same : dropSwitches (.option text (some use) :: rest) = .option text (some use) :: rest := by
      rw [dropSwitches.eq_def]
      dsimp only
      rw [if_neg other, if_pos takes]
      split
      · next value after => exact absurd rfl (unvalued value after)
      · rfl
    rw [same]
    exact ⟨false, false, map_switched_off _⟩
  | case5 text use rest other takes ih =>
    obtain ⟨noted, reads⟩ := readOption_alone (Bool.eq_false_iff.mpr takes) options
    rw [dropSwitches.eq_def]
    dsimp only
    rw [if_neg other, if_neg takes]
    cases noted with
    | error stop =>
      rw [readMain_of_refused (reads rest), readMain_of_refused (reads _)]
      exact ⟨false, false, rfl⟩
    | ok later =>
      rw [readMain_of_read (reads rest), readMain_of_read (reads _)]
      exact ih later
  | case6 words unknown known =>
    have same : dropSwitches words = words := by
      rw [dropSwitches]
      · exact unknown
      · exact known
    rw [same]
    exact ⟨false, false, map_switched_off _⟩

/-- Command lines that say the same besides their switches are accepted together, and make requests that
are alike. -/
theorem request_unswitched {first second : List String} (same : unswitched first = unswitched second) {one : Request}
    (accepted : request first = .ok one) : ∃ other, request second = .ok other ∧ one.Alike other := by
  unfold unswitched at same
  unfold request at accepted ⊢
  cases firstWords : mainGrammar.words first with
  | error message =>
    rw [firstWords] at accepted
    cases accepted
  | ok words =>
    rw [firstWords] at same accepted
    cases secondWords : mainGrammar.words second with
    | error message =>
      rw [secondWords] at same
      cases same
    | ok others =>
      rw [secondWords] at same
      have dropped : dropSwitches words = dropSwitches others := Except.ok.inj same
      obtain ⟨noColor, debug, reads⟩ := readMain_dropSwitches {} words
      obtain ⟨otherNoColor, otherDebug, otherReads⟩ := readMain_dropSwitches {} others
      change readMain {} words = .ok one at accepted
      change ∃ other, readMain {} others = .ok other ∧ _
      rw [reads, dropped] at accepted
      rw [otherReads]
      cases base : readMain {} (dropSwitches others) with
      | error stop =>
        rw [base] at accepted
        cases accepted
      | ok request =>
        rw [base] at accepted
        cases accepted
        exact ⟨_, rfl, rfl, rfl, rfl⟩

end CommandLine

/-- A picture does not depend on where it goes, as on terminals that are wide enough for it. -/
def Environment.DrawsSteadily (environment : Environment) : Prop :=
  ∀ root, environment.draw true root = environment.draw false root

namespace Session
open CommandLine (Request unswitched)
open Ansi

variable {environment : Environment} {tree : FileTree} {first second : Call} {one other : Request}

private theorem draw_steady (steady : environment.DrawsSteadily) (here there : Bool) :
    environment.draw here = environment.draw there := by
  funext root
  cases here with
  | true =>
    cases there with
    | true => rfl
    | false => exact steady root
  | false =>
    cases there with
    | true => exact (steady root).symm
    | false => rfl

/-- Requests that are alike take one course, wherever pictures go that are the same there. -/
theorem course_congr (steady : environment.DrawsSteadily) (alike : one.Alike other) (complete : first.complete = second.complete)
    (interruption : first.interruption = second.interruption) :
    course environment first tree one = course environment second tree other := by
  have answers : ∀ settings, answer environment first settings one = answer environment second settings other := by
    intro settings
    rw [answer, answer, draw_steady steady first.stdoutTerminal second.stdoutTerminal, alike.command]
  have outputs : outputText one = outputText other := by rw [outputText, outputText, alike.output]
  have whole : undisturbed environment first tree one = undisturbed environment second tree other := by
    simp only [undisturbed, alike.config, complete, answers, outputs]
  rw [course, course, whole, interruption]

/-- A fault that is not raised again ends any run alike. -/
private theorem fail_ending_of_told {call : Call} {stage : Stage} {fault : Fault}
    (told : (fail call stage fault).ending ≠ .raised fault) :
    (fail call stage fault).ending = .exit (if fault.isUserError then 2 else 1) := by
  rcases fail_cases stage.context fault with user | ⟨system, traces⟩ | ⟨system, silence⟩
  · rw [fail_of_user user, if_pos user]
  · exact absurd (congrArg Outcome.ending (fail_of_traced system traces)) told
  · rw [fail_of_untraced system silence, system]
    rfl

private theorem Course.ending_congr {course : Course} {current after : Context}
    (told : ∀ fault, (course.outcome first tree current).ending ≠ .raised fault)
    (alsoTold : ∀ fault, (course.outcome second tree after).ending ≠ .raised fault) :
    (course.outcome first tree current).ending = (course.outcome second tree after).ending := by
  cases arises : course.fault? with
  | some fault =>
    rw [outcome_of_fault arises] at told alsoTold ⊢
    rw [outcome_of_fault arises]
    exact (fail_ending_of_told (told fault)).trans (fail_ending_of_told (alsoTold fault)).symm
  | none =>
    cases course
    all_goals first
      | rfl
      | cases arises

/-- Two runs whose command lines say the same besides their switches, on terminals or not, and whatever was
in force before each: the second is accepted as the first is, and if neither raises its fault again, they
end alike, print the same but for colours, and leave the same files. Pictures are taken to be the same
everywhere, and plain. -/
theorem run_presentation (draws : environment.DrawsPlainly) (steady : environment.DrawsSteadily)
    (accepted : CommandLine.request first.argv = .ok one) (same : unswitched first.argv = unswitched second.argv)
    (complete : first.complete = second.complete) (interruption : first.interruption = second.interruption)
    {earlier later : Context} (told : ∀ fault, (run environment first tree earlier).ending ≠ .raised fault)
    (alsoTold : ∀ fault, (run environment second tree later).ending ≠ .raised fault) :
    (∃ other, CommandLine.request second.argv = .ok other ∧ one.Alike other) ∧
      (run environment first tree earlier).ending = (run environment second tree later).ending ∧
      strip (run environment first tree earlier).transcript.stdout =
        strip (run environment second tree later).transcript.stdout ∧
      (run environment first tree earlier).tree = (run environment second tree later).tree := by
  obtain ⟨other, otherAccepted, alike⟩ := CommandLine.request_unswitched same accepted
  have firstTaken := course_taken environment first tree one
  have secondTaken := course_taken environment second tree other
  have firstRun : run environment first tree earlier = _ := run_eq_outcome accepted earlier
  have secondRun : run environment second tree later = _ := run_eq_outcome otherAccepted later
  rw [← course_congr steady alike complete interruption] at secondTaken secondRun
  rw [firstRun] at told ⊢
  rw [secondRun] at alsoTold ⊢
  refine ⟨⟨other, otherAccepted, alike⟩, Course.ending_congr told alsoTold, ?_, ?_⟩
  · rw [Course.strip_stdout (firstTaken.tidy draws), Course.strip_stdout (secondTaken.tidy draws)]
  · rw [Course.outcome_tree, Course.outcome_tree]

/-- A coloured run on a terminal against a plain one with traces, asked for before and behind the option
that both have. -/
theorem run_presentation_colored_plain :
    let colored : Call := ⟨["--output", "o.txt", "isqrt", "4"], true, true, true, none⟩
    let plain : Call := ⟨["--no-color", "--output", "o.txt", "--debug", "isqrt", "4"], false, false, true, none⟩
    let first := run surroundings colored nested .fresh
    let second := run surroundings plain nested .fresh
    first.ending = second.ending ∧ strip first.transcript.stdout = strip second.transcript.stdout ∧
      first.tree = second.tree := by
  have coloredAccepted : CommandLine.request ["--output", "o.txt", "isqrt", "4"] =
      .ok ⟨none, some (.value "o.txt"), false, false, .floorRoot "4"⟩ := by decide +kernel
  have plainAccepted : CommandLine.request ["--no-color", "--output", "o.txt", "--debug", "isqrt", "4"] =
      .ok ⟨none, some (.value "o.txt"), true, true, .floorRoot "4"⟩ := by decide +kernel
  have same : unswitched ["--output", "o.txt", "isqrt", "4"] =
      unswitched ["--no-color", "--output", "o.txt", "--debug", "isqrt", "4"] := by decide +kernel
  intro colored plain first second
  have firstEnds : first.ending = .exit 0 := by
    change (run surroundings colored nested .fresh).ending = .exit 0
    rw [run_eq_outcome coloredAccepted .fresh]
    rfl
  have secondEnds : second.ending = .exit 0 := by
    change (run surroundings plain nested .fresh).ending = .exit 0
    rw [run_eq_outcome plainAccepted .fresh]
    rfl
  refine (@run_presentation surroundings nested colored plain _ drawsPlainly_surroundings (fun _ => rfl) coloredAccepted same
    rfl rfl .fresh .fresh ?_ ?_).2
  · intro fault raised
    cases firstEnds.symm.trans raised
  · intro fault raised
    cases secondEnds.symm.trans raised

end Session
end Surd
