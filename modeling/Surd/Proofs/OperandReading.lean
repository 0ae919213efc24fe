import Surd.Proofs.CommandRuns
import Surd.Proofs.FaultDisclosure

/-! What becomes of an operand's text. A text that is no number, or a number out of range, is refused as
the user's. Only where its digits are more than are read at all is the fault another one, which a run
tells as unexpected. -/

namespace Surd

private theorem Fault.isUserError_of_userInput {fault : Fault} (kind : fault.kind = .userInput) : fault.isUserError = true := by
  unfold isUserError
  split
  · rfl
  · rw [kind]
    rfl

namespace Numeral

def Signed.Overlong (number : Signed) : Prop := digitLimit < number.digits.length

theorem Signed.value_of_overlong {number : Signed} (long : number.Overlong) :
    number.value = .error (.tooManyDigits number.digits.length) := if_pos long

theorem Signed.value_of_short {number : Signed} (short : ¬number.Overlong) : ∃ n, number.value = .ok n :=
  ⟨_, if_neg short⟩

/-- A text for an integer, with more digits than are read. -/
def LongInteger (text : String) : Prop := ∃ number, integer? (clean text.toList) = some number ∧ number.Overlong

def LongRational (text : String) : Prop :=
  ∃ first second, rational? (clean text.toList) = some (first, second) ∧
    (first.Overlong ∨ ∃ other, second = some other ∧ other.Overlong)

/-- A reading that answers only as is said, and refuses all else as the user's. -/
abbrev Reads {α : Type} (answers : α → Prop) (result : Except Fault α) : Prop :=
  Ends (fun fault => fault.kind = .userInput) answers result

def Stops {α : Type} (result : Except Fault α) : Prop :=
  ∃ count, digitLimit < count ∧ result = .error (.tooManyDigits count)

variable {text : String}

theorem readWord_reads (label : String) (short : ¬LongInteger text) :
    Reads (fun n => n ≤ wordMax) (readWord label text) := by
  unfold readWord
  split
  · exact rfl
  next number read =>
    obtain ⟨v, value⟩ := Signed.value_of_short fun long => short ⟨number, read, long⟩
    simp only [value, bind, Except.bind]
    split
    · change v.toNat ≤ wordMax
      omega
    · exact rfl

theorem readWord_stops (label : String) (long : LongInteger text) : Stops (readWord label text) := by
  obtain ⟨number, read, overlong⟩ := long
  refine ⟨number.digits.length, overlong, ?_⟩
  rw [readWord, read]
  simp only [Signed.value_of_overlong overlong, bind, Except.bind]

theorem readWord_overlong (label : String) {n : Int} (long : (printed n).Overlong) :
    readWord label (toString n) = .error (.tooManyDigits (Nat.toDigits 10 n.natAbs).length) := by
  have read : integer? (clean (toString n).toList) = some (printed n) := integer?_printed n
  rw [readWord, read]
  simp only [Signed.value_of_overlong long, bind, Except.bind]
  rfl

private theorem checkPart_reads (n : Int) : Reads (fun _ => FitsPart n) (checkPart n) := by
  unfold checkPart
  split
  next fits => exact fits
  next => exact rfl

theorem readRational_reads (short : ¬LongRational text) :
    Reads (fun parts => FitsPart parts.1 ∧ FitsPart parts.2 ∧ parts.2 ≠ 0) (readRational text) := by
  unfold readRational
  split
  · exact rfl
  next first second read =>
    obtain ⟨numer, above⟩ := Signed.value_of_short fun long => short ⟨first, second, read, .inl long⟩
    have below : ∃ denom, (second.map Signed.value).getD (.ok 1) = .ok denom := by
      cases second with
      | none => exact ⟨1, rfl⟩
      | some other => exact Signed.value_of_short fun long => short ⟨first, some other, read, .inr ⟨other, rfl, long⟩⟩
    obtain ⟨denom, below⟩ := below
    simp only [above, below]
    change Reads _ (if denom = 0 then _ else _)
    split
    · exact rfl
    next nonzero =>
      exact (checkPart_reads numer).bind fun _ top => (checkPart_reads denom).bind fun _ bottom => ⟨top, bottom, nonzero⟩

theorem readRational_stops (long : LongRational text) : Stops (readRational text) := by
  obtain ⟨first, second, read, overlong⟩ := long
  rw [readRational, read]
  by_cases above : first.Overlong
  · refine ⟨first.digits.length, above, ?_⟩
    simp only [Signed.value_of_overlong above, bind, Except.bind]
  · obtain ⟨numer, value⟩ := Signed.value_of_short above
    obtain ⟨other, rfl, below⟩ := overlong.resolve_left above
    refine ⟨other.digits.length, below, ?_⟩
    simp only [value, Option.map_some, Option.getD_some, Signed.value_of_overlong below, bind, Except.bind]

end Numeral

namespace CommandLine.Command
open Numeral (Reads Stops LongInteger LongRational)

variable {command : Command} {fault : Fault}

/-- The reading of a command's operand, with which its execution begins. -/
def readOperand : Command → Except Fault Unit
  | .primes n _ => (Numeral.readWord "upper bound" n).map fun _ => ()
  | .isPrime n | .factor n | .floorRoot n => (Numeral.readWord "number" n).map fun _ => ()
  | .squareRoot r _ => (Numeral.readRational r).map fun _ => ()

def LongOperand : Command → Prop
  | .primes n _ | .isPrime n | .factor n | .floorRoot n => LongInteger n
  | .squareRoot r _ => LongRational r

theorem readOperand_reads (short : ¬command.LongOperand) : Reads (fun _ => True) command.readOperand := by
  cases command with
  | squareRoot r pretty => exact (Numeral.readRational_reads short).map fun _ _ => trivial
  | _ => exact (Numeral.readWord_reads _ short).map fun _ _ => trivial

theorem readOperand_stops (long : command.LongOperand) : Stops command.readOperand := by
  have kept : ∀ {α : Type} {result : Except Fault α}, Stops result → Stops (result.map fun _ => ()) := by
    rintro α result ⟨count, many, rfl⟩
    exact ⟨count, many, rfl⟩
  cases command with
  | squareRoot r pretty => exact kept (Numeral.readRational_stops long)
  | _ => exact kept (Numeral.readWord_stops _ long)

theorem execute_of_unread (unread : command.readOperand = .error fault) (draw : SquareRoot → String) (context : Context) :
    command.execute draw context = .error fault := by
  have failed : ∀ {α : Type} {result : Except Fault α}, (result.map fun _ => ()) = .error fault → result = .error fault := by
    intro α result same
    cases result with
    | error other => exact congrArg Except.error (Except.error.inj same)
    | ok a => cases same
  cases command with
  | primes n perRow => simp only [execute, listPrimes, failed unread, bind, Except.bind]
  | isPrime n => simp only [execute, testPrime, failed unread, bind, Except.bind]
  | factor n => simp only [execute, showFactors, failed unread, bind, Except.bind]
  | floorRoot n => simp only [execute, showFloorRoot, failed unread, bind, Except.bind]
  | squareRoot r pretty => simp only [execute, showSquareRoot, failed unread, bind, Except.bind]

end CommandLine.Command

namespace Session
open CommandLine (Request)
open Numeral (Reads Stops LongInteger LongRational)

variable {environment : Environment} {call : Call} {tree : FileTree} {request : Request} {settings : Settings}
  {fault : Fault}

theorem answer_of_unread (unread : request.command.readOperand = .error fault) :
    answer environment call settings request = .error fault :=
  CommandLine.Command.execute_of_unread unread _ _

/-- A fault that is not the user's ends a run that reached its command as unexpected, or is raised again. -/
theorem Reaches.unexpected (reaches : Reaches environment call tree request settings)
    (failed : answer environment call settings request = .error fault) (system : fault.System) (context : Context) :
    let outcome := run environment call tree context
    ((contextOf context settings request).debug = true → outcome.ending = .raised fault) ∧
      ((contextOf context settings request).debug = false →
        outcome.ending = .exit 1 ∧ outcome.transcript.stderr = unexpectedLines fault) := by
  intro outcome
  have told : outcome = _ := reaches.run_of_fault failed context
  rw [told]
  refine ⟨?_, ?_⟩
  · intro traces
    rw [fail_of_traced system (by rwa [Action.carryOutAll_context])]
  · intro untraced
    have silent : ∀ stage : Stage, stage.context = contextOf context settings request →
        (Action.carryOutAll call stage (opening settings.source)).transcript.stderr = stage.transcript.stderr :=
      fun stage same => Action.carryOutAll_stderr_of_untraced (by rw [same, untraced])
    rw [fail_of_untraced system (by rwa [Action.carryOutAll_context])]
    exact ⟨rfl, (congrArg (· ++ unexpectedLines fault) (silent _ rfl)).trans String.empty_append⟩

/-- Every text is read, or refused as the user's, unless it has more digits than are read; then reading
stops with another fault. So an operand that cannot be read ends a run as a refusal, but for that one
case, in which the run tells an unexpected error. -/
theorem run_operand (reaches : Reaches environment call tree request settings) (context : Context) :
    let outcome := run environment call tree context
    (∀ label text, ¬LongInteger text → Reads (fun n => n ≤ wordMax) (Numeral.readWord label text)) ∧
      (∀ label text, LongInteger text → Stops (Numeral.readWord label text)) ∧
      (∀ text, ¬LongRational text →
        Reads (fun parts => FitsPart parts.1 ∧ FitsPart parts.2 ∧ parts.2 ≠ 0) (Numeral.readRational text)) ∧
      (∀ text, LongRational text → Stops (Numeral.readRational text)) ∧
      (¬request.command.LongOperand → ∀ fault, request.command.readOperand = .error fault →
        outcome.ending = .exit 2 ∧ outcome.transcript.stdout = "") ∧
      (request.command.LongOperand → ∃ count, digitLimit < count ∧
        request.command.readOperand = .error (.tooManyDigits count) ∧
        ((contextOf context settings request).debug = true → outcome.ending = .raised (.tooManyDigits count)) ∧
        ((contextOf context settings request).debug = false →
          outcome.ending = .exit 1 ∧ outcome.transcript.stderr = unexpectedLines (.tooManyDigits count))) := by
  intro outcome
  refine ⟨fun label _ => Numeral.readWord_reads label, fun label _ => Numeral.readWord_stops label,
    fun _ => Numeral.readRational_reads, fun _ => Numeral.readRational_stops, ?_, ?_⟩
  · intro short fault unread
    have user := Fault.isUserError_of_userInput ((CommandLine.Command.readOperand_reads short).fault unread)
    exact reaches.refused (answer_of_unread unread) user context
  · intro long
    obtain ⟨count, many, unread⟩ := CommandLine.Command.readOperand_stops long
    exact ⟨count, many, unread, reaches.unexpected (answer_of_unread unread) rfl context⟩

theorem run_operand_letter :
    let call : Call := ⟨["isqrt", "x"], false, false, true, none⟩
    (run surroundings call nested .fresh).ending = .exit 2 := by
  intro call
  have loaded : loadSettings surroundings nested none = .ok .standard := rfl
  have reaches : Reaches surroundings call nested ⟨none, none, false, false, .floorRoot "x"⟩ .standard :=
    ⟨CommandLine.request_operand .isqrt (by decide), rfl, loaded, rfl⟩
  have letters : Numeral.integer? (Numeral.clean "x".toList) = none := by decide +kernel
  have short : ¬LongInteger "x" := by
    rintro ⟨number, read, -⟩
    rw [letters] at read
    cases read
  have unread : (CommandLine.Command.floorRoot "x").readOperand = .error (.unreadableInteger "number" "x") := by
    rw [CommandLine.Command.readOperand, Numeral.readWord, letters]
    rfl
  obtain ⟨-, -, -, -, refused, -⟩ := run_operand reaches .fresh
  exact (refused short _ unread).1

private theorem run_overlong {n : Int} (nonneg : 0 ≤ n) (long : (Numeral.printed n).Overlong) :
    let call : Call := ⟨["isprime", toString n], false, false, true, none⟩
    let fault := Fault.tooManyDigits (Nat.toDigits 10 n.natAbs).length
    (run surroundings call nested .fresh).ending = .exit 1 ∧
      (run surroundings call nested .fresh).transcript.stderr = unexpectedLines fault := by
  intro call fault
  have reaches : Reaches surroundings call nested ⟨none, none, false, false, .isPrime (toString n)⟩ .standard :=
    ⟨CommandLine.request_operand .isprime (CommandLine.isOperand_int nonneg), rfl, rfl, rfl⟩
  have unread : (CommandLine.Command.isPrime (toString n)).readOperand = .error fault := by
    rw [CommandLine.Command.readOperand, Numeral.readWord_overlong "number" long]
    rfl
  exact (reaches.unexpected (answer_of_unread unread) rfl .fresh).2 rfl

/-- A one before as many zeros as digits are read: the text of an integer that is neither read nor
refused as the user's, so that the run for it ends as unexpected. -/
theorem overlong_operand_unexpected :
    let text := toString ((Nat.pow 10 digitLimit : Nat) : Int)
    let call : Call := ⟨["isprime", text], false, false, true, none⟩
    Numeral.readWord "number" text = .error (.tooManyDigits 4301) ∧
      (Fault.tooManyDigits 4301).kind ≠ .userInput ∧
      (run surroundings call nested .fresh).ending = .exit 1 ∧
      (run surroundings call nested .fresh).transcript.stderr = unexpectedLines (.tooManyDigits 4301) := by
  have digits : (Nat.toDigits 10 ((Nat.pow 10 digitLimit : Nat) : Int).natAbs).length = 4301 := by
    rw [Int.natAbs_natCast, Text.length_toDigits_pow (by decide)]
    rfl
  have long : (Numeral.printed (Nat.pow 10 digitLimit : Nat)).Overlong := by
    rw [Numeral.Signed.Overlong, Numeral.printed, digits]
    decide
  have read := Numeral.readWord_overlong "number" long
  have ended := run_overlong (Int.natCast_nonneg _) long
  rw [digits] at read ended
  exact ⟨read, by decide, ended⟩

end Session
end Surd
