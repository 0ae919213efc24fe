import Surd.Proofs.OperandReading
import Surd.Proofs.SieveCompleteness
import Surd.Proofs.TableLayout

/-! The command that lists primes. It answers for a bound that can be read and is allowed, if the row
length in effect is positive, as that of the settings always is. What it prints reads back as the primes up
to the bound in their order, in rows of that length. -/

namespace Surd

namespace CommandLine
open Text

/-- No option is named as a negative number is written. -/
private theorem flagNamed?_digit (grammar : Grammar) {text : String} {digit : Char} (second : text.toList[1]? = some digit)
    (ascii : digit.isDigit = true) : grammar.flagNamed? text = none := by
  have others : ∀ flag : Flag, ∀ name ∈ flag.names, name.toList[1]?.any Char.isDigit = false := by
    intro flag
    cases flag with
    | _ => decide
  rw [Grammar.flagNamed?, List.lookup_eq_none_iff]
  intro entry member
  obtain ⟨flag, -, inside⟩ := List.mem_flatMap.mp member
  obtain ⟨name, among, rfl⟩ := List.mem_map.mp inside
  rw [bne_iff_ne]
  rintro rfl
  have none := others flag text among
  rw [second] at none
  rw [Option.any_some, ascii] at none
  cases none

private theorem classify_int (grammar : Grammar) (n : Int) : grammar.classify (toString n) = .ok (.operand (toString n)) := by
  by_cases negative : n < 0
  · have ascii : ∀ c ∈ Nat.toDigits 10 n.natAbs, c.isDigit = true := fun _ => ascii_of_mem_toDigits
    have letters := toList_int n
    rw [if_pos negative] at letters
    obtain ⟨digit, rest, digits, first⟩ := exists_cons_toDigits n.natAbs
    rw [digits] at letters ascii
    have unnamed : grammar.flagNamed? (toString n) = none :=
      flagNamed?_digit grammar (by rw [letters]; rfl) first
    have shortened : grammar.flagNamed? (String.ofList ((toString n).toList.take 2)) = none :=
      flagNamed?_digit grammar (by rw [letters, String.toList_ofList]; rfl) first
    have whole : Grammar.splitValue (toString n).toList = ((toString n).toList, none) := by
      have kept : (toString n).toList.dropWhile (· != '=') = [] :=
        List.dropWhile_eq_nil_iff.mpr fun c member => by
          refine bne_iff_ne.mpr ?_
          rintro rfl
          exact not_mem_int (by decide) n member
      rw [Grammar.splitValue, kept]
    have number : isNegative (toString n).toList = true := by
      have taken := span_iff.mpr ⟨(List.append_nil (digit :: rest)).symm, fun c member => isDigit_of_ascii (ascii c member),
        fun c none => by cases none⟩
      rw [letters, List.singleton_append, isNegative]
      simp only [taken.1, taken.2]
      rfl
    have minus : digit ≠ '-' := by
      rintro rfl
      cases first
    have short : grammar.short (toString n) = .operand (toString n) := by
      rw [Grammar.short, whole]
      dsimp only
      rw [shortened]
      dsimp only
      rw [Grammar.unknown, number]
      rfl
    rw [Grammar.classify, letters]
    dsimp only [List.singleton_append]
    rw [unnamed, if_neg (by decide)]
    dsimp only
    rw [if_neg minus, short]
  · exact grammar.classify_operand (isOperand_int (Int.not_lt.mp negative))

private theorem words_rowLength (grammar : Grammar) {perRow : Int} {texts : List String} {words : List Word} {option : Word}
    (named : grammar.classify "--per-row" = .ok option) (known : grammar.words texts = .ok words) :
    grammar.words ("--per-row" :: toString perRow :: texts) = .ok (option :: .operand (toString perRow) :: words) := by
  have proper : toString perRow ≠ "--" := by
    intro same
    have minus := classify_int mainGrammar perRow
    rw [same] at minus
    cases minus
  rw [Grammar.words, if_neg (by decide), named, Grammar.words, if_neg proper, classify_int, known]
  rfl

/-- A row length that can be written is taken from the words in front of the bound. -/
theorem request_rowLength {perRow : Int} (short : hasWritableLength perRow = true) {texts : List String} {text : String}
    {outer inner : List Word} (outerKnown : mainGrammar.words texts = .ok outer) (same : outer.map Word.text = texts)
    (innerKnown : CommandName.primes.grammar.words texts = .ok inner)
    (read : readCommand CommandName.primes.grammar { perRow := some (.value perRow) } inner =
      .ok { perRow := some (.value perRow), operand := some text }) :
    request ("primes" :: "--per-row" :: toString perRow :: texts) =
      .ok ⟨none, none, false, false, .primes text (some (.value perRow))⟩ := by
  have unnamed : mainGrammar.classify "--per-row" = .ok (.option "--per-row" none) := by decide +kernel
  have named : CommandName.primes.grammar.classify "--per-row" =
      .ok (.option "--per-row" (some ⟨.perRow, false, none⟩)) := by decide +kernel
  have words : mainGrammar.words ("primes" :: "--per-row" :: toString perRow :: texts) =
      .ok (.operand "primes" :: .option "--per-row" none :: .operand (toString perRow) :: outer) := by
    rw [mainGrammar.words_operand (by decide), words_rowLength mainGrammar unnamed outerKnown]
    rfl
  have noted : readOption CommandName.primes.grammar {} ⟨.perRow, false, none⟩ (.operand (toString perRow) :: inner) =
      .ok ({ perRow := some (.value perRow) }, inner) := by
    simp only [readOption, Flag.takesValue, Options.set, Numeral.readCount?_toString short]
    rfl
  have asks : command .primes ("--per-row" :: toString perRow :: texts) =
      .ok (.primes text (some (.value perRow)), []) := by
    rw [command, words_rowLength _ named innerKnown]
    simp only [Except.mapError, bind, Except.bind, readCommand_of_read noted, read]
  rw [request, words]
  change readMain {} _ = _
  have again : (Word.option "--per-row" none :: .operand (toString perRow) :: outer).map Word.text =
      "--per-row" :: toString perRow :: texts := by rw [List.map_cons, List.map_cons, same]; rfl
  have chosen : CommandName.ofText? "primes" = some .primes := by decide
  rw [readMain, dispatch, chosen]
  simp only [again, asks, bind, Except.bind]
  rfl

theorem request_rowLength_operand {perRow : Int} (short : hasWritableLength perRow = true) {text : String}
    (operand : IsOperand text) :
    request ["primes", "--per-row", toString perRow, text] =
      .ok ⟨none, none, false, false, .primes text (some (.value perRow))⟩ := by
  have single : ∀ grammar : Grammar, grammar.words [text] = .ok [.operand text] := fun grammar =>
    grammar.words_operand operand []
  refine request_rowLength short (single _) rfl (single _) ?_
  simp only [readCommand, Options.take, dropSeparator]
  rfl

theorem request_rowLength_separated {perRow : Int} (short : hasWritableLength perRow = true) (text : String) :
    request ["primes", "--per-row", toString perRow, "--", text] =
      .ok ⟨none, none, false, false, .primes text (some (.value perRow))⟩ := by
  refine request_rowLength short (Grammar.words_separator _ _) rfl (Grammar.words_separator _ _) ?_
  simp only [List.map_cons, List.map_nil, readCommand, Options.take]
  rfl

end CommandLine

namespace CommandLine.Command

variable {context : Context} {limit length : Int}

theorem integerSetting_eq {key : String} {n : Int} (held : ∀ standard, context.get key standard = .int n) (standard : Int) :
    integerSetting context key standard = n := by
  rw [integerSetting, held]

theorem rowLength_eq (rows : ∀ standard, context.get "OUTPUT.PRIMES_PER_ROW" standard = .int length) (perRow : Option Int) :
    rowLength context (perRow.map .value) = .ok (perRow.getD length) := by
  cases perRow with
  | none => exact congrArg Except.ok (integerSetting_eq rows 10)
  | some n => rfl

section
variable (limited : ∀ standard, context.get "BEHAVIOUR.MAX_PRIMES_BOUND" standard = .int limit)
  (rows : ∀ standard, context.get "OUTPUT.PRIMES_PER_ROW" standard = .int length) {text : String} {perRow : Option Int}
include limited rows

private theorem listPrimes_answers {n : Nat} (read : Numeral.readWord "upper bound" text = .ok n) (allowed : n ≤ limit)
    (positive : 1 ≤ perRow.getD length) :
    ∃ traces, listPrimes context text (perRow.map .value) = .ok ⟨0,
      if (primesUpTo n).isEmpty then s!"no primes <= {n}"
      else Listing.table ((primesUpTo n).map Int.ofNat) (perRow.getD length).toNat, traces⟩ := by
  unfold listPrimes
  simp only [read, bind, Except.bind, integerSetting_eq limited, rowLength_eq rows, if_neg (Int.not_lt.mpr allowed),
    if_neg (Int.not_lt.mpr positive), List.isEmpty_map]
  exact ⟨_, rfl⟩

private theorem of_listPrimes {result : Result} (answered : listPrimes context text (perRow.map .value) = .ok result) :
    ∃ n, Numeral.readWord "upper bound" text = .ok n ∧ (n : Int) ≤ limit ∧ 1 ≤ perRow.getD length := by
  unfold listPrimes at answered
  cases read : Numeral.readWord "upper bound" text with
  | error fault =>
    rw [read] at answered
    cases answered
  | ok n =>
    simp only [read, bind, Except.bind, integerSetting_eq limited, rowLength_eq rows] at answered
    split at answered
    · cases answered
    next allowed =>
      split at answered
      · cases answered
      next positive => exact ⟨n, rfl, Int.not_lt.mp allowed, Int.not_lt.mp positive⟩

end
end CommandLine.Command

namespace Session
open CommandLine (Command Request)
open Settings (setting)
open Text (words cutAt)
open Ansi

variable {environment : Environment} {call : Call} {tree : FileTree} {request : Request} {settings : Settings}

private theorem Reaches.answered_of_exit_zero (reaches : Reaches environment call tree request settings) (context : Context)
    (ended : (run environment call tree context).ending = .exit 0) : ∃ result, answer environment call settings request = .ok result := by
  cases answered : answer environment call settings request with
  | ok result => exact ⟨result, rfl⟩
  | error fault =>
    rw [reaches.run_of_fault answered] at ended
    rcases fail_exit ended with ⟨two, -⟩ | one
    · cases two
    · cases one

/-- The text of a table of primes with its line end, as it is read back: the primes, in rows. -/
structure Lists (printed : String) (primes : List Nat) (perRow : Int) : Prop where
  words : words printed.toList = primes.map fun p => (toString p).toList
  readable : ∀ p ∈ primes, Numeral.readWord "number" (toString p) = .ok p
  lines : ∃ body, printed = body ++ "\n" ∧
    (∀ line ∈ (cutAt '\n' body.toList).dropLast, ((Text.words line).length : Int) = perRow) ∧
    ∀ line ∈ cutAt '\n' body.toList, 1 ≤ ((Text.words line).length : Int) ∧ ((Text.words line).length : Int) ≤ perRow

theorem lists_table {bound : Nat} (large : 2 ≤ bound) (word : bound ≤ wordMax) {perRow : Int} (positive : 1 ≤ perRow) :
    Lists (Listing.table ((primesUpTo bound).map Int.ofNat) perRow.toNat ++ "\n") (primesUpTo bound) perRow := by
  have given : primesUpTo bound ≠ [] := List.ne_nil_of_mem (two_mem_primesUpTo large)
  have row : 0 < perRow.toNat := by omega
  obtain ⟨whole, full, last⟩ := Listing.table_layout given row
  refine ⟨?_, ?_, _, rfl, ?_, ?_⟩
  · have lineEnd : ("\n" : String).toList = '\n' :: [] := rfl
    rw [String.toList_append, lineEnd, Text.words_append_blank (by decide), Text.words_nil, List.append_nil, whole]
  · intro p member
    exact Numeral.readWord_toString "number" (Nat.le_trans (le_of_mem_primesUpTo member).2 word)
  · intro line member
    rw [full line member]
    omega
  · intro line member
    have bounds := last line member
    omega

/-- The command that lists primes, with or without a row length of its own. It ends with zero just for a
bound that is read and allowed and a row length in effect that is positive, which that of the settings is.
What it then prints lists the primes up to the bound. The bound may be any text behind a separator, and the
row length any integer that is not too long. -/
theorem run_primes (reaches : Reaches environment call tree request settings) {text : String} {perRow : Option Int}
    (asked : request.command = .primes text (perRow.map .value)) (unsaved : outputText request = none) (context : Context) :
    ∃ limit length : Int, setting settings.data "BEHAVIOUR" "MAX_PRIMES_BOUND" = .int limit ∧
      setting settings.data "OUTPUT" "PRIMES_PER_ROW" = .int length ∧ 1 ≤ length ∧
      ((run environment call tree context).ending = .exit 0 ↔
        ∃ n, Numeral.readWord "upper bound" text = .ok n ∧ (n : Int) ≤ limit ∧ 1 ≤ perRow.getD length) ∧
      (perRow = none → ((run environment call tree context).ending = .exit 0 ↔
        ∃ n, Numeral.readWord "upper bound" text = .ok n ∧ (n : Int) ≤ limit)) ∧
      (∀ n, Numeral.readWord "upper bound" text = .ok n → (n : Int) ≤ limit → 1 ≤ perRow.getD length → 2 ≤ n →
        ∃ primes : List Nat, (∀ p, p ∈ primes ↔ p.Prime ∧ p ≤ n) ∧ primes.Pairwise (· < ·) ∧
          Lists (strip (run environment call tree context).transcript.stdout) primes (perRow.getD length)) ∧
      (perRow = none →
        (CommandLine.IsOperand text →
          CommandLine.request ["primes", text] = .ok ⟨none, none, false, false, .primes text none⟩) ∧
        CommandLine.request ["primes", "--", text] = .ok ⟨none, none, false, false, .primes text none⟩) ∧
      ∀ given, perRow = some given → hasWritableLength given = true →
        (CommandLine.IsOperand text → CommandLine.request ["primes", "--per-row", toString given, text] =
          .ok ⟨none, none, false, false, .primes text (some (.value given))⟩) ∧
        CommandLine.request ["primes", "--per-row", toString given, "--", text] =
          .ok ⟨none, none, false, false, .primes text (some (.value given))⟩ := by
  obtain ⟨length, positive, rows⟩ := reaches.checked.rowLength
  obtain ⟨limit, -, bounds⟩ := reaches.checked.bound
  have answers : answer environment call settings request = CommandLine.Command.listPrimes (.apply settings.data (.text settings.name)) text
      (perRow.map .value) := by
    rw [answer, asked]
    rfl
  have limited : ∀ standard, (Context.apply settings.data (.text settings.name)).get "BEHAVIOUR.MAX_PRIMES_BOUND" standard =
      .int limit := fun standard => Context.lookUp_setting bounds (by simp) (by decide) standard
  have rowed : ∀ standard, (Context.apply settings.data (.text settings.name)).get "OUTPUT.PRIMES_PER_ROW" standard =
      .int length := fun standard => Context.lookUp_setting rows (by simp) (by decide) standard
  have success : ∀ n, Numeral.readWord "upper bound" text = .ok n → (n : Int) ≤ limit → 1 ≤ perRow.getD length →
      (run environment call tree context).ending = .exit 0 ∧
        strip (run environment call tree context).transcript.stdout =
          strip (if (primesUpTo n).isEmpty then s!"no primes <= {n}"
            else Listing.table ((primesUpTo n).map Int.ofNat) (perRow.getD length).toNat) ++ "\n" := by
    intro n read allowed given
    obtain ⟨traces, answered⟩ := CommandLine.Command.listPrimes_answers limited rowed read allowed given
    have proper : CommandLine.Command.Proper (fun _ => "") _ :=
      (CommandLine.Command.listPrimes_ends control_escape _ text (perRow.map .value)).answer answered
    exact reaches.answered unsaved (answers.trans answered) (proper.tidy fun _ => Text.lacks_empty) context
  have ending : (run environment call tree context).ending = .exit 0 ↔
      ∃ n, Numeral.readWord "upper bound" text = .ok n ∧ (n : Int) ≤ limit ∧ 1 ≤ perRow.getD length := by
    constructor
    · intro ended
      obtain ⟨result, answered⟩ := reaches.answered_of_exit_zero context ended
      exact CommandLine.Command.of_listPrimes limited rowed (answers.symm.trans answered)
    · rintro ⟨n, read, allowed, given⟩
      exact (success n read allowed given).1
  refine ⟨limit, length, bounds, rows, positive, ending, ?_, ?_, ?_, ?_⟩
  · rintro rfl
    rw [ending]
    exact exists_congr fun n => and_congr_right fun _ => and_iff_left positive
  · intro n read allowed given large
    have word := Numeral.le_wordMax_of_readWord read
    have some : (primesUpTo n).isEmpty = false :=
      List.isEmpty_eq_false_iff.mpr (List.ne_nil_of_mem (two_mem_primesUpTo large))
    have shown := (success n read allowed given).2
    rw [some, if_neg Bool.false_ne_true, strip_of_lacks (Listing.lacks_table _ _)] at shown
    refine ⟨primesUpTo n, fun p => mem_primesUpTo word, pairwise_primesUpTo n, ?_⟩
    rw [shown]
    exact lists_table large word given
  · exact fun _ => ⟨CommandLine.request_operand .primes, CommandLine.request_separated .primes text⟩
  · exact fun given _ short => ⟨CommandLine.request_rowLength_operand short, CommandLine.request_rowLength_separated short text⟩

/-- Rows of four, against a setting of ten. -/
theorem run_primes_rows_of_four :
    let call : Call := ⟨["primes", "--per-row", "4", "30"], true, false, true, none⟩
    (run surroundings call nested .fresh).ending = .exit 0 ∧
      ∃ primes : List Nat, (∀ p, p ∈ primes ↔ p.Prime ∧ p ≤ 30) ∧ primes.Pairwise (· < ·) ∧
        Lists (strip (run surroundings call nested .fresh).transcript.stdout) primes 4 := by
  intro call
  have asked : CommandLine.request call.argv = .ok ⟨none, none, false, false, .primes "30" (some (.value 4))⟩ := by
    decide +kernel
  have loaded : loadSettings surroundings nested none = .ok .standard := rfl
  have reaches : Reaches surroundings call nested ⟨none, none, false, false, .primes "30" (some (.value 4))⟩ .standard :=
    ⟨asked, rfl, loaded, rfl⟩
  have read : Numeral.readWord "upper bound" "30" = .ok 30 := Numeral.readWord_toString (n := 30) "upper bound" (by decide)
  have four : Command.primes "30" (some (.value 4)) = .primes "30" ((some 4).map .value) := rfl
  obtain ⟨limit, _, bounds, -, -, ending, -, listed, -, -⟩ := run_primes reaches four rfl .fresh
  have allowed : ((30 : Nat) : Int) ≤ limit := by
    have limits : Value.int 10000000 = .int limit := bounds
    rw [← Value.int.inj limits]
    decide
  exact ⟨ending.mpr ⟨30, read, allowed, by simp⟩, listed 30 read allowed (by simp) (by decide)⟩

end Session
end Surd
