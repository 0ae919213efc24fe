import Surd.Proofs.CanonicalRoot
import Surd.Proofs.CommandRuns
import Surd.Proofs.FractionParts

/-! The square root of a typed quotient. However its two parts are written, reduced or not and with the
sign on either, they are read as they are and make one fraction, and only that fraction decides how the
run ends and what it prints. -/

namespace Surd

/-- A root of a fraction in its one form: a fraction that is not negative, before the root of a
square-free number. -/
structure SquareRoot.IsRootOf (root : SquareRoot) (r : Rat) : Prop where
  nonneg : 0 ≤ root.part
  positive : 0 < root.root
  squarefree : Squarefree root.root
  value : root.value = r

section
variable {r : Rat} (nonneg : 0 ≤ r)
include nonneg

theorem exactRoot_isRootOf : (exactRoot r).IsRootOf r := by
  obtain ⟨root, same, free⟩ := exists_exactRoot_root nonneg
  refine ⟨exactRoot_part_nonneg nonneg, ?_, ?_, exactRoot_square nonneg⟩
  · rw [same]
    exact Int.natCast_pos.mpr (Nat.pos_of_ne_zero free.ne_zero)
  · rwa [same, Int.squarefree_natCast]

namespace SquareRoot.IsRootOf
variable {root : SquareRoot} (isRoot : root.IsRootOf r)
include isRoot

theorem eq_exactRoot (positive : 0 < r) : root = exactRoot r := by
  obtain ⟨part, number⟩ := root
  obtain ⟨large, positiveRoot, free, square⟩ := isRoot
  lift number to Nat using positiveRoot.le
  have parts := exactRoot_unique nonneg positive large (Int.squarefree_natCast.mp free) (by exact_mod_cast square)
  rw [SquareRoot.mk.injEq]
  exact parts

/-- Zero has a root over every square-free number, and they are all written as zero. -/
theorem text_eq : root.text = (exactRoot r).text := by
  rcases nonneg.eq_or_lt with rfl | positive
  · have part : root.part = 0 := by
      have product := isRoot.value
      have nonzero : (root.root : Rat) ≠ 0 := Int.cast_ne_zero.mpr isRoot.positive.ne'
      rcases mul_eq_zero.mp product with square | impossible
      · exact mul_self_eq_zero.mp square
      · exact absurd impossible nonzero
    rw [SquareRoot.text, if_pos part, exactRoot_zero]
    rfl
  · rw [isRoot.eq_exactRoot nonneg positive]

end SquareRoot.IsRootOf
end

def rootName (r : Rat) : String := s!"sqrt({rationalText r})"

theorem lacks_rootName (r : Rat) : Text.Lacks Ansi.escape (rootName r) := by
  simp (disch := decide) only [rootName, Text.lacks_append, Text.lacks_toString, Ansi.control_escape.lacks_rational,
    Ansi.control_escape.lacks, and_self]

namespace Rational32

theorem ofParts_eq {numer denom : Int} (fitsNumer : FitsPart numer) (fitsDenom : FitsPart denom) (nonzero : denom ≠ 0) :
    ofParts numer denom =
      if narrow : Narrow ((numer : Rat) / denom) then .ok ⟨(numer : Rat) / denom, narrow⟩
      else .error (.outsideReduced numer denom ((numer : Rat) / denom)) := by
  simp only [ofParts_of_fits ⟨fitsNumer, fitsDenom⟩, if_neg nonzero, Rat.divInt_eq_div]

private theorem sqrt_of_neg {r : Rational32} (negative : r.val < 0) : r.sqrt = .error (.negativeRoot r.val) := by
  rw [sqrt, if_pos (Rat.num_neg.mpr negative)]

end Rational32

private theorem CommandLine.isOperand_quotient {numer : Int} (nonneg : 0 ≤ numer) (denom : Int) :
    IsOperand (Numeral.quotientText numer denom) := by
  rw [Numeral.quotientText, String.append_assoc]
  exact isOperand_int_append nonneg ("/" ++ toString denom)

namespace CommandLine.Command
open Numeral (quotientText)

variable {draw : SquareRoot → String} {context : Context} {numer denom : Int} (fitsNumer : FitsPart numer) (fitsDenom : FitsPart denom)
  (nonzero : denom ≠ 0)
include fitsNumer fitsDenom nonzero

theorem showSquareRoot_quotient (pretty : Bool) :
    showSquareRoot draw context (quotientText numer denom) pretty =
      Rational32.ofParts numer denom >>= fun fraction => fraction.sqrt >>= fun root =>
        match root with
        | none =>
          .ok ⟨1, Ansi.yellow ++ rootName fraction.val ++ " overflows the 32-bit representation" ++ Ansi.reset, []⟩
        | some root =>
          let text :=
            if pretty || (context.get "OUTPUT.PRETTY" (.bool false)).truth then draw root
            else s!"{rootName fraction.val} = {root.text}"
          .ok ⟨0, text, [s!"square part {rationalText root.part}, root {root.root}"]⟩ := by
  rw [showSquareRoot, Numeral.readRational_quotient fitsNumer fitsDenom nonzero]
  rfl

theorem showSquareRoot_refused (pretty : Bool) (outside : ¬Narrow ((numer : Rat) / denom) ∨ (numer : Rat) / denom < 0) :
    ∃ fault, showSquareRoot draw context (quotientText numer denom) pretty = .error fault ∧ fault.isUserError = true := by
  rw [showSquareRoot_quotient fitsNumer fitsDenom nonzero, Rational32.ofParts_eq fitsNumer fitsDenom nonzero]
  by_cases narrow : Narrow ((numer : Rat) / denom)
  · have negative := outside.resolve_left (not_not_intro narrow)
    rw [dif_pos narrow]
    simp only [bind, Except.bind, Rational32.sqrt_of_neg (r := ⟨_, narrow⟩) negative]
    exact ⟨_, rfl, rfl⟩
  · rw [dif_neg narrow]
    exact ⟨_, rfl, rfl⟩

private theorem showSquareRoot_narrow (narrow : Narrow ((numer : Rat) / denom)) (nonneg : 0 ≤ (numer : Rat) / denom)
    (oneLine : (context.get "OUTPUT.PRETTY" (.bool false)).truth = false) :
    let r := (numer : Rat) / denom
    showSquareRoot draw context (quotientText numer denom) false = .ok (
      if wordMax < r.num * oddPart r.den then
        ⟨1, Ansi.yellow ++ rootName r ++ " overflows the 32-bit representation" ++ Ansi.reset, []⟩
      else
        ⟨0, s!"{rootName r} = {(exactRoot r).text}",
          [s!"square part {rationalText (exactRoot r).part}, root {(exactRoot r).root}"]⟩) := by
  intro r
  rw [showSquareRoot_quotient fitsNumer fitsDenom nonzero, Rational32.ofParts_eq fitsNumer fitsDenom nonzero,
    dif_pos narrow]
  simp only [bind, Except.bind, Rational32.sqrt_eq narrow nonneg]
  by_cases large : wordMax < r.num * oddPart r.den
  · rw [if_pos large, if_pos large]
  · rw [if_neg large, if_neg large]
    simp only [oneLine, Bool.or_false, Bool.false_eq_true, if_false]
    rfl

end CommandLine.Command

namespace Session
open CommandLine (Request)
open Numeral (quotientText)
open Settings (setting)
open Ansi

/-- A run for the square root of two parts with a bar between them, that is printed on one line and goes
to no file. -/
structure RootRun (environment : Environment) (call : Call) (tree : FileTree) (request : Request) (settings : Settings)
    (numer denom : Int) : Prop extends Reaches environment call tree request settings where
  fitsNumer : FitsPart numer
  fitsDenom : FitsPart denom
  nonzero : denom ≠ 0
  asked : request.command = .squareRoot (quotientText numer denom) false
  unsaved : outputText request = none
  oneLine : setting settings.data "OUTPUT" "PRETTY" = .bool false

/-- What is told of a fraction: the code, and the line that is printed. -/
def rootReport (r : Rat) : Nat × String :=
  if ¬Narrow r ∨ r < 0 then (2, "")
  else if wordMax < r.num * oddPart r.den then (1, rootName r ++ " overflows the 32-bit representation" ++ "\n")
  else (0, s!"{rootName r} = {(exactRoot r).text}" ++ "\n")

theorem strip_overflow (r : Rat) :
    strip (yellow ++ rootName r ++ " overflows the 32-bit representation" ++ reset) =
      rootName r ++ " overflows the 32-bit representation" := by
  have told : Text.Lacks escape " overflows the 32-bit representation" := control_escape.lacks rfl
  have opening : Tidy (yellow ++ rootName r) := (tidy_code 33).append (.of_lacks (lacks_rootName r))
  have uncoloured : strip (yellow ++ rootName r) = rootName r := by
    rw [yellow, strip_append (tidy_code 33), strip_code, strip_of_lacks (lacks_rootName r), String.empty_append]
  rw [strip_append (opening.append (.of_lacks told)), strip_append opening, uncoloured, strip_of_lacks told, reset,
    strip_code, String.append_empty]

private theorem tidy_overflow (r : Rat) : Tidy (yellow ++ rootName r ++ " overflows the 32-bit representation" ++ reset) := by
  rw [Tidy, strip_overflow]
  exact Text.lacks_append.mpr ⟨lacks_rootName r, control_escape.lacks rfl⟩

private theorem lacks_rootLine (r : Rat) (root : SquareRoot) : Text.Lacks escape s!"{rootName r} = {root.text}" := by
  have between : Text.Lacks escape " = " := control_escape.lacks rfl
  simp only [Text.lacks_append, Text.lacks_toString, lacks_rootName, root.lacks_text, between, and_self]

namespace RootRun
variable {environment : Environment} {call : Call} {tree : FileTree} {request : Request} {settings : Settings}
  {numer denom : Int} (rootRun : RootRun environment call tree request settings numer denom)
include rootRun

theorem answer_eq : ∃ context : Context, (context.get "OUTPUT.PRETTY" (.bool false)).truth = false ∧
    answer environment call settings request =
      CommandLine.Command.showSquareRoot (environment.draw call.stdoutTerminal) context (quotientText numer denom) false := by
  refine ⟨.apply settings.data (.text settings.name), ?_, ?_⟩
  · have read : (Context.apply settings.data (.text settings.name)).get "OUTPUT.PRETTY" (.bool false) = .bool false :=
      Context.lookUp_setting rootRun.oneLine (by simp) (by decide) (.bool false)
    rw [read]
    rfl
  · rw [answer, rootRun.asked]
    rfl

theorem refused (outside : ¬Narrow ((numer : Rat) / denom) ∨ (numer : Rat) / denom < 0) (context : Context) :
    (run environment call tree context).ending = .exit 2 ∧ (run environment call tree context).transcript.stdout = "" := by
  obtain ⟨_, -, same⟩ := rootRun.answer_eq
  obtain ⟨fault, failed, user⟩ := CommandLine.Command.showSquareRoot_refused rootRun.fitsNumer rootRun.fitsDenom
    rootRun.nonzero false outside
  exact rootRun.toReaches.refused (same.trans failed) user context

/-- The fraction alone decides how the run ends and what it prints. -/
private theorem reported (context : Context) :
    (run environment call tree context).ending = .exit (rootReport (numer / denom)).1 ∧
      strip (run environment call tree context).transcript.stdout = (rootReport (numer / denom)).2 := by
  unfold rootReport
  by_cases outside : ¬Narrow ((numer : Rat) / denom) ∨ (numer : Rat) / denom < 0
  · obtain ⟨ending, silent⟩ := rootRun.refused outside context
    rw [if_pos outside, silent]
    exact ⟨ending, strip_of_lacks Text.lacks_empty⟩
  · rw [if_neg outside]
    rw [not_or, not_not, not_lt] at outside
    obtain ⟨narrow, nonneg⟩ := outside
    obtain ⟨_, oneLine, same⟩ := rootRun.answer_eq
    have known := same.trans (CommandLine.Command.showSquareRoot_narrow rootRun.fitsNumer rootRun.fitsDenom
      rootRun.nonzero narrow nonneg oneLine)
    by_cases large : wordMax < ((numer : Rat) / denom).num * oddPart ((numer : Rat) / denom).den
    · rw [if_pos large] at known ⊢
      obtain ⟨ending, shown⟩ := rootRun.toReaches.answered rootRun.unsaved known (tidy_overflow _) context
      rw [ending, shown, strip_overflow]
      exact ⟨rfl, rfl⟩
    · rw [if_neg large] at known ⊢
      obtain ⟨ending, shown⟩ := rootRun.toReaches.answered rootRun.unsaved known (.of_lacks (lacks_rootLine _ _)) context
      rw [ending, shown, strip_of_lacks (lacks_rootLine _ _)]
      exact ⟨rfl, rfl⟩

end RootRun

/-- The command for the square root of a quotient, however the quotient is spelled. A quotient that is
not narrow or is negative is refused; one whose root takes too large a number is named in its lowest
terms; for any other the line holds its only root. Two spellings of one quotient are told alike. -/
theorem run_squareRoot_quotient {environment : Environment} {call : Call} {tree : FileTree} {request : Request}
    {settings : Settings} {a b : Int} (rootRun : RootRun environment call tree request settings a b) (context : Context) :
    let r := (a : Rat) / b
    let outcome := run environment call tree context
    ((¬Narrow r ∨ r < 0) → outcome.ending = .exit 2 ∧ outcome.transcript.stdout = "") ∧
      (Narrow r → 0 ≤ r → wordMax < r.num * oddPart r.den →
        outcome.ending = .exit 1 ∧
          strip outcome.transcript.stdout = rootName r ++ " overflows the 32-bit representation" ++ "\n") ∧
      (Narrow r → 0 ≤ r → r.num * oddPart r.den ≤ wordMax →
        outcome.ending = .exit 0 ∧
          ∃ root : SquareRoot, root.IsRootOf r ∧ (0 < r → ∀ other : SquareRoot, other.IsRootOf r → other = root) ∧
            ∀ other : SquareRoot, other.IsRootOf r →
              strip outcome.transcript.stdout = s!"{rootName r} = {other.text}" ++ "\n") ∧
      (∀ {surroundings : Environment} {again : Call} {files : FileTree} {asked : Request} {loaded : Settings} {c d : Int},
        RootRun surroundings again files asked loaded c d → (c : Rat) / d = r → ∀ earlier : Context,
          (run surroundings again files earlier).ending = outcome.ending ∧
            strip (run surroundings again files earlier).transcript.stdout = strip outcome.transcript.stdout) ∧
      (0 ≤ a → CommandLine.request ["sqrt", quotientText a b] =
        .ok ⟨none, none, false, false, .squareRoot (quotientText a b) false⟩) ∧
      CommandLine.request ["sqrt", "--", quotientText a b] =
        .ok ⟨none, none, false, false, .squareRoot (quotientText a b) false⟩ := by
  intro r outcome
  obtain ⟨ending, shown⟩ := rootRun.reported context
  refine ⟨fun outside => rootRun.refused outside context, ?_, ?_, ?_, ?_, ?_⟩
  · intro narrow nonneg large
    have told : rootReport r = (1, rootName r ++ " overflows the 32-bit representation" ++ "\n") := by
      rw [rootReport, if_neg (not_or.mpr ⟨not_not_intro narrow, nonneg.not_gt⟩), if_pos large]
    exact ⟨ending.trans (by rw [told]), shown.trans (by rw [told])⟩
  · intro narrow nonneg small
    have told : rootReport r = (0, s!"{rootName r} = {(exactRoot r).text}" ++ "\n") := by
      rw [rootReport, if_neg (not_or.mpr ⟨not_not_intro narrow, nonneg.not_gt⟩), if_neg (not_lt.mpr small)]
    refine ⟨ending.trans (by rw [told]), exactRoot r, exactRoot_isRootOf nonneg, ?_, ?_⟩
    · exact fun positive other isRoot => isRoot.eq_exactRoot nonneg positive
    · intro other isRoot
      rw [isRoot.text_eq nonneg]
      exact shown.trans (by rw [told])
  · intro _ _ _ _ _ _ _ other same earlier
    obtain ⟨otherEnding, otherShown⟩ := other.reported earlier
    rw [same] at otherEnding otherShown
    exact ⟨otherEnding.trans ending.symm, otherShown.trans shown.symm⟩
  · exact fun nonneg => CommandLine.request_operand .sqrt (CommandLine.isOperand_quotient nonneg b)
  · exact CommandLine.request_separated .sqrt _

/-- A quotient with a sign on both parts, and the same one in lowest terms on a coloured terminal. -/
theorem run_squareRoot_quotient_unreduced :
    let unreduced : Call := ⟨["sqrt", "--", "-10/-144"], false, false, true, none⟩
    let reduced : Call := ⟨["sqrt", "5/72"], true, true, true, none⟩
    (run surroundings unreduced nested .fresh).ending = .exit 0 ∧
      strip (run surroundings unreduced nested .fresh).transcript.stdout = "sqrt(5/72) = 1/12 * sqrt(10)\n" ∧
      (run surroundings reduced nested .fresh).ending = (run surroundings unreduced nested .fresh).ending ∧
      strip (run surroundings reduced nested .fresh).transcript.stdout =
        strip (run surroundings unreduced nested .fresh).transcript.stdout := by
  intro unreduced reduced
  have loaded : loadSettings surroundings nested none = .ok .standard := rfl
  have same : ((-10 : Int) : Rat) / (-144 : Int) = 5 / 72 := by norm_num
  have unreducedText : quotientText (-10) (-144) = "-10/-144" := by decide +kernel
  have reducedText : quotientText 5 72 = "5/72" := by decide +kernel
  have unreducedRun : RootRun surroundings unreduced nested
      ⟨none, none, false, false, .squareRoot "-10/-144" false⟩ .standard (-10) (-144) :=
    ⟨⟨CommandLine.request_separated .sqrt "-10/-144", rfl, loaded, rfl⟩, by decide, by decide, by decide,
      by rw [unreducedText], rfl, rfl⟩
  have reducedRun : RootRun surroundings reduced nested
      ⟨none, none, false, false, .squareRoot "5/72" false⟩ .standard 5 72 :=
    ⟨⟨CommandLine.request_operand .sqrt (by decide), rfl, loaded, rfl⟩, by decide, by decide, by decide,
      by rw [reducedText], rfl, rfl⟩
  have free : Squarefree (10 : Int) := by
    rw [← Int.squarefree_natAbs]
    decide +kernel
  have isRoot : (SquareRoot.mk (1 / 12) 10).IsRootOf (((-10 : Int) : Rat) / (-144 : Int)) :=
    ⟨by norm_num, by norm_num, free, by rw [same, SquareRoot.value]; norm_num⟩
  have small : (((-10 : Int) : Rat) / (-144 : Int)).num * oddPart (((-10 : Int) : Rat) / (-144 : Int)).den ≤ wordMax := by
    have below : oddPart 72 ≤ 72 := Nat.le_of_dvd (by decide) (oddPart_dvd (by decide))
    have parts : (5 / 72 : Rat).num = 5 ∧ (5 / 72 : Rat).den = 72 := by decide +kernel
    rw [same, parts.1, parts.2, wordMax]
    omega
  have narrow : Narrow (((-10 : Int) : Rat) / (-144 : Int)) := by
    rw [same]
    decide +kernel
  obtain ⟨-, -, rooted, again, -⟩ := run_squareRoot_quotient unreducedRun .fresh
  obtain ⟨ending, _, -, -, line⟩ := rooted narrow (by norm_num) small
  obtain ⟨sameEnding, sameLine⟩ := again reducedRun (by norm_num) .fresh
  refine ⟨ending, ?_, sameEnding, sameLine⟩
  rw [line _ isRoot, same]
  decide +kernel

end Session
end Surd
