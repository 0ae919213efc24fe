import Surd.Proofs.ExactOperands

/-! Runs of checked operations on integers and fractions. One operation lacks an answer where it divides by zero or
its exact value is not narrow, however wide its operands are, and its inverse takes an answer back. A run passes over
the steps that lack an answer: its accumulator is the exact value of the others. -/

namespace Surd
namespace Rational32

def Operator.exact : Operator → Rat → Rat → Rat
  | .add, a, b => a + b
  | .sub, a, b => a - b
  | .mul, a, b => a * b
  | .div, a, b => a / b

def Operator.inverse : Operator → Operator
  | .add => .sub
  | .sub => .add
  | .mul => .div
  | .div => .mul

/-- Where an operation has no answer. -/
def Operator.Unanswered (operator : Operator) (a b : Rat) : Prop := operator = .div ∧ b = 0 ∨ ¬Narrow (operator.exact a b)

private theorem narrow?_eq_none_iff {r : Rat} : narrow? r = none ↔ ¬Narrow r := by
  rw [narrow?]
  split
  next narrow => exact iff_of_false (Option.some_ne_none _) (not_not_intro narrow)
  next wide => exact iff_of_true rfl wide

private theorem narrow?_eq_some_iff {r : Rat} {c : Rational32} : narrow? r = some c ↔ c.val = r := by
  rw [narrow?]
  split
  · rw [Option.some.injEq, eq_comm, Rational32.mk.injEq]
  next wide =>
    refine iff_of_false (Option.some_ne_none c).symm ?_
    rintro rfl
    exact wide c.narrow

namespace Operator
variable {operator : Operator} {a b : Rat} {c : Rational32}

theorem apply_eq (divides : ¬(operator = .div ∧ b = 0)) : operator.apply a b = narrow? (operator.exact a b) := by
  cases operator with
  | add => rfl
  | sub => rfl
  | mul => rfl
  | div => exact if_neg fun zero => divides ⟨rfl, zero⟩

theorem apply_of_zero (zero : operator = .div ∧ b = 0) : operator.apply a b = none := by
  obtain ⟨rfl, rfl⟩ := zero
  rfl

theorem apply_eq_none_iff : operator.apply a b = none ↔ operator.Unanswered a b := by
  by_cases zero : operator = .div ∧ b = 0
  · exact iff_of_true (apply_of_zero zero) (.inl zero)
  · rw [apply_eq zero, narrow?_eq_none_iff, Unanswered, or_iff_right zero]

theorem apply_eq_some_iff : operator.apply a b = some c ↔ ¬(operator = .div ∧ b = 0) ∧ c.val = operator.exact a b := by
  by_cases zero : operator = .div ∧ b = 0
  · rw [apply_of_zero zero]
    exact iff_of_false nofun fun answers => answers.1 zero
  · rw [apply_eq zero, narrow?_eq_some_iff, and_iff_right zero]

private theorem exact_inverse (proper : operator = .mul ∨ operator = .div → b ≠ 0) :
    operator.inverse.exact (operator.exact a b) b = a := by
  cases operator with
  | add => exact add_sub_cancel_right a b
  | sub => exact sub_add_cancel a b
  | mul => exact mul_div_cancel_right₀ a (proper (.inl rfl))
  | div => exact div_mul_cancel₀ a (proper (.inr rfl))

private theorem eq_mul_of_inverse (divides : operator.inverse = .div) : operator = .mul := by
  cases operator with
  | mul => rfl
  | add | sub | div => cases divides

/-- The inverse has an answer, since it gives the left operand again. -/
theorem apply_inverse {a : Rational32} (proper : operator = .mul → b ≠ 0) (answers : operator.apply a.val b = some c) :
    operator.inverse.apply c.val b = some a := by
  obtain ⟨divides, exact⟩ := apply_eq_some_iff.mp answers
  have nonzero : operator = .mul ∨ operator = .div → b ≠ 0 := by
    rintro (times | divided)
    · exact proper times
    · exact fun zero => divides ⟨divided, zero⟩
  refine apply_eq_some_iff.mpr ⟨?_, ?_⟩
  · rintro ⟨divided, zero⟩
    exact proper (eq_mul_of_inverse divided) zero
  · rw [exact, exact_inverse nonzero]

end Operator
end Rational32

namespace Calculator
open Rational32

private theorem narrow_eq_fraction_iff {answer : Option Rational32} {r : Rat} :
    narrow answer = .fraction r ↔ ∃ c, answer = some c ∧ c.val = r := by
  cases answer with
  | none =>
    refine iff_of_false nofun ?_
    rintro ⟨_, ⟨⟩, _⟩
  | some c =>
    change Value.fraction c.val = .fraction r ↔ _
    rw [Value.fraction.injEq]
    constructor
    · exact fun same => ⟨c, rfl, same⟩
    · rintro ⟨_, ⟨⟩, same⟩
      exact same

theorem checked_inverse {operator : Operator} {v w : Value} {a b c : Rat} (left : v.Denotes a) (right : w.Denotes b)
    (narrow : Narrow a) (proper : operator = .mul → b ≠ 0) (answers : checked operator v w = .ok (.fraction c)) :
    checked operator.inverse (.fraction c) w = .ok (.fraction a) := by
  rw [checked_eq operator left right, Except.ok.injEq] at answers
  obtain ⟨answer, applied, rfl⟩ := narrow_eq_fraction_iff.mp answers
  rw [checked_eq operator.inverse (Value.denotes_fraction answer.val) right,
    Operator.apply_inverse (a := ⟨a, narrow⟩) proper applied]
  rfl

/-- The accumulator after an answer. -/
def kept (value : Value) : Value → Value
  | .null => value
  | answer => answer

private theorem chain_cons {value answer : Value} {step : Step} {rest : List Step} {answers : List Value}
    (first : checked step.operator value step.operand = .ok answer) (others : chain (kept value answer) rest = .ok answers) :
    chain value (step :: rest) = .ok (answer :: answers) := by
  rw [chain, first]
  change (do let later ← chain (kept value answer) rest; .ok (answer :: later)) = _
  rw [others]
  rfl

/-- The number that an operand denotes. -/
def Step.amount (step : Step) : Rat := step.operand.rational?.getD 0

private theorem Step.amount_eq {step : Step} {b : Rat} (operand : step.operand.Denotes b) : step.amount = b := by
  rw [amount, operand.rational]
  rfl

/-- The exact value of steps on a number. -/
def evaluate (start : Rat) (steps : List Step) : Rat :=
  steps.foldl (fun value step => step.operator.exact value step.amount) start

/-- The steps that have an answer. -/
def answered (steps : List Step) (answers : List (Option Rational32)) : List Step :=
  ((steps.zip answers).filter fun pair => pair.2.isSome).map Prod.fst

/-- A run on an accumulator, with the answers of its steps and the last accumulator. -/
inductive Run : Rat → List Step → List (Option Rational32) → Rat → Prop
  | done {a : Rat} : Run a [] [] a
  | fails {a b last : Rat} {step : Step} {rest : List Step} {answers : List (Option Rational32)} :
      step.operand.Denotes b → step.operator.Unanswered a b → Run a rest answers last →
      Run a (step :: rest) (none :: answers) last
  | succeeds {a b last : Rat} {step : Step} {rest : List Step} {answers : List (Option Rational32)} {c : Rational32} :
      step.operand.Denotes b → ¬step.operator.Unanswered a b → c.val = step.operator.exact a b → Run c.val rest answers last →
      Run a (step :: rest) (some c :: answers) last

/-- Every step can be taken, and so the run goes on to its end. -/
theorem exists_run (start : Rat) {steps : List Step} (operands : ∀ step ∈ steps, ∃ b, step.operand.Denotes b) :
    ∃ answers last, Run start steps answers last := by
  induction steps generalizing start with
  | nil => exact ⟨[], start, .done⟩
  | cons step rest ih =>
    obtain ⟨b, operand⟩ := operands step List.mem_cons_self
    have later : ∀ other ∈ rest, ∃ b, other.operand.Denotes b := fun other member =>
      operands other (List.mem_cons_of_mem step member)
    cases applied : step.operator.apply start b with
    | none =>
      obtain ⟨answers, last, run⟩ := ih start later
      exact ⟨none :: answers, last, .fails operand (Operator.apply_eq_none_iff.mp applied) run⟩
    | some c =>
      obtain ⟨answers, last, run⟩ := ih c.val later
      have works : ¬step.operator.Unanswered start b := by
        rw [← Operator.apply_eq_none_iff, applied]
        nofun
      exact ⟨some c :: answers, last, .succeeds operand works (Operator.apply_eq_some_iff.mp applied).2 run⟩

namespace Run
variable {start last : Rat} {steps : List Step} {answers : List (Option Rational32)} (run : Run start steps answers last)
include run

theorem chain_eq : chain (.fraction start) steps = .ok (answers.map narrow) := by
  induction run with
  | done => rfl
  | @fails a b last step rest answers operand lacks run ih =>
    have first : checked step.operator (.fraction a) step.operand = .ok .null := by
      rw [checked_eq step.operator (Value.denotes_fraction a) operand, Operator.apply_eq_none_iff.mpr lacks]
      rfl
    exact chain_cons first ih
  | @succeeds a b last step rest answers c operand works exact run ih =>
    have first : checked step.operator (.fraction a) step.operand = .ok (.fraction c.val) := by
      have divides : ¬(step.operator = .div ∧ b = 0) := fun zero => works (.inl zero)
      rw [checked_eq step.operator (Value.denotes_fraction a) operand, Operator.apply_eq_some_iff.mpr ⟨divides, exact⟩]
      rfl
    exact chain_cons first ih

private theorem last_eq : last = evaluate start (answered steps answers) := by
  induction run with
  | done => rfl
  | fails operand lacks run ih => exact ih
  | @succeeds a b last step rest answers c operand works exact run ih =>
    rw [exact, ← Step.amount_eq operand] at ih
    exact ih

private theorem kept_eq : (answers.map narrow).foldl kept (.fraction start) = .fraction last := by
  induction run with
  | done => rfl
  | fails operand lacks run ih => exact ih
  | succeeds operand works exact run ih => exact ih

private theorem narrow_last (narrow : Narrow start ∨ ∃ c, some c ∈ answers) : Narrow last := by
  induction run with
  | done =>
    rcases narrow with narrow | ⟨c, member⟩
    · exact narrow
    · cases member
  | fails operand lacks run ih =>
    refine ih ?_
    rcases narrow with narrow | ⟨c, member⟩
    · exact .inl narrow
    · exact .inr ⟨c, (List.mem_cons.mp member).resolve_left nofun⟩
  | @succeeds a b last step rest answers c operand works exact run ih => exact ih (.inl c.narrow)

end Run

/-- One operation has the exact value as its answer, unless it divides by zero or that value is not narrow. No step of a
run fails: the accumulator ends on the exact value of the steps with an answer, which is narrow from the first narrow
value on. An answer on a narrow left operand is taken back by the inverse operation. -/
theorem checked_runs :
    (∀ (operator : Operator) (v w : Value) (a b : Rat), v.Denotes a → w.Denotes b →
      ∃ answer, checked operator v w = .ok (narrow answer) ∧
        (answer = none ↔ operator = .div ∧ b = 0 ∨
          ¬(FitsPart (operator.exact a b).num ∧ FitsPart (operator.exact a b).den)) ∧
        ∀ c, answer = some c → c.val = operator.exact a b) ∧
      (∀ (start : Rat) (steps : List Step), (∀ step ∈ steps, ∃ b, step.operand.Denotes b) →
        ∃ answers, chain (.fraction start) steps = .ok (answers.map narrow) ∧
          Run start steps answers (evaluate start (answered steps answers)) ∧
          (answers.map narrow).foldl kept (.fraction start) = .fraction (evaluate start (answered steps answers)) ∧
          (Narrow start ∨ (∃ c, some c ∈ answers) → Narrow (evaluate start (answered steps answers)))) ∧
      ∀ (operator : Operator) (v w : Value) (a b c : Rat), v.Denotes a → w.Denotes b → Narrow a →
        (operator = .mul → b ≠ 0) → checked operator v w = .ok (.fraction c) →
        checked operator.inverse (.fraction c) w = .ok (.fraction a) := by
  refine ⟨?_, ?_, ?_⟩
  · intro operator v w a b left right
    exact ⟨operator.apply a b, checked_eq operator left right, Operator.apply_eq_none_iff,
      fun c answers => (Operator.apply_eq_some_iff.mp answers).2⟩
  · intro start steps operands
    obtain ⟨answers, last, run⟩ := exists_run start operands
    obtain rfl := run.last_eq
    exact ⟨answers, run.chain_eq, run, run.kept_eq, run.narrow_last⟩
  · intro operator v w a b c left right narrow proper answers
    exact checked_inverse left right narrow proper answers

/-- From a wide start, a wide sum and a division by zero leave the accumulator as it is, and the quotient by a negative
number is narrow. A product with a wide operand is taken back. -/
theorem checked_runs_wide_operands :
    (∃ answers, chain (.fraction 2147483648) [⟨.add, .int 1⟩, ⟨.div, .int 0⟩, ⟨.div, .int (-1)⟩] = .ok (answers.map narrow) ∧
        Run 2147483648 [⟨.add, .int 1⟩, ⟨.div, .int 0⟩, ⟨.div, .int (-1)⟩] answers (-2147483648)) ∧
      checked .div (.fraction 1073741824) (.int 4294967296) = .ok (.fraction (1 / 4)) := by
  obtain ⟨-, runs, inverses⟩ := checked_runs
  constructor
  · obtain ⟨answers, course, run, kept, -⟩ := runs 2147483648 [⟨.add, .int 1⟩, ⟨.div, .int 0⟩, ⟨.div, .int (-1)⟩] (by
      simp only [List.forall_mem_cons]
      exact ⟨⟨1, Value.denotes_int 1⟩, ⟨0, Value.denotes_int 0⟩, ⟨-1, Value.denotes_int (-1)⟩, nofun⟩)
    have texts : chain (.fraction 2147483648) [⟨.add, .int 1⟩, ⟨.div, .int 0⟩, ⟨.div, .int (-1)⟩] =
        .ok [.null, .null, .fraction (-2147483648)] := by with_unfolding_all rfl
    rw [← Except.ok.inj (texts.symm.trans course)] at kept
    rw [← Value.fraction.inj kept] at run
    exact ⟨answers, course, run⟩
  · exact inverses .mul _ _ (1 / 4) 4294967296 1073741824 (Value.denotes_fraction (1 / 4)) (Value.denotes_int 4294967296)
      (by decide +kernel) (by decide) (by with_unfolding_all rfl)

end Calculator
end Surd
