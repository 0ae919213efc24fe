import Surd.Calculator.Layout
import Surd.Calculator.Table
import Surd.Text.Ansi

/-! The library's operations on values whose kind is not known beforehand. Each looks at
the kinds of its operands, in order, before it computes. -/

namespace Surd

/-- What an operation gives: a value, or a square root with its part and its root as they were
given or found, its line, and the number that it is the root of. -/
inductive Answer where
  | value (v : Value)
  | squareRoot (part root : Value) (line : String) (square : Value)

def Answer.ofSquareRoot (result : SquareRoot) : Answer :=
  .squareRoot (.fraction result.part) (.int result.root) result.text (.fraction result.value)

namespace Calculator

def narrow (r : Option Rational32) : Value := (r.map fun r => .fraction r.val).getD .null

def split (operation : Int → Except Fault SquareSplit) (v : Value) : Except Fault Value :=
  if v.equalsInteger 0 || v.equalsInteger 1 then .ok (.list [v, .int 1])
  else (withWord v operation).map fun result => .list [.int result.square, .int result.root]

def fitsPart (v : Value) : Except Fault Value := do
  if ← (Value.int partMin).isAtMost? v then (v.isAtMost? (.int partMax)).map .bool
  else .ok (.bool false)

/-- A checked operation on two operands. A divisor that is the number zero is noticed before the
dividend is looked at; a text that denotes zero is noticed only in the division. -/
def checked (operator : Rational32.Operator) (a b : Value) : Except Fault Value :=
  if operator = .div && b.equalsInteger 0 then .ok .null
  else do
    let left ← a.toRat
    let right ← b.toRat
    if operator = .div && right = 0 then .error (.overZero left.num.sign)
    else .ok (narrow (operator.apply left right))

structure Step where
  operator : Rational32.Operator
  operand : Value

/-- The answers of the steps, one after the other. The accumulator takes each answer, and keeps
its value where a step has none. -/
def chain : Value → List Step → Except Fault (List Value)
  | _, [] => .ok []
  | value, step :: rest => do
    let answer ← checked step.operator value step.operand
    let next := match answer with
      | .null => value
      | other => other
    let others ← chain next rest
    .ok (answer :: others)

def fraction (numer denom : Value) : Except Fault Value := do
  let top ← numer.toPart
  let bottom ← denom.toPart
  let r ← Rational32.ofParts top bottom
  .ok (.fraction r.val)

def squareRoot (v : Value) : Except Fault (Option SquareRoot) := do
  let r ← v.toRational32
  r.sqrt

def givenRoot (part root : Value) : Except Fault Answer := do
  let line ← rootLine part root
  let square ← part.times part
  let square ← square.times root
  .ok (.squareRoot part root line square)

end Calculator

inductive Operation where
  | floorRoot
  | primesUpTo
  | storedIndex
  | isPrime
  | factors
  | isSquareFree
  | splitTimes
  | splitOver
  | squareRoot
  | fraction
  | isNarrow
  | asNarrow
  | checked (operator : Rational32.Operator)
  | checkWord
  | fitsPart
  | readWord
  | readRational
  | stripCodes
  | rationalText
  | factorizationText
  | tableText
  | factorValue
  | givenRoot
  deriving DecidableEq, Repr

open Calculator in
def Operation.apply : Operation → List Value → Except Fault Answer
  | .floorRoot, [v] => ((v.word "sqrt_floor argument").map fun n => natural (Surd.floorRoot n)).map .value
  | .primesUpTo, [v] =>
    ((v.word "upper bound").map fun n => integers ((Surd.primesUpTo n).map Int.ofNat)).map .value
  | .storedIndex, [v] => (indexIn .full v).map .value
  | .isPrime, [v] => ((withWord v PrimeTable.full.isPrime).map Value.bool).map .value
  | .factors, [v] => ((withWord v PrimeTable.full.factors).map factorPairs).map .value
  | .isSquareFree, [v] => ((withWord v PrimeTable.full.isSquareFree).map Value.bool).map .value
  | .splitTimes, [v] => (split SquareSplit.timesRoot v).map .value
  | .splitOver, [v] => (split SquareSplit.overRoot v).map .value
  | .squareRoot, [v] => (Calculator.squareRoot v).map fun
    | some result => .ofSquareRoot result
    | none => .value .null
  | .fraction, [numer] => (Calculator.fraction numer (.int 1)).map .value
  | .fraction, [numer, denom] => (Calculator.fraction numer denom).map .value
  | .isNarrow, [v] => (v.toRat.map fun r => .bool (decide (Narrow r))).map .value
  | .asNarrow, [v] => (v.toRational32.map fun r => .fraction r.val).map .value
  | .checked operator, [a, b] => (Calculator.checked operator a b).map .value
  | .checkWord, [v] => ((v.word "value").map natural).map .value
  | .checkWord, [v, label] => ((v.word label.shown).map natural).map .value
  | .fitsPart, [v] => (Calculator.fitsPart v).map .value
  | .readWord, [v] => do
    let text ← v.toText
    ((Numeral.readWord "number" text).map natural).map .value
  | .readWord, [v, label] => do
    let text ← v.toText
    ((Numeral.readWord label.shown text).map natural).map .value
  | .readRational, [v] => do
    let text ← v.toText
    ((Numeral.readRational text).map fun parts => integers [parts.1, parts.2]).map .value
  | .stripCodes, [.text s] => .ok (.value (.text (Ansi.strip s)))
  | .rationalText, [v] => (Calculator.fractionText v).map fun text => .value (.text text)
  | .factorizationText, [v] => (Calculator.factorizationText v).map fun text => .value (.text text)
  | .tableText, [items] => (Calculator.tableText items (.int 10)).map fun text => .value (.text text)
  | .tableText, [items, perRow] =>
    (Calculator.tableText items perRow).map fun text => .value (.text text)
  | .factorValue, [base, count] => (base.power count).map .value
  | .givenRoot, [part, root] => Calculator.givenRoot part root
  | _, _ => .error (.unsupportedKind "the operands do not fit the operation")

end Surd
