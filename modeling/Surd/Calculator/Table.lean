import Surd.Calculator.Operand
import Surd.NumberTable
import Surd.Slice

/-! Questions to tables whose entries are given as values. A table of integers is a prime table;
any other numbers make a table of their own. -/

namespace Surd

namespace Calculator

def natural (n : Nat) : Value := .int n

def integers (numbers : List Int) : Value := .list (numbers.map Value.int)

def position (index : Option Nat) : Value := (index.map natural).getD .null

def factorPairs (factors : List Factor) : Value :=
  .list (factors.map fun factor => .list [.int factor.base, natural factor.count])

def numberPairs (factors : List NumberFactor) : Value :=
  .list (factors.map fun factor => .list [factor.base, natural factor.count])

def withWord {α : Type} (v : Value) (operation : Int → Except Fault α) : Except Fault α := do
  let n ← v.word "value"
  operation n

/-- Looks a value up in a table of integers. A number that is no integer is not found, and what
is no number cannot be looked up. -/
def indexIn (table : PrimeTable) (v : Value) : Except Fault Value :=
  if v.isNumber then
    match v.number? with
    | some r => .ok (position (if r.den = 1 then table.index? r.num else none))
    | none => .ok .null
  else .error (.unsupportedKind s!"{v.kind} has no order among numbers")

end Calculator

inductive Table where
  | integers (table : PrimeTable)
  | numbers (table : NumberTable)

namespace Table

/-- Tells that no value is at most the one before. -/
def checkAscending : List Value → Except Fault Unit
  | before :: after :: rest => do
    if ← after.isAtMost? before then .error (.notAscending before after)
    else checkAscending (after :: rest)
  | _ => .ok ()

def checkBound (bound last : Value) : Except Fault Unit := do
  if ← bound.isBelow? last then .error (.boundBelowTable bound last) else .ok ()

def integers? (entries : List Value) : Option (List Int) :=
  entries.mapM fun
    | .int n => some n
    | _ => none

/-- A table of values in ascending order. The bound, or the last entry in its place, has
to be a word. -/
def ofValues? (entries : List Value) (bound : Option Value) : Except Fault Table := do
  checkAscending entries
  match entries.getLast? with
  | none => .error .emptyTable
  | some last => do
    if let some limit := bound then checkBound limit last
    let limit ← (bound.getD last).word "table bound"
    match integers? entries with
    | some row => (PrimeTable.ofList? row (some limit)).map .integers
    | none => .ok (.numbers ⟨entries.toArray, limit⟩)

def upTo? (bound : Value) : Except Fault Table := do
  let n ← bound.word "upper bound"
  (PrimeTable.upTo? n).map .integers

def entries : Table → List Value
  | .integers table => table.entries.toList.map .int
  | .numbers table => table.entries.toList

def bound : Table → Nat
  | .integers table => table.bound
  | .numbers table => table.bound

def text (table : Table) : String :=
  s!"PrimeTable(bound={table.bound}, primes={table.entries.length})"

inductive Query where
  | length
  | bound
  | largest
  | entries
  | reversed
  | text
  | get
  | slice
  | contains
  | storedIndex
  | isPrime
  | factors
  | isSquareFree
  deriving DecidableEq, Repr

def get (table : Table) (place : Int) : Except Fault Value :=
  match atPosition? table.entries place with
  | some entry => .ok entry
  | none => .error (if place.natAbs ≤ Value.countMax then .indexOutside else .indexTooLarge)

private def sliceBound : Value → Except Fault (Option Int)
  | .null => .ok none
  | other => other.toInteger.map some

private def sliceBetween (start stop step : Value) : Except Fault Slice := do
  let step ← sliceBound step
  if step = some 0 then .error .zeroSliceStep
  else do
    let start ← sliceBound start
    let stop ← sliceBound stop
    .ok ⟨start, stop, step⟩

private def sliceOf : List Value → Except Fault Slice
  | [stop] => sliceBetween .null stop .null
  | [start, stop] => sliceBetween start stop .null
  | [start, stop, step] => sliceBetween start stop step
  | _ => .error (.unsupportedKind "a slice has one to three bounds")

def index (table : Table) (v : Value) : Except Fault Value :=
  match table with
  | .integers table => Calculator.indexIn table v
  | .numbers table =>
    if v.isNumber then .ok (Calculator.position (table.index? v))
    else .error (.unsupportedKind s!"{v.kind} has no order among numbers")

def isPrime : Table → Int → Except Fault Bool
  | .integers table => table.isPrime
  | .numbers table => table.isPrime

def factors (table : Table) (n : Int) : Except Fault Value :=
  match table with
  | .integers table => (table.factors n).map Calculator.factorPairs
  | .numbers table => (table.factors n).map Calculator.numberPairs

def isSquareFree : Table → Int → Except Fault Bool
  | .integers table => table.isSquareFree
  | .numbers table => table.isSquareFree

open Calculator in
def answer (table : Table) : Query → List Value → Except Fault Value
  | .length, [] => .ok (natural table.entries.length)
  | .bound, [] => .ok (natural table.bound)
  | .largest, [] => .ok (table.entries.getLast?.getD .null)
  | .entries, [] => .ok (.list table.entries)
  | .reversed, [] => .ok (.list table.entries.reverse)
  | .text, [] => .ok (.text table.text)
  | .get, [v] => do table.get (← v.toInteger)
  | .slice, bounds => do
    let slice ← sliceOf bounds
    (slice.select table.entries).map .list
  | .contains, [v] => .ok (.bool (table.entries.any v.equals))
  | .storedIndex, [v] => table.index v
  | .isPrime, [v] => (withWord v table.isPrime).map .bool
  | .factors, [v] => withWord v table.factors
  | .isSquareFree, [v] => (withWord v table.isSquareFree).map .bool
  | _, _ => .error (.unsupportedKind "the operands do not fit the query")

end Table
end Surd
