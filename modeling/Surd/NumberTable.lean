import Surd.PrimeTable.Factors
import Surd.Value.Arithmetic
import Surd.Value.Order

/-! Tables of numbers of all kinds. They answer as tables of integers do; an entry that is a double
turns what it divides into a double, and not-a-number neither stops a search nor divides. -/

namespace Surd

structure NumberTable where
  entries : Array Value
  bound : Nat

structure NumberFactor where
  base : Value
  count : Nat

namespace NumberTable

def entry (table : NumberTable) (position : Nat) : Value := table.entries.getD position .null

def search (table : NumberTable) (n : Value) (low high : Nat) : Nat :=
  if _wide : low + 1 < high then
    let middle := (low + high) / 2
    if n.isBelow (table.entry middle) then search table n low middle else search table n middle high
  else low
termination_by high - low

def index? (table : NumberTable) (n : Value) : Option Nat :=
  let last := table.entries.size - 1
  let largest := table.entry last
  if largest.isAtMost n then if n.sameNumber largest then some last else none
  else if n.isAtMost (.int 1) then none
  else
    let found := table.search n 0 last
    if n.sameNumber (table.entry found) then some found else none

def divisor? (p : Value) : Except Fault (Option Rat) :=
  match p.extended?, p with
  | some (.finite r), .float _ => if r = 0 then .error .zeroFloatModulus else .ok (some r)
  | some (.finite r), _ => if r = 0 then .error .zeroModulus else .ok (some r)
  | _, _ => .ok none

def wholeQuotient? (n : Int) (r : Rat) : Option Int :=
  let quotient := (n : Rat) / r
  if quotient.den = 1 then some quotient.num else none

/-- How often a number divides an integer, up to so often, and what then remains. No number
other than a power of a half divides a word more often than a word has bits. -/
def divideOut (r : Rat) : Nat → Int → Nat × Int
  | 0, n => (0, n)
  | fuel + 1, n =>
    match wholeQuotient? n r with
    | some quotient =>
      let rest := divideOut r fuel quotient
      (rest.1 + 1, rest.2)
    | none => (0, n)

def undivided (limit n : Nat) : List Value → Except Fault Bool
  | [] => .ok true
  | p :: rest =>
    if (Value.int limit).isBelow p then .ok true
    else do
      match ← divisor? p with
      | some r => if (wholeQuotient? n r).isSome then .ok false else undivided limit n rest
      | none => undivided limit n rest

/-- Looks a word up as far as the table is complete, and divides by its entries beyond. -/
def isPrime (table : NumberTable) (n : Int) : Except Fault Bool := do
  let v ← checkWord "value" n
  if v ≤ table.bound then .ok (table.index? (.int n)).isSome
  else undivided (floorRoot v) v table.entries.toList

def nextLimit (p : Value) (remaining : Int) : Except Fault Nat :=
  match p with
  | .float _ => .error (.notInteger "sqrt_floor argument" p.kind)
  | _ => floorRoot? remaining

def trialDivide : List Value → Int → Nat → Except Fault (List NumberFactor)
  | [], remaining, _ => .ok [⟨.int remaining, 1⟩]
  | p :: rest, remaining, limit =>
    if (Value.int limit).isBelow p then .ok [⟨.int remaining, 1⟩]
    else do
      let divided := ((← divisor? p).map fun r => divideOut r 64 remaining).getD (0, remaining)
      if divided.1 = 0 then trialDivide rest remaining limit
      else if divided.2 = 1 then .ok [⟨p, divided.1⟩]
      else
        let next ← nextLimit p divided.2
        let others ← trialDivide rest divided.2 next
        .ok (⟨p, divided.1⟩ :: others)

def factors (table : NumberTable) (n : Int) : Except Fault (List NumberFactor) := do
  let v ← checkWord "value" n
  if v ≤ 1 then .error (.factorsUndefined n)
  else trialDivide table.entries.toList n (floorRoot v)

def isSquareFree (table : NumberTable) (n : Int) : Except Fault Bool := do
  let v ← checkWord "value" n
  if v = 0 then .ok false
  else if v = 1 then .ok true
  else (table.factors n).map fun factors => factors.all fun factor => factor.count == 1

end NumberTable
end Surd
