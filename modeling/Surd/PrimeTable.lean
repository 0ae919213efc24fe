import Surd.Sieve

/-! Tables of numbers in ascending order, meant for primes. A table knows up to where it
is complete, and answers for words by search below that bound and by trial division above it.
Nothing forces the entries to be primes: the answers follow the entries, whatever they are. -/

namespace Surd

/-- An ascending table, not empty, with a word as its bound. -/
structure PrimeTable where
  entries : Array Int
  bound : Nat
  nonempty : 0 < entries.size
  ascending : entries.toList.Pairwise (· < ·)
  largest_le_bound : entries[entries.size - 1] ≤ bound
  bound_le_wordMax : bound ≤ wordMax

namespace PrimeTable

def largest (table : PrimeTable) : Int :=
  have := table.nonempty
  table.entries[table.entries.size - 1]

def firstDescent : List Int → Option (Int × Int)
  | before :: after :: rest =>
    if after ≤ before then some (before, after) else firstDescent (after :: rest)
  | _ => none

theorem pairwise_of_firstDescent_eq_none {entries : List Int} (none : firstDescent entries = none) :
    entries.Pairwise (· < ·) := by
  fun_induction firstDescent entries with
  | case1 => simp at none
  | case2 before after rest ascends ih =>
    have tail := ih none
    refine List.pairwise_cons.mpr ⟨fun n member => ?_, tail⟩
    rcases List.mem_cons.mp member with rfl | later
    · omega
    · have := List.rel_of_pairwise_cons tail later
      omega
  | case3 entries short =>
    match entries, short with
    | [], _ => exact List.Pairwise.nil
    | [_], _ => simp
    | a :: b :: rest, short => exact absurd rfl (short a b rest)

/-- The table of those entries, with the last one as its bound where none is given. -/
def ofList? (entries : List Int) (bound : Option Int) : Except Fault PrimeTable :=
  let row := entries.toArray
  if nonempty : 0 < row.size then
    match ordered : firstDescent entries with
    | some (before, after) => .error (.notAscending (.int before) (.int after))
    | none =>
      let last := row[row.size - 1]
      let limit := bound.getD last
      if above : limit < last then .error (.boundBelowTable (.int limit) (.int last))
      else if word : 0 ≤ limit ∧ limit ≤ wordMax then
        .ok {
          entries := row
          bound := limit.toNat
          nonempty
          ascending := pairwise_of_firstDescent_eq_none ordered
          largest_le_bound := by omega
          bound_le_wordMax := by omega }
      else .error (.showing [limit] (.outsideWord "table bound" limit))
  else .error .emptyTable

def upTo (bound : Nat) (large : 2 ≤ bound) (word : bound ≤ wordMax) : PrimeTable where
  entries := ((primesUpTo bound).map Int.ofNat).toArray
  bound
  nonempty := by
    have member := two_mem_primesUpTo large
    simp only [List.size_toArray, List.length_map]
    exact List.length_pos_of_mem member
  ascending := by
    simp only [List.pairwise_map, Int.ofNat_eq_natCast, Int.ofNat_lt]
    exact pairwise_primesUpTo bound
  largest_le_bound := by
    simp only [List.getElem_toArray, List.getElem_map, Int.ofNat_eq_natCast, Int.ofNat_le]
    exact (le_of_mem_primesUpTo (List.getElem_mem _)).2
  bound_le_wordMax := word

def upTo? (n : Int) : Except Fault PrimeTable := do
  let bound ← checkWord "upper bound" n
  if fits : 2 ≤ bound ∧ bound ≤ wordMax then .ok (upTo bound fits.1 fits.2) else .error .emptyTable

/-- The primes up to the root bound: enough to decide and to factor every word. -/
def full : PrimeTable := upTo rootBound (by decide) (by decide)

def search (entries : Array Int) (n : Int) (low high : Nat) (inside : high < entries.size) : Nat :=
  if _wide : low + 1 < high then
    let middle := (low + high) / 2
    if n < entries[middle] then search entries n low middle (by omega)
    else search entries n middle high inside
  else low
termination_by high - low

/-- Where an integer above one stands in the table. An integer below two is found
only as the last entry. -/
def index? (table : PrimeTable) (n : Int) : Option Nat :=
  have := table.nonempty
  let last := table.entries.size - 1
  if table.largest ≤ n then if n = table.largest then some last else none
  else if n ≤ 1 then none
  else
    let found := search table.entries n 0 last (by omega)
    if table.entries[found]? = some n then some found else none

def undivided (limit : Nat) (n : Nat) : List Int → Except Fault Bool
  | [] => .ok true
  | p :: rest =>
    if (limit : Int) < p then .ok true
    else if p = 0 then .error .zeroModulus
    else if p ∣ (n : Int) then .ok false
    else undivided limit n rest

def isPrime (table : PrimeTable) (n : Int) : Except Fault Bool := do
  let v ← checkWord "value" n
  if v ≤ table.bound then .ok (table.index? n).isSome
  else undivided (floorRoot v) v table.entries.toList

end PrimeTable
end Surd
