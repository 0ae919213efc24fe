import Surd.FloorRoot

/-! The primes up to a bound, by sieving. A row of cells tells which numbers still
stand; each standing filter up to the floor root of the bound strikes its proper multiples. -/

namespace Surd.Sieve

def strike (cells : Array Bool) (step position : Nat) : Array Bool :=
  if inside : 0 < step ∧ position < cells.size then
    strike (cells.set position false inside.2) step (position + step)
  else cells
termination_by cells.size - position
decreasing_by simp only [Array.size_set]; omega

theorem size_strike (cells : Array Bool) (step position : Nat) :
    (strike cells step position).size = cells.size := by
  fun_induction strike cells step position with
  | case1 cells position inside ih => simpa using ih
  | case2 => rfl

theorem getElem?_strike_of_lt {cells : Array Bool} {step position i : Nat} (before : i < position) :
    (strike cells step position)[i]? = cells[i]? := by
  fun_induction strike cells step position with
  | case1 cells position inside ih =>
    rw [ih (by omega), Array.getElem?_set_ne inside.2 (by omega)]
  | case2 => rfl

/-- Lets every standing cell up to the limit strike its proper multiples. -/
def sift (limit : Nat) (cells : Array Bool) (filter : Nat) : Array Bool :=
  if inside : filter < cells.size then
    if cells[filter] then
      if limit < filter then cells
      else sift limit (strike cells filter (2 * filter)) (filter + 1)
    else sift limit cells (filter + 1)
  else cells
termination_by cells.size - filter
decreasing_by
  · simp only [size_strike]
    omega
  · omega

def cells (bound : Nat) : Array Bool :=
  sift (floorRoot bound) (Array.replicate (bound + 1) true) 2

theorem getElem?_sift_of_lt {limit filter i : Nat} {cells : Array Bool}
    (before : i < 2 * filter) : (sift limit cells filter)[i]? = cells[i]? := by
  fun_induction sift limit cells filter with
  | case1 => rfl
  | case2 cells filter inside standing above ih =>
    rw [ih (by omega), getElem?_strike_of_lt before]
  | case3 cells filter inside struck ih => exact ih (by omega)
  | case4 => rfl

end Surd.Sieve

namespace Surd

def primesUpTo (bound : Nat) : List Nat :=
  let cells := Sieve.cells bound
  (List.range' 2 (bound - 1)).filter fun i => cells.getD i false

theorem pairwise_primesUpTo (bound : Nat) : (primesUpTo bound).Pairwise (· < ·) :=
  List.Pairwise.filter _ List.pairwise_lt_range'

theorem le_of_mem_primesUpTo {bound p : Nat} (member : p ∈ primesUpTo bound) : 2 ≤ p ∧ p ≤ bound := by
  have inside := (List.mem_filter.mp member).1
  simp only [List.mem_range'_1] at inside
  omega

theorem two_mem_primesUpTo {bound : Nat} (large : 2 ≤ bound) : 2 ∈ primesUpTo bound := by
  refine List.mem_filter.mpr ⟨?_, ?_⟩
  · simp only [List.mem_range'_1]
    omega
  · have standing : (Sieve.cells bound)[2]? = some true := by
      unfold Sieve.cells
      rw [Sieve.getElem?_sift_of_lt (by omega), Array.getElem?_replicate]
      simp only [ite_eq_left_iff]
      omega
    simp [Array.getD_eq_getD_getElem?, standing]

def primesUpTo? (n : Int) : Except Fault (List Nat) :=
  (checkWord "upper bound" n).map primesUpTo

end Surd
