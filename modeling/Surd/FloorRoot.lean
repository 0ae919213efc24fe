import Surd.Word

/-! The floor of the square root of a word, by bisection. A bracket holds the root
between two bounds; it is halved until the bounds are neighbours. -/

namespace Surd

structure Bracket where
  low : Nat
  high : Nat
  deriving DecidableEq, Repr

namespace Bracket

/-- The bracket that holds the root of every word above one. -/
def start (v : Nat) : Bracket := ⟨1, min v rootBound⟩

def middle (bracket : Bracket) : Nat := (bracket.low + bracket.high) / 2

def width (bracket : Bracket) : Nat := bracket.high - bracket.low

def narrow (v : Nat) (bracket : Bracket) : Bracket :=
  if bracket.middle * bracket.middle ≤ v then { bracket with low := bracket.middle }
  else { bracket with high := bracket.middle }

theorem width_narrow_lt (v : Nat) {bracket : Bracket} (wide : 1 < bracket.width) :
    (bracket.narrow v).width < bracket.width := by
  unfold narrow
  split <;> simp only [width, middle] at * <;> omega

def search (v : Nat) (bracket : Bracket) : Bracket :=
  if _wide : 1 < bracket.width then search v (bracket.narrow v) else bracket
termination_by bracket.width
decreasing_by exact width_narrow_lt v _wide

end Bracket

/-- The largest number whose square is at most the word. -/
def floorRoot (v : Nat) : Nat :=
  if v ≤ 1 then v else (Bracket.search v (.start v)).low

def floorRoot? (n : Int) : Except Fault Nat :=
  (checkWord "sqrt_floor argument" n).map floorRoot

end Surd
