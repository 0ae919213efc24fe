/-! The integer ranges of the library. A word is an unsigned 32-bit number, a part
is a signed one; a fraction is narrow when both of its reduced parts are. The decimal text of an integer has a limit of
its own. Powers in definitions are written as functions, so that they are the core ones
whatever else is in scope. -/

namespace Surd

def wordMax : Nat := 4294967295

def partMin : Int := -2147483648

def partMax : Int := 2147483647

/-- A number above the floor root of every word. The full prime table reaches this far. -/
def rootBound : Nat := 65536

/-- The most decimal digits of an integer that is read or written. -/
def digitLimit : Nat := 4300

/-- Tells that an integer has no more digits than are written. -/
def hasWritableLength (n : Int) : Bool := n.natAbs < Nat.pow 10 digitLimit

def FitsPart (n : Int) : Prop := partMin ≤ n ∧ n ≤ partMax

instance (n : Int) : Decidable (FitsPart n) := inferInstanceAs (Decidable (_ ∧ _))

theorem writable_of_small {n : Int} (small : n.natAbs < 10000000000) : hasWritableLength n = true := by
  -- Said for any limit, since the power for the one in use is too large to be computed.
  have grows : ∀ limit, 10 ≤ limit → n.natAbs < Nat.pow 10 limit := fun limit long =>
    Nat.lt_of_lt_of_le small (Nat.pow_le_pow_right (n := 10) (by decide) long)
  exact decide_eq_true (grows digitLimit (by decide))

theorem writable_of_fitsPart {n : Int} (fits : FitsPart n) : hasWritableLength n = true := by
  have bounds := fits
  simp only [FitsPart, partMin, partMax] at bounds
  exact writable_of_small (by omega)

theorem not_fitsPart_of_unwritable {n : Int} (long : hasWritableLength n = false) : ¬FitsPart n := by
  intro fits
  rw [writable_of_fitsPart fits] at long
  cases long

/-- The smallest number that is too long. -/
theorem unwritable_limit : hasWritableLength (Nat.pow 10 digitLimit : Nat) = false := by
  refine decide_eq_false ?_
  rw [Int.natAbs_natCast]
  exact Nat.lt_irrefl _

theorem writable_of_le {m n : Nat} (le : m ≤ n) (writable : hasWritableLength n = true) : hasWritableLength m = true := by
  have below : (n : Int).natAbs < Nat.pow 10 digitLimit := of_decide_eq_true writable
  rw [Int.natAbs_natCast] at below
  refine decide_eq_true ?_
  rw [Int.natAbs_natCast]
  exact Nat.lt_of_le_of_lt le below

/-- A fraction whose numerator and denominator, in lowest terms, are parts. -/
def Narrow (r : Rat) : Prop := FitsPart r.num ∧ FitsPart r.den

instance (r : Rat) : Decidable (Narrow r) := inferInstanceAs (Decidable (_ ∧ _))

end Surd
