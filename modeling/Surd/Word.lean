import Surd.Bounds
import Surd.Fault

/-! Words as the library takes them: an integer, or a value, that is checked first. -/

namespace Surd

/-- The word that an integer is. The label names it in the message when it is none. -/
def checkWord (label : String) (n : Int) : Except Fault Nat :=
  if 0 ≤ n ∧ n ≤ wordMax then .ok n.toNat else .error (.showing [n] (.outsideWord label n))

/-- The word that a value is. A truth value is no integer here. -/
def Value.word (label : String) : Value → Except Fault Nat
  | .int n => checkWord label n
  | other => .error (.notInteger label other.kind)

theorem checkWord_ofNat (label : String) {n : Nat} (small : n ≤ wordMax) :
    checkWord label n = .ok n := by
  have bounds : 0 ≤ (n : Int) ∧ (n : Int) ≤ wordMax := by omega
  simp [checkWord, bounds]

end Surd
