import Surd.Numeral.Fraction
import Surd.Rational32
import Surd.Value.Arithmetic
import Surd.Value.Items
import Surd.Value.Order
import Surd.Value.Text
import Surd.Word

/-! What operations take from operands whose kind is not known beforehand: a fraction, a part,
a text or an integer. -/

namespace Surd.Value

def toRat : Value → Except Fault Rat
  | .bool b => .ok (if b then 1 else 0)
  | .int n => .ok n
  | .fraction r => .ok r
  | .float .nan => .error .noQuotient
  | .float (.infinite _) => .error .infiniteQuotient
  | .float x => .ok (x.toRat?.getD 0)
  | .text s => Numeral.readFraction s
  | other => .error (.unsupportedKind s!"no fraction can be made of {other.kind}")

def toRational32 : Value → Except Fault Rational32
  | .int n => Rational32.ofRat n
  | .fraction r => Rational32.ofRat r
  | other => .error (.notFraction other.kind)

def toPart : Value → Except Fault Int
  | .int n => (Rational32.checkPart n).map fun _ => n
  | other => .error (.partNotInteger other.kind)

def toText : Value → Except Fault String
  | .text s => .ok s
  | other => .error (.missingAttribute s!"{other.kind} is no text")

def toInteger (v : Value) : Except Fault Int :=
  match v.integer? with
  | some n => .ok n
  | none => .error (.unsupportedKind s!"{v.kind} is no integer")

def equalsInteger (v : Value) (n : Int) : Bool := v.sameNumber (.int n)

end Surd.Value
