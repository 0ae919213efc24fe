import Surd.Bounds
import Surd.Fault

/-! Fractions whose reduced parts are signed 32-bit numbers, and arithmetic that gives
no answer where the exact one is not such a fraction. -/

namespace Surd

structure Rational32 where
  val : Rat
  narrow : Narrow val
  deriving DecidableEq

namespace Rational32

def narrow? (r : Rat) : Option Rational32 :=
  if narrow : Narrow r then some ⟨r, narrow⟩ else none

def ofRat (r : Rat) : Except Fault Rational32 :=
  if narrow : Narrow r then .ok ⟨r, narrow⟩ else .error (.showing [r.num, r.den] (.outsideNarrow r))

def checkPart (n : Int) : Except Fault Unit :=
  if FitsPart n then .ok () else .error (.showing [n] (.outsidePart n))

/-- The fraction of two parts, in lowest terms. The reduced parts are checked again: a sign
can move to the numerator, and the least part has no opposite. -/
def ofParts (numer denom : Int) : Except Fault Rational32 := do
  checkPart numer
  checkPart denom
  if denom = 0 then .error (.overZero numer)
  else
    let r := Rat.divInt numer denom
    if narrow : Narrow r then .ok ⟨r, narrow⟩ else .error (.outsideReduced numer denom r)

def add (a b : Rat) : Option Rational32 := narrow? (a + b)

def sub (a b : Rat) : Option Rational32 := narrow? (a - b)

def mul (a b : Rat) : Option Rational32 := narrow? (a * b)

def div (a b : Rat) : Option Rational32 := if b = 0 then none else narrow? (a / b)

inductive Operator where
  | add
  | sub
  | mul
  | div
  deriving DecidableEq, Repr

def Operator.apply : Operator → Rat → Rat → Option Rational32
  | .add => Rational32.add
  | .sub => Rational32.sub
  | .mul => Rational32.mul
  | .div => Rational32.div

end Rational32
end Surd
