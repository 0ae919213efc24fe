import Surd.CommandLine.Request
import Surd.Context
import Surd.Listing
import Surd.Text.Ansi

/-! What each command answers. -/

namespace Surd

/-- The answer of a command: the exit code, the text, and what a trace tells of it. -/
structure Result where
  code : Nat
  text : String
  traces : List String
  deriving DecidableEq, Repr

namespace CommandLine.Command

def plain (text : String) : Result := ⟨0, text, []⟩

def integerSetting (context : Context) (key : String) (default : Int) : Int :=
  match context.get key (.int default) with
  | .int n => n
  | _ => default

/-- The row length that is in effect: the one of the command line, even if it is zero, or the
one of the settings. -/
def rowLength (context : Context) : Option (Given Int) → Except Fault Int
  | none => .ok (integerSetting context "OUTPUT.PRIMES_PER_ROW" 10)
  | some (.value n) => .ok n
  | some .nothing =>
    .error (.unsupportedKind "'<' not supported between instances of 'list' and 'int'")

def listPrimes (context : Context) (n : String) (perRow : Option (Given Int)) : Except Fault Result := do
  let bound ← Numeral.readWord "upper bound" n
  let limit := integerSetting context "BEHAVIOUR.MAX_PRIMES_BOUND" 10000000
  if limit < bound then .error (.boundAboveLimit bound limit)
  else do
    let length ← rowLength context perRow
    if length < 1 then .error (.rowNotPositive length)
    else
      let primes := (primesUpTo bound).map Int.ofNat
      let text :=
        if primes.isEmpty then s!"no primes <= {bound}" else Listing.table primes length.toNat
      .ok ⟨0, text, [s!"{primes.length} primes <= {bound}"]⟩

def testPrime (n : String) : Except Fault Result := do
  let v ← Numeral.readWord "number" n
  let prime ← PrimeTable.full.isPrime v
  let verdict := if prime then Ansi.green ++ "prime" else Ansi.yellow ++ "not prime"
  .ok (plain (s!"{v} is " ++ verdict ++ Ansi.reset))

def showFactors (n : String) : Except Fault Result := do
  let v ← Numeral.readWord "number" n
  let factors ← PrimeTable.full.factors v
  .ok (plain (s!"{v} = " ++ Listing.factorization factors))

def showFloorRoot (n : String) : Except Fault Result := do
  let v ← Numeral.readWord "number" n
  .ok (plain s!"floor(sqrt({v})) = {Surd.floorRoot v}")

def showSquareRoot (draw : SquareRoot → String) (context : Context) (r : String) (pretty : Bool) :
    Except Fault Result := do
  let (numer, denom) ← Numeral.readRational r
  let fraction ← Rational32.ofParts numer denom
  let root ← fraction.sqrt
  let name := s!"sqrt({rationalText fraction.val})"
  match root with
  | none =>
    .ok ⟨1, Ansi.yellow ++ name ++ " overflows the 32-bit representation" ++ Ansi.reset, []⟩
  | some root =>
    let trace := s!"square part {rationalText root.part}, root {root.root}"
    let text :=
      if pretty || (context.get "OUTPUT.PRETTY" (.bool false)).truth then draw root
      else s!"{name} = {root.text}"
    .ok ⟨0, text, [trace]⟩

def execute (draw : SquareRoot → String) (context : Context) : Command → Except Fault Result
  | .primes n perRow => listPrimes context n perRow
  | .isPrime n => testPrime n
  | .factor n => showFactors n
  | .floorRoot n => showFloorRoot n
  | .squareRoot r pretty => showSquareRoot draw context r pretty

end CommandLine.Command
end Surd
