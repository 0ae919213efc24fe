import Surd.Bounds
import Surd.Fault
import Surd.Text.Blank
import Surd.Text.Digit

/-! Reading numbers that people type. Grouping signs are dropped, the digits may be of any
script, and a text of too many digits is refused. -/

namespace Surd.Numeral

structure Signed where
  negative : Bool
  digits : List Char
  deriving DecidableEq, Repr

def Signed.value (number : Signed) : Except Fault Int :=
  if digitLimit < number.digits.length then .error (.tooManyDigits number.digits.length)
  else
    let magnitude : Int := Text.digitsValue number.digits
    .ok (if number.negative then -magnitude else magnitude)

/-- A text without blanks at its ends, and then without grouping signs anywhere. -/
def clean (text : List Char) : List Char :=
  (Text.strip text).filter fun c => c != '_' && c != ','

def takeSign : List Char → Bool × List Char
  | [] => (false, [])
  | c :: rest => if c = '-' then (true, rest) else if c = '+' then (false, rest) else (false, c :: rest)

def takeSigned? (text : List Char) : Option (Signed × List Char) :=
  let (negative, rest) := takeSign text
  let digits := rest.takeWhile Text.isDigit
  if digits.isEmpty then none else some (⟨negative, digits⟩, rest.dropWhile Text.isDigit)

def skipBlanks (text : List Char) : List Char := text.dropWhile Text.isBlank

def integer? (text : List Char) : Option Signed :=
  match takeSigned? text with
  | some (number, rest) => if rest = [] ∨ rest = ['\n'] then some number else none
  | none => none

def denominator? (text : List Char) : Option Signed :=
  match takeSigned? (skipBlanks text) with
  | some (number, rest) => if skipBlanks rest = [] then some number else none
  | none => none

/-- A rational in a cleaned text: an integer, or two with a bar between. Blanks may stand
around each. -/
def rational? (text : List Char) : Option (Signed × Option Signed) :=
  match takeSigned? (skipBlanks text) with
  | some (numer, rest) =>
    match skipBlanks rest with
    | [] => some (numer, none)
    | c :: after =>
      if c = '/' then (denominator? after).map fun denom => (numer, some denom) else none
  | none => none

def readWord (label text : String) : Except Fault Nat :=
  match integer? (clean text.toList) with
  | none => .error (.unreadableInteger label text)
  | some number => do
    let v ← number.value
    if 0 ≤ v ∧ v ≤ wordMax then .ok v.toNat else .error (.readOutsideWord label v)

def checkPart (n : Int) : Except Fault Unit :=
  if FitsPart n then .ok () else .error (.readOutsidePart n)

def readRational (text : String) : Except Fault (Int × Int) :=
  match rational? (clean text.toList) with
  | none => .error (.unreadableRational text)
  | some (first, second) => do
    let numer ← first.value
    let denom ← (second.map Signed.value).getD (.ok 1)
    if denom = 0 then .error .zeroDenominator
    else do
      checkPart numer
      checkPart denom
      .ok (numer, denom)

/-- The digits at the front of a text, without the single underscores that may stand between
two of them, and what follows. -/
def takeGrouped (text : List Char) : List Char × List Char :=
  match text with
  | [] => ([], [])
  | c :: rest => if Text.isDigit c then Text.grouped Text.isDigit (c :: rest) else ([], c :: rest)

/-- A plain integer: margins are dropped, and digits may be grouped by single underscores. -/
def readInteger (text : String) : Except Fault Int :=
  let inner := ((text.toList.dropWhile Text.isMargin).reverse.dropWhile Text.isMargin).reverse
  let (negative, rest) := takeSign inner
  match takeGrouped rest with
  | (digit :: digits, []) => (Signed.mk negative (digit :: digits)).value
  | _ => .error (.unreadableNumeral text)

def readCount? (text : String) : Option Int := (readInteger text).toOption

end Surd.Numeral
