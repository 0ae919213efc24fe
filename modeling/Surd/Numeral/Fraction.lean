import Surd.Numeral

/-! Fractions that are written out in full: two integers with a bar between them, or an integer
that may have places behind a point and a power of ten. -/

namespace Surd.Numeral

/-- A fraction as it is written: what stands before the bar or the point, and either what
stands behind the bar, or the places and the power of ten. Letters can stand for the places;
they are taken along, and do not read as an integer. -/
structure Written where
  whole : Signed
  denom : Option (List Char)
  places : List Char
  power : Option Signed
  deriving DecidableEq, Repr

def isPlaceLetter (c : Char) : Bool := c == 'd' || c == 'D'

def takePlaces : List Char → List Char × List Char
  | [] => ([], [])
  | c :: rest =>
    if c = '.' then
      match takeGrouped rest with
      | ([], _) => (rest.takeWhile isPlaceLetter, rest.dropWhile isPlaceLetter)
      | read => read
    else ([], c :: rest)

def takePower? : List Char → Option (Option Signed × List Char)
  | [] => some (none, [])
  | c :: rest =>
    if c = 'e' ∨ c = 'E' then
      let (negative, rest) := takeSign rest
      match takeGrouped rest with
      | ([], _) => none
      | (digits, left) => some (some ⟨negative, digits⟩, left)
    else some (none, c :: rest)

/-- What stands behind the first integer of a fraction, to the end of the text. A point without
an integer before it needs a digit. -/
def writtenAfter? (whole : Signed) : List Char → Option Written
  | [] => if whole.digits.isEmpty then none else some ⟨whole, none, [], none⟩
  | c :: rest =>
    if c = '/' then
      match takeGrouped rest with
      | ([], _) => none
      | (denom, left) =>
        if whole.digits.isEmpty || skipBlanks left != [] then none
        else some ⟨whole, some denom, [], none⟩
    else
      let (places, left) := takePlaces (c :: rest)
      if whole.digits.isEmpty && !places.head?.any Text.isDigit then none
      else
        match takePower? left with
        | some (power, left) => if skipBlanks left = [] then some ⟨whole, none, places, power⟩ else none
        | none => none

def written? (text : List Char) : Option Written :=
  let (negative, rest) := takeSign (skipBlanks text)
  let (digits, left) := takeGrouped rest
  writtenAfter? ⟨negative, digits⟩ left

def magnitude (digits : List Char) : Except Fault Int := (Signed.mk false digits).value

def placesValue (places : List Char) : Except Fault Int :=
  if places.any isPlaceLetter then .error (.unreadableNumeral (String.ofList places))
  else magnitude places

def powerMax : Nat := 67108864

def Written.value (written : Written) : Except Fault Rat := do
  let whole ← magnitude written.whole.digits
  let sign : Int := if written.whole.negative then -1 else 1
  match written.denom with
  | some digits => do
    let denom ← magnitude digits
    if denom = 0 then .error (.overZero (sign * whole)) else .ok (Rat.divInt (sign * whole) denom)
  | none => do
    let places ← placesValue written.places
    let power ← (written.power.map Signed.value).getD (.ok 0)
    if powerMax < power.natAbs then throw .outOfMemory
    let scale := written.places.length
    let numer := sign * (whole * Nat.pow 10 scale + places) * Nat.pow 10 power.toNat
    .ok (Rat.divInt numer (Nat.pow 10 (scale + (-power).toNat)))

def readFraction (text : String) : Except Fault Rat :=
  match written? text.toList with
  | none => .error (.unreadableFraction text)
  | some written => written.value

end Surd.Numeral
