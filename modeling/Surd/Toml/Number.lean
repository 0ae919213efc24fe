import Surd.Numeral
import Surd.Toml.Lexeme
import Surd.Value

/-! Numbers, dates and times of a TOML text. -/

namespace Surd.Toml

def digits? (isDigit : Char → Bool) (text : List Char) : Option (List Char × List Char) :=
  match text with
  | [] => none
  | c :: _ => if isDigit c then some (Text.grouped isDigit text) else none

def isDecimal (c : Char) : Bool := c.isDigit

def baseValue (base : Nat) (digits : List Char) : Nat :=
  digits.foldl (fun value c => base * value + (hexDigit? c).getD 0) 0

/-- The digits and the base of an integer that is not decimal, after its zero. -/
def based? : List Char → Option (Nat × List Char × List Char)
  | [] => none
  | c :: rest =>
    if c = 'x' then (digits? (fun d => (hexDigit? d).isSome) rest).map fun read => (16, read)
    else if c = 'b' then (digits? (fun d => d == '0' || d == '1') rest).map fun read => (2, read)
    else if c = 'o' then (digits? (fun d => '0' ≤ d && d ≤ '7') rest).map fun read => (8, read)
    else none

def fraction? : List Char → Option (List Char × List Char)
  | [] => none
  | c :: rest => if c = '.' then digits? isDecimal rest else none

def exponent? : List Char → Option (Int × List Char)
  | [] => none
  | c :: rest =>
    if c = 'e' || c = 'E' then
      let (negative, rest) := Numeral.takeSign rest
      (digits? isDecimal rest).map fun read =>
        let magnitude : Int := baseValue 10 read.1
        (if negative then -magnitude else magnitude, read.2)
    else none

/-- The digits before the point of a decimal number: a zero alone, or digits that start
with another one. -/
def whole? (text : List Char) : Option (List Char × List Char) :=
  match text with
  | [] => none
  | c :: rest => if c = '0' then some (['0'], rest) else digits? isDecimal text

/-- A decimal number: an integer, or a float where a fraction or an exponent follows. -/
def decimal? (text : List Char) : Option (Except Trouble (Value × List Char)) :=
  let (negative, rest) := Numeral.takeSign text
  match whole? rest with
  | none => none
  | some (digits, rest) =>
    let (fraction, rest) := (fraction? rest).getD ([], rest)
    match exponent? rest, fraction with
    | none, [] =>
      if digitLimit < digits.length then some (.error (.tooManyDigits digits.length))
      else
        let magnitude : Int := baseValue 10 digits
        some (.ok (.int (if negative then -magnitude else magnitude), rest))
    | exponent, _ =>
      let (power, rest) := exponent.getD (0, rest)
      let value := Binary64.ofDecimal negative (baseValue 10 (digits ++ fraction)) (power - fraction.length)
      some (.ok (.float value, rest))

def number? (text : List Char) : Option (Except Trouble (Value × List Char)) :=
  match text with
  | [] => none
  | c :: rest =>
    match (if c = '0' then based? rest else none) with
    | some (base, digits, rest) => some (.ok (.int (baseValue base digits), rest))
    | none => decimal? text

def after? (word : String) (text : List Char) : Option (List Char) :=
  if word.toList.isPrefixOf text then some (text.drop word.length) else none

def special? (text : List Char) : Option (Value × List Char) :=
  let (negative, rest) := Numeral.takeSign text
  match after? "inf" rest, after? "nan" rest with
  | some rest, _ => some (.float (.infinite negative), rest)
  | _, some rest => some (.float .nan, rest)
  | none, none => none

def fixed? (count least largest : Nat) (text : List Char) : Option (Nat × List Char) :=
  let digits := text.take count
  let value := baseValue 10 digits
  if digits.length = count ∧ digits.all isDecimal ∧ least ≤ value ∧ value ≤ largest then
    some (value, text.drop count)
  else none

def mark? (mark : Char) : List Char → Option (List Char)
  | [] => none
  | c :: rest => if c = mark then some rest else none

def day? (text : List Char) : Option (Day × List Char) := do
  let (year, rest) ← fixed? 4 0 9999 text
  let rest ← mark? '-' rest
  let (month, rest) ← fixed? 2 1 12 rest
  let rest ← mark? '-' rest
  let (day, rest) ← fixed? 2 1 31 rest
  return (⟨year, month, day⟩, rest)

def micros (digits : List Char) : Nat :=
  let kept := digits.take 6
  baseValue 10 kept * Nat.pow 10 (6 - kept.length)

def secondFraction (text : List Char) : Nat × List Char :=
  match mark? '.' text with
  | none => (0, text)
  | some rest =>
    let digits := rest.takeWhile isDecimal
    if digits.isEmpty then (0, text) else (micros digits, rest.dropWhile isDecimal)

def clock? (text : List Char) : Option (Clock × List Char) := do
  let (hour, rest) ← fixed? 2 0 23 text
  let rest ← mark? ':' rest
  let (minute, rest) ← fixed? 2 0 59 rest
  let rest ← mark? ':' rest
  let (second, rest) ← fixed? 2 0 59 rest
  let (micro, rest) := secondFraction rest
  return (⟨hour, minute, second, micro⟩, rest)

def offset? : List Char → Option (Int × List Char)
  | [] => none
  | c :: rest =>
    if c = 'Z' || c = 'z' then some (0, rest)
    else if c = '+' || c = '-' then do
      let (hours, rest) ← fixed? 2 0 23 rest
      let rest ← mark? ':' rest
      let (minutes, rest) ← fixed? 2 0 59 rest
      let total : Int := 60 * hours + minutes
      return (if c = '-' then -total else total, rest)
    else none

/-- The time that may follow a date, behind a letter or a blank. -/
def dayTime? : List Char → Option (Clock × Option Int × List Char)
  | [] => none
  | c :: rest =>
    if c = 'T' || c = 't' || c = ' ' then do
      let (clock, rest) ← clock? rest
      match offset? rest with
      | some (offset, rest) => return (clock, some offset, rest)
      | none => return (clock, none, rest)
    else none

/-- A date, a time or both. A date that the calendar does not have makes the text no document. -/
def moment? (text : List Char) : Option (Except Trouble (Value × List Char)) :=
  match day? text with
  | some (day, rest) =>
    let (moment, rest) := match dayTime? rest with
      | some (clock, offset, rest) => (Moment.instant day clock offset, rest)
      | none => (Moment.date day, rest)
    some (if Moment.isDay day then .ok (.moment moment, rest) else .error .malformed)
  | none => (clock? text).map fun read => .ok (.moment (.time read.1), read.2)

end Surd.Toml
