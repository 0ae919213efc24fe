import Surd.Toml.Document
import Surd.Toml.Number

/-! Reading a TOML document: its values, its statements, and the table that they make up. -/

namespace Surd.Toml

def wholeRoom : Nat := 986

def arrayRoom : Nat := 2

def tableRoom : Nat := 3

def enter? (needed room : Nat) : Except Trouble Nat :=
  if needed ≤ room then .ok (room - needed) else .error .tooDeep

mutual

/-- A value at the front of a text of at most so many characters, in the room that is left. -/
def value : Nat → Nat → List Char → Except Trouble (Value × List Char)
  | 0, _, _ => .error .malformed
  | _ + 1, _, [] => .error .malformed
  | fuel + 1, room, c :: rest =>
    if c = Text.doubleQuote ∨ c = Text.singleQuote then
      (anyString c rest).map fun read => (.text read.1, read.2)
    else if c = '[' then do
      let room ← enter? arrayRoom room
      let inner ← skipGaps rest
      match mark? ']' inner with
      | some after => .ok (.list [], after)
      | none => (items fuel room inner).map fun read => (.list read.1, read.2)
    else if c = '\x7b' then do
      let room ← enter? tableRoom room
      let inner := skipSpaces rest
      match mark? '\x7d' inner with
      | some after => .ok (.table [], after)
      | none => (pairs fuel room [] inner).map fun read => (.table (entriesToValue read.1), read.2)
    else
      match after? "true" (c :: rest), after? "false" (c :: rest) with
      | some after, _ => .ok (.bool true, after)
      | _, some after => .ok (.bool false, after)
      | none, none =>
        match moment? (c :: rest) with
        | some read => read
        | none =>
          match number? (c :: rest) with
          | some read => read
          | none =>
            match special? (c :: rest) with
            | some read => .ok read
            | none => .error .malformed

def items : Nat → Nat → List Char → Except Trouble (List Value × List Char)
  | 0, _, _ => .error .malformed
  | fuel + 1, room, text => do
    let first ← value fuel room text
    let after ← skipGaps first.2
    match mark? ']' after, mark? ',' after with
    | some rest, _ => .ok ([first.1], rest)
    | _, some rest => do
      let rest ← skipGaps rest
      match mark? ']' rest with
      | some rest => .ok ([first.1], rest)
      | none => (items fuel room rest).map fun read => (first.1 :: read.1, read.2)
    | none, none => .error .malformed

def pairs : Nat → Nat → Entries → List Char → Except Trouble (Entries × List Char)
  | 0, _, _, _ => .error .malformed
  | fuel + 1, room, entries, text => do
    let (keys, rest) ← key text
    match mark? '=' rest with
    | none => .error .malformed
    | some rest => do
      let read ← value fuel room (skipSpaces rest)
      let entries ← putInline read.1 keys entries
      let after := skipSpaces read.2
      match mark? '\x7d' after, mark? ',' after with
      | some rest, _ => .ok (entries, rest)
      | _, some rest => pairs fuel room entries (skipSpaces rest)
      | none, none => .error .malformed

end

/-- What has been read of a document: its tables, the open header, and how many headers
came before. -/
structure Progress where
  entries : Entries
  header : List String
  number : Nat

def header (progress : Progress) (rest : List Char) : Except Trouble (Progress × List Char) := do
  let number := progress.number + 1
  match mark? '[' rest with
  | some rest => do
    let (keys, rest) ← key (skipSpaces rest)
    let entries ← appendTable keys progress.entries
    match (mark? ']' rest).bind (mark? ']') with
    | some rest => .ok (⟨entries, keys, number⟩, rest)
    | none => .error .malformed
  | none => do
    let (keys, rest) ← key (skipSpaces rest)
    let entries ← openTable keys progress.entries
    match mark? ']' rest with
    | some rest => .ok (⟨entries, keys, number⟩, rest)
    | none => .error .malformed

def assignment (size : Nat) (progress : Progress) (text : List Char) :
    Except Trouble (Progress × List Char) := do
  let (keys, rest) ← key text
  match mark? '=' rest with
  | none => .error .malformed
  | some rest => do
    let read ← value size wholeRoom (skipSpaces rest)
    let entries ← putUnder progress.number keys read.1 progress.header progress.entries
    .ok ({ progress with entries }, read.2)

def statement (size : Nat) (progress : Progress) (text : List Char) :
    Except Trouble (Progress × List Char) :=
  match text with
  | [] => .ok (progress, [])
  | c :: rest =>
    if c = '\n' ∨ c = '#' then .ok (progress, text)
    else if c = '[' then header progress rest
    else assignment size progress text

/-- The statements of a text, one a line, in at most that many lines. A line takes a character
at least, so the count that is left also bounds what a statement can take. -/
def statements : Nat → Progress → List Char → Except Trouble Progress
  | 0, progress, _ => .ok progress
  | fuel + 1, progress, text => do
    let (progress, rest) ← statement (fuel + 1) progress (skipSpaces text)
    let rest ← skipComment (skipSpaces rest)
    match rest with
    | [] => .ok progress
    | c :: rest => if c = '\n' then statements fuel progress rest else .error .malformed

def joinLineEnds : List Char → List Char
  | [] => []
  | [c] => [c]
  | c :: d :: rest =>
    if c = '\r' ∧ d = '\n' then '\n' :: joinLineEnds rest else c :: joinLineEnds (d :: rest)

def read (text : String) : Except Trouble (List (String × Value)) :=
  let source := joinLineEnds text.toList
  (statements (source.length + 1) ⟨[], [], 0⟩ source).map fun progress => entriesToValue progress.entries

end Surd.Toml
