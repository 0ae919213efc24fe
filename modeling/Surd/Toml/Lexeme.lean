import Surd.Text.Quoted

/-! The small pieces of a TOML text: blanks, comments, keys and strings. Each reader takes
its piece from the front of the text and gives what follows. -/

namespace Surd.Toml

/-- Why a text is not read: it is no document, it holds an integer of too many digits, or it is
nested too deep. -/
inductive Trouble where
  | malformed
  | tooManyDigits (count : Nat)
  | tooDeep
  deriving DecidableEq, Repr

def isSpace (c : Char) : Bool := c == ' ' || c == '\t'

def isGap (c : Char) : Bool := isSpace c || c == '\n'

def isControl (c : Char) : Bool := (c.toNat < 32 && c != '\t') || c.toNat == 127

def isBare (c : Char) : Bool := c.isAlphanum || c == '-' || c == '_'

def skipSpaces (text : List Char) : List Char := text.dropWhile isSpace

def skipComment (text : List Char) : Except Trouble (List Char) :=
  match text with
  | [] => .ok []
  | c :: rest =>
    if c = '#' then
      if (rest.takeWhile (· != '\n')).any isControl then .error .malformed
      else .ok (rest.dropWhile (· != '\n'))
    else .ok text

def skipGaps (text : List Char) : Except Trouble (List Char) :=
  match text with
  | [] => .ok []
  | c :: rest =>
    if isGap c then skipGaps rest
    else if c = '#' then
      if (rest.takeWhile (· != '\n')).any isControl then .error .malformed
      else skipGaps (rest.dropWhile (· != '\n'))
    else .ok (c :: rest)
termination_by text.length
decreasing_by
  · simp
  · exact Nat.lt_succ_of_le (List.dropWhile_sublist _).length_le

def hexDigit? (c : Char) : Option Nat :=
  if c.isDigit then some (c.toNat - 48)
  else if 'a' ≤ c ∧ c ≤ 'f' then some (c.toNat - 87)
  else if 'A' ≤ c ∧ c ≤ 'F' then some (c.toNat - 55)
  else none

def hexValue? (digits : List Char) : Option Nat :=
  digits.foldlM (fun value c => (hexDigit? c).map (16 * value + ·)) 0

/-- The character of a code point; surrogates have none. -/
def scalar? (code : Nat) : Option Char :=
  if code ≤ 0xD7FF ∨ (0xE000 ≤ code ∧ code ≤ 0x10FFFF) then some (Char.ofNat code) else none

def numbered? (count : Nat) (text : List Char) : Option (Char × List Char) :=
  let digits := text.take count
  if digits.length = count then
    ((hexValue? digits).bind scalar?).map fun c => (c, text.drop count)
  else none

def namedEscape? (c : Char) : Option Char :=
  if c = 'b' then some (Char.ofNat 8)
  else if c = 't' then some '\t'
  else if c = 'n' then some '\n'
  else if c = 'f' then some (Char.ofNat 12)
  else if c = 'r' then some '\r'
  else if c = Text.doubleQuote ∨ c = '\\' then some c
  else none

def escape? : List Char → Option (Char × List Char)
  | [] => none
  | c :: rest =>
    match namedEscape? c with
    | some d => some (d, rest)
    | none =>
      if c = 'u' then numbered? 4 rest
      else if c = 'U' then numbered? 8 rest
      else none

theorem numbered?_le {count : Nat} {text rest : List Char} {c : Char}
    (found : numbered? count text = some (c, rest)) : rest.length ≤ text.length := by
  unfold numbered? at found
  simp only at found
  split at found
  · obtain ⟨d, _, same⟩ := Option.map_eq_some_iff.mp found
    simp only [Prod.mk.injEq] at same
    simp [← same.2]
  · simp at found

theorem escape?_shorter {text rest : List Char} {c : Char} (found : escape? text = some (c, rest)) :
    rest.length < text.length := by
  match text, found with
  | [], found => simp [escape?] at found
  | d :: tail, found =>
    simp only [escape?] at found
    simp only [List.length_cons]
    split at found
    · simp only [Option.some.injEq, Prod.mk.injEq] at found
      simp [← found.2]
    · split at found
      · exact Nat.lt_succ_of_le (numbered?_le found)
      · split at found
        · exact Nat.lt_succ_of_le (numbered?_le found)
        · simp at found

/-- The rest of a string of one line after its opening quote, with escapes. -/
def lineString (text : List Char) : Except Trouble (List Char × List Char) :=
  match text with
  | [] => .error .malformed
  | c :: rest =>
    if c = Text.doubleQuote then .ok ([], rest)
    else if c = '\\' then
      match _found : escape? rest with
      | none => .error .malformed
      | some (d, after) => (lineString after).map fun read => (d :: read.1, read.2)
    else if isControl c then .error .malformed
    else (lineString rest).map fun read => (c :: read.1, read.2)
termination_by text.length
decreasing_by
  · have := escape?_shorter _found
    simp only [List.length_cons]
    omega
  · simp

/-- What follows a backslash at the end of a line: the next character that is no gap. -/
def skipLineEnd? (text : List Char) : Option (List Char) :=
  match skipSpaces text with
  | [] => some []
  | c :: rest => if c = '\n' then some (rest.dropWhile isGap) else none

theorem skipLineEnd?_le {text rest : List Char} (found : skipLineEnd? text = some rest) :
    rest.length ≤ text.length := by
  unfold skipLineEnd? at found
  have skipped := (List.dropWhile_sublist isSpace (l := text)).length_le
  split at found
  · simp only [Option.some.injEq] at found
    simp [← found]
  · next c tail same =>
    split at found
    · simp only [Option.some.injEq] at found
      have gap := (List.dropWhile_sublist isGap (l := tail)).length_le
      unfold skipSpaces at same
      simp only [same, List.length_cons] at skipped
      rw [← found]
      omega
    · simp at found

/-- At most two further quotes belong to a string over several lines when more than three
end it. -/
def trailingQuotes (quote : Char) (text : List Char) : List Char × List Char :=
  let extra := (text.take 2).takeWhile (· == quote)
  (extra, text.drop extra.length)

def blockString (text : List Char) : Except Trouble (List Char × List Char) :=
  match text with
  | [] => .error .malformed
  | c :: rest =>
    if c = Text.doubleQuote then
      if rest.take 2 = [Text.doubleQuote, Text.doubleQuote] then
        .ok (trailingQuotes Text.doubleQuote (rest.drop 2))
      else (blockString rest).map fun read => (c :: read.1, read.2)
    else if c = '\\' then
      if (rest.take 1).any isGap then
        match _found : skipLineEnd? rest with
        | none => .error .malformed
        | some after => blockString after
      else
        match _found : escape? rest with
        | none => .error .malformed
        | some (d, after) => (blockString after).map fun read => (d :: read.1, read.2)
    else if isControl c && c != '\n' then .error .malformed
    else (blockString rest).map fun read => (c :: read.1, read.2)
termination_by text.length
decreasing_by
  · simp
  · have := skipLineEnd?_le _found
    simp only [List.length_cons]
    omega
  · have := escape?_shorter _found
    simp only [List.length_cons]
    omega
  · simp

def literalString (text : List Char) : Except Trouble (List Char × List Char) :=
  let body := text.takeWhile (· != Text.singleQuote)
  match text.dropWhile (· != Text.singleQuote) with
  | [] => .error .malformed
  | _ :: rest => if body.any isControl then .error .malformed else .ok (body, rest)

def literalBlock : List Char → Except Trouble (List Char × List Char)
  | [] => .error .malformed
  | c :: rest =>
    if c = Text.singleQuote ∧ rest.take 2 = [Text.singleQuote, Text.singleQuote] then
      .ok (trailingQuotes Text.singleQuote (rest.drop 2))
    else if isControl c && c != '\n' then .error .malformed
    else (literalBlock rest).map fun read => (c :: read.1, read.2)

/-- A line end right after the opening quotes is not part of a string. -/
def dropLineEnd : List Char → List Char
  | [] => []
  | c :: rest => if c = '\n' then rest else c :: rest

def anyString (quote : Char) (rest : List Char) : Except Trouble (String × List Char) :=
  let literal := quote == Text.singleQuote
  let read :=
    if rest.take 2 = [quote, quote] then
      let body := dropLineEnd (rest.drop 2)
      if literal then literalBlock body else blockString body
    else if literal then literalString rest
    else lineString rest
  read.map fun read => (String.ofList read.1, read.2)

def keyPart (text : List Char) : Except Trouble (String × List Char) :=
  match text with
  | [] => .error .malformed
  | c :: rest =>
    if isBare c then .ok (String.ofList (text.takeWhile isBare), text.dropWhile isBare)
    else if c = Text.singleQuote then (literalString rest).map fun read => (String.ofList read.1, read.2)
    else if c = Text.doubleQuote then (lineString rest).map fun read => (String.ofList read.1, read.2)
    else .error .malformed

/-- The parts of a key with points between, in at most that many turns. -/
def keyParts : Nat → List Char → Except Trouble (List String × List Char)
  | 0, _ => .error .malformed
  | fuel + 1, text => do
    let (part, rest) ← keyPart text
    match skipSpaces rest with
    | [] => .ok ([part], [])
    | c :: after =>
      if c = '.' then do
        let (parts, rest) ← keyParts fuel (skipSpaces after)
        .ok (part :: parts, rest)
      else .ok ([part], c :: after)

def key (text : List Char) : Except Trouble (List String × List Char) := keyParts ((text.takeWhile (· != '\n')).length + 1) text

end Surd.Toml
