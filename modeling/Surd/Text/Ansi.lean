/-! Colour codes of terminals: the codes in use, and their removal. A code is the escape
character, an opening bracket, digits and semicolons in any number, and one ASCII letter. -/

namespace Surd.Ansi

def escape : Char := '\x1b'

def isParameter (c : Char) : Bool := c.isDigit || c == ';'

def afterCode? : List Char → Option (List Char)
  | first :: second :: rest =>
    if first = escape ∧ second = '[' then
      match rest.dropWhile isParameter with
      | last :: after => if last.isAlpha then some after else none
      | [] => none
    else none
  | _ => none

theorem length_dropWhile_le (p : Char → Bool) (text : List Char) :
    (text.dropWhile p).length ≤ text.length := (List.dropWhile_sublist p).length_le

theorem afterCode?_shorter {text rest : List Char} (found : afterCode? text = some rest) :
    rest.length < text.length := by
  unfold afterCode? at found
  split at found
  · next first second tail =>
    have shorter := length_dropWhile_le isParameter tail
    split at found
    · split at found
      · next last after same =>
        split at found
        · simp only [Option.some.injEq] at found
          subst found
          simp only [same, List.length_cons] at shorter ⊢
          omega
        · simp at found
      · simp at found
    · simp at found
  · simp at found

/-- A text without its codes, read once from left to right. -/
def stripChars (text : List Char) : List Char :=
  match _found : afterCode? text with
  | some rest => stripChars rest
  | none =>
    match text with
    | [] => []
    | c :: rest => c :: stripChars rest
termination_by text.length
decreasing_by
  · exact afterCode?_shorter _found
  · simp

def strip (text : String) : String := String.ofList (stripChars text.toList)

def code (number : Nat) : String := "\x1b[" ++ toString number ++ "m"

def red : String := code 31

def green : String := code 32

def yellow : String := code 33

def bright : String := code 1

def reset : String := code 0

end Surd.Ansi
