import Surd.Text.Digit
import Surd.Text.Quoted

/-! The words of a command line: which are options, under full or shortened names, and which
are operands. -/

namespace Surd.CommandLine

inductive Flag where
  | help
  | version
  | config
  | output
  | noColor
  | debug
  | perRow
  | pretty
  deriving DecidableEq, Repr

namespace Flag

def names : Flag → List String
  | .help => ["-h", "--help"]
  | .version => ["--version"]
  | .config => ["--config"]
  | .output => ["--output"]
  | .noColor => ["--no-color"]
  | .debug => ["--debug"]
  | .perRow => ["--per-row"]
  | .pretty => ["--pretty"]

def takesValue : Flag → Bool
  | .config | .output | .perRow => true
  | _ => false

def letter? : Flag → Option Char
  | .help => some 'h'
  | _ => none

def label (flag : Flag) : String := "/".intercalate flag.names

end Flag

/-- What one level of the command line knows: its options and its texts. -/
structure Grammar where
  program : String
  flags : List Flag
  usage : String
  help : String

/-- An option as it was written: by a short name or a long one, maybe with a value attached. -/
structure Use where
  flag : Flag
  short : Bool
  attached : Option String
  deriving DecidableEq, Repr

inductive Word where
  | operand (text : String)
  | separator
  | option (text : String) (use : Option Use)
  deriving DecidableEq, Repr

def Word.text : Word → String
  | .operand text => text
  | .separator => "--"
  | .option text _ => text

def atEnd (text : List Char) : Bool := text == [] || text == ['\n']

/-- A text that is a negative number: a minus, digits, and maybe a point and digits behind it. -/
def isNegative (text : List Char) : Bool :=
  match text with
  | [] => false
  | c :: rest =>
    let whole := rest.takeWhile Text.isDigit
    let after := rest.dropWhile Text.isDigit
    c == '-' &&
      ((!whole.isEmpty && atEnd after) ||
        match after with
        | [] => false
        | d :: tail =>
          d == '.' && !(tail.takeWhile Text.isDigit).isEmpty && atEnd (tail.dropWhile Text.isDigit))

namespace Grammar

def known (grammar : Grammar) : List (String × Flag) :=
  grammar.flags.flatMap fun flag => flag.names.map fun name => (name, flag)

def flagNamed? (grammar : Grammar) (name : String) : Option Flag := grammar.known.lookup name

def splitValue (text : List Char) : List Char × Option (List Char) :=
  match text.dropWhile (· != '=') with
  | [] => (text, none)
  | _ :: value => (text.takeWhile (· != '='), some value)

def startingWith (grammar : Grammar) (start : List Char) : List (String × Flag) :=
  grammar.known.filter fun (name, _) => start.isPrefixOf name.toList

def unknown (text : String) : Word :=
  if isNegative text.toList || text.toList.contains ' ' then .operand text else .option text none

def long (grammar : Grammar) (text : String) : Except String Word :=
  let (start, value) := splitValue text.toList
  let attached := value.map String.ofList
  match (if value.isSome then grammar.flagNamed? (String.ofList start) else none) with
  | some flag => .ok (.option text (some ⟨flag, false, attached⟩))
  | none =>
    match grammar.startingWith start with
    | [] => .ok (unknown text)
    | [(_, flag)] => .ok (.option text (some ⟨flag, false, attached⟩))
    | many =>
      let names := ", ".intercalate (many.map Prod.fst)
      .error s!"ambiguous option: {text} could match {names}"

def short (grammar : Grammar) (text : String) : Word :=
  let (start, value) := splitValue text.toList
  match value, grammar.flagNamed? (String.ofList start) with
  | some value, some flag => .option text (some ⟨flag, true, some (String.ofList value)⟩)
  | _, _ =>
    match grammar.flagNamed? (String.ofList (text.toList.take 2)) with
    | some flag => .option text (some ⟨flag, true, some (String.ofList (text.toList.drop 2))⟩)
    | none => unknown text

def classify (grammar : Grammar) (text : String) : Except String Word :=
  match text.toList with
  | [] => .ok (.operand text)
  | first :: rest =>
    if first ≠ '-' then .ok (.operand text)
    else
      match grammar.flagNamed? text, rest with
      | some flag, _ => .ok (.option text (some ⟨flag, rest.head? != some '-', none⟩))
      | none, [] => .ok (.operand text)
      | none, second :: _ => if second = '-' then grammar.long text else .ok (grammar.short text)

/-- The words of a command line. Behind the first separator all are operands. -/
def words (grammar : Grammar) : List String → Except String (List Word)
  | [] => .ok []
  | text :: rest =>
    if text = "--" then .ok (.separator :: rest.map .operand)
    else do
      let word ← grammar.classify text
      let others ← grammar.words rest
      .ok (word :: others)

end Grammar

/-- What is wrong with the value attached to an option that takes none: what is left of it
after further short options of the same name. -/
def Use.idle? (use : Use) : Option String :=
  match use.attached with
  | none => none
  | some value =>
    if use.short && !value.isEmpty then
      match value.toList.dropWhile fun c => use.flag.letter? == some c with
      | [] => none
      | rest => some (String.ofList rest)
    else some value

end Surd.CommandLine
