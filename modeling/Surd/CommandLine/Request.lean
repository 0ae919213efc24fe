import Surd.CommandLine.Help
import Surd.Numeral

/-! The request that a command line makes, or the text with which it ends early. Options of the
program stand before the command; everything behind the command's name belongs to the command. -/

namespace Surd.CommandLine

/-- The value of an option. A lone separator attached to it leaves it without one. -/
inductive Given (α : Type) where
  | value (a : α)
  | nothing
  deriving DecidableEq, Repr

inductive Command where
  | primes (n : String) (perRow : Option (Given Int))
  | isPrime (n : String)
  | factor (n : String)
  | floorRoot (n : String)
  | squareRoot (r : String) (pretty : Bool)
  deriving DecidableEq, Repr

structure Request where
  config : Option (Given String)
  output : Option (Given String)
  noColor : Bool
  debug : Bool
  command : Command
  deriving DecidableEq, Repr

inductive Stop where
  | shown (text : String)
  | refused (text : String)
  deriving DecidableEq, Repr

def refuse (grammar : Grammar) (message : String) : Stop :=
  .refused (grammar.usage ++ s!"{grammar.program}: error: {message}\n")

def refuseFlag (grammar : Grammar) (flag : Flag) (message : String) : Stop :=
  refuse grammar s!"argument {flag.label}: {message}"

/-- What has been read of a level: its options, the command's operand, and what nobody knows. -/
structure Options where
  config : Option (Given String) := none
  output : Option (Given String) := none
  noColor : Bool := false
  debug : Bool := false
  perRow : Option (Given Int) := none
  pretty : Bool := false
  operand : Option String := none
  unknown : List String := []
  deriving DecidableEq, Repr

namespace Options

def turn (grammar : Grammar) (options : Options) : Flag → Except Stop Options
  | .help => .error (.shown grammar.help)
  | .version => .error (.shown s!"{programName} {version}\n")
  | .noColor => .ok { options with noColor := true }
  | .debug => .ok { options with debug := true }
  | .pretty => .ok { options with pretty := true }
  | _ => .ok options

/-- Notes an option's value. The last one counts. -/
def set (grammar : Grammar) (options : Options) (flag : Flag) (given : Given String) :
    Except Stop Options :=
  match flag, given with
  | .config, given => .ok { options with config := some given }
  | .output, given => .ok { options with output := some given }
  | .perRow, .nothing => .ok { options with perRow := some .nothing }
  | .perRow, .value text =>
    match Numeral.readCount? text with
    | some n => .ok { options with perRow := some (.value n) }
    | none => .error (refuseFlag grammar flag s!"invalid int value: {Text.quoted text}")
  | _, _ => .ok options

def leave (options : Options) (text : String) : Options :=
  { options with unknown := options.unknown ++ [text] }

def take (options : Options) (text : String) : Options := { options with operand := some text }

end Options

def attachedValue (text : String) : Given String := if text = "--" then .nothing else .value text

/-- Notes an option, with the words behind it. Gives the words that are left. -/
def readOption (grammar : Grammar) (options : Options) (use : Use) (rest : List Word) :
    Except Stop (Options × List Word) :=
  if use.flag.takesValue then
    match use.attached, rest with
    | some text, _ => (options.set grammar use.flag (attachedValue text)).map fun options => (options, rest)
    | none, .operand text :: after =>
      (options.set grammar use.flag (.value text)).map fun options => (options, after)
    | none, _ => .error (refuseFlag grammar use.flag "expected one argument")
  else
    match use.idle? with
    | some text =>
      .error (refuseFlag grammar use.flag s!"ignored explicit argument {Text.quoted text}")
    | none => (options.turn grammar use.flag).map fun options => (options, rest)

theorem readOption_le {grammar : Grammar} {options after : Options} {use : Use} {rest left : List Word}
    (read : readOption grammar options use rest = .ok (after, left)) : left.length ≤ rest.length := by
  have kept : ∀ {result : Except Stop Options} {words : List Word},
      (result.map fun options => (options, words)) = .ok (after, left) → left = words := by
    intro result words same
    cases result with
    | error => simp [Except.map] at same
    | ok => simp only [Except.map, Except.ok.injEq, Prod.mk.injEq] at same; exact same.2.symm
  unfold readOption at read
  split at read
  · split at read
    · simp [kept read]
    · simp [kept read]
    · simp at read
  · split at read
    · simp at read
    · simp [kept read]

def dropSeparator : List Word → List Word
  | .separator :: rest => rest
  | words => words

theorem length_dropSeparator_le (words : List Word) : (dropSeparator words).length ≤ words.length := by
  unfold dropSeparator
  split <;> simp

/-- Reads the words of a command. The first operand is the command's; a separator next to it
is dropped. -/
def readCommand (grammar : Grammar) (options : Options) (words : List Word) : Except Stop Options :=
  match words with
  | [] => .ok options
  | .operand text :: rest =>
    if options.operand.isSome then readCommand grammar (options.leave text) rest
    else
      readCommand grammar (options.take text) (dropSeparator rest)
  | .separator :: rest =>
    if options.operand.isSome then readCommand grammar (options.leave "--") rest
    else
      match _same : rest with
      | .operand text :: after => readCommand grammar (options.take text) after
      | _ => readCommand grammar (options.leave "--") rest
  | .option text none :: rest => readCommand grammar (options.leave text) rest
  | .option _ (some use) :: rest =>
    match _read : readOption grammar options use rest with
    | .error stop => .error stop
    | .ok (options, left) => readCommand grammar options left
termination_by words.length
decreasing_by
  · simp
  · exact Nat.lt_succ_of_le (length_dropSeparator_le rest)
  · simp
  · simp only [List.length_cons]
    omega
  · simp [← _same]
  · simp
  · exact Nat.lt_succ_of_le (readOption_le _read)

theorem readCommand_of_refused {grammar : Grammar} {options : Options} {text : String} {use : Use} {rest : List Word}
    {stop : Stop} (read : readOption grammar options use rest = .error stop) :
    readCommand grammar options (.option text (some use) :: rest) = .error stop := by
  rw [readCommand]
  split
  · next same => rw [read] at same; cases same; rfl
  · next same => rw [read] at same; cases same

theorem readCommand_of_read {grammar : Grammar} {options after : Options} {text : String} {use : Use} {rest left : List Word}
    (read : readOption grammar options use rest = .ok (after, left)) :
    readCommand grammar options (.option text (some use) :: rest) = readCommand grammar after left := by
  rw [readCommand]
  split
  · next same => rw [read] at same; cases same
  · next same => rw [read] at same; cases same; rfl

def command (name : CommandName) (texts : List String) : Except Stop (Command × List String) := do
  let grammar := name.grammar
  let words ← (grammar.words texts).mapError (refuse grammar)
  let options ← readCommand grammar {} words
  match options.operand with
  | none => .error (refuse grammar s!"the following arguments are required: {name.operand}")
  | some text =>
    let command := match name with
      | .primes => Command.primes text options.perRow
      | .isprime => .isPrime text
      | .factor => .factor text
      | .isqrt => .floorRoot text
      | .sqrt => .squareRoot text options.pretty
    .ok (command, options.unknown)

def dispatch (options : Options) (name : String) (rest : List Word) : Except Stop Request :=
  match CommandName.ofText? name with
  | none =>
    let choices := ", ".intercalate (CommandName.all.map fun command => Text.quoted command.text)
    .error (refuse mainGrammar
      s!"argument COMMAND: invalid choice: {Text.quoted name} (choose from {choices})")
  | some name => do
    let (command, unknown) ← command name (rest.map Word.text)
    let left := options.unknown ++ unknown
    if left.isEmpty then
      .ok ⟨options.config, options.output, options.noColor, options.debug, command⟩
    else
      let unknown := " ".intercalate left
      .error (refuse mainGrammar s!"unrecognized arguments: {unknown}")

def commandMissing : Stop :=
  refuse mainGrammar "the following arguments are required: COMMAND"

/-- Reads the options of the program up to the command. A separator in the command's place is
taken for its name, if something follows. -/
def readMain (options : Options) (words : List Word) : Except Stop Request :=
  match words with
  | [] => .error commandMissing
  | .operand name :: rest => dispatch options name rest
  | .separator :: rest => if rest.isEmpty then .error commandMissing else dispatch options "--" rest
  | .option text none :: rest => readMain (options.leave text) rest
  | .option _ (some use) :: rest =>
    match _read : readOption mainGrammar options use rest with
    | .error stop => .error stop
    | .ok (options, left) => readMain options left
termination_by words.length
decreasing_by
  · simp
  · have := readOption_le _read
    simp only [List.length_cons]
    omega

theorem readMain_of_refused {options : Options} {text : String} {use : Use} {rest : List Word} {stop : Stop}
    (read : readOption mainGrammar options use rest = .error stop) :
    readMain options (.option text (some use) :: rest) = .error stop := by
  rw [readMain]
  split
  · next same => rw [read] at same; cases same; rfl
  · next same => rw [read] at same; cases same

theorem readMain_of_read {options after : Options} {text : String} {use : Use} {rest left : List Word}
    (read : readOption mainGrammar options use rest = .ok (after, left)) :
    readMain options (.option text (some use) :: rest) = readMain after left := by
  rw [readMain]
  split
  · next same => rw [read] at same; cases same
  · next same => rw [read] at same; cases same; rfl

def request (texts : List String) : Except Stop Request := do
  let words ← (mainGrammar.words texts).mapError (refuse mainGrammar)
  readMain {} words

end Surd.CommandLine
