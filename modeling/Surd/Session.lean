import Surd.Action
import Surd.Command
import Surd.Fault.Message
import Surd.Workspace

/-! A run of the program as a function: from a command line, its surroundings, the files and what
earlier runs left, to how it ends, what it prints, and what it leaves. -/

namespace Surd

inductive Ending where
  | exit (code : Nat)
  | raised (fault : Fault)

structure Outcome extends Stage where
  ending : Ending

namespace Session

def missingPart : String :=
  Ansi.red ++ Ansi.bright ++ "\nMissing dependencies:" ++ Ansi.reset ++ " sympy\nInstall with: " ++
    Ansi.yellow ++ "pip install sympy" ++ Ansi.reset

/-- Whether a run may go on, and the lines that are printed when a part is missing. -/
def checkParts (complete strict : Bool) : Bool × List String :=
  if complete then (true, []) else (!strict, [missingPart])

def traceLine (text : String) : String := "[debug] " ++ text

def tableNotice (elapsed : String) : String :=
  traceLine s!"prime table: {PrimeTable.full.entries.size} primes <= {rootBound} built in {elapsed} ms"

/-- The line on which a fault of the user's is told. Colours stay only on a terminal that takes them. -/
def userLine (context : Context) (terminal : Bool) (message : String) : String :=
  let marked :=
    if message.startsWith "Invalid input:" || message.startsWith "Error:" then message
    else Ansi.red ++ "Error:" ++ Ansi.reset ++ " " ++ message
  (if context.color && terminal then marked else Ansi.strip marked) ++ "\n"

def unexpectedLines (fault : Fault) : String :=
  s!"Unexpected error: {fault.kind.name}: {fault.message}\nRun with --debug for a full traceback.\n"

def fail (call : Call) (stage : Stage) (fault : Fault) : Outcome :=
  if fault.isUserError then
    ⟨stage.complain (userLine stage.context call.stderrTerminal fault.message), .exit 2⟩
  else if stage.context.debug then ⟨stage, .raised fault⟩
  else ⟨stage.complain (unexpectedLines fault), .exit 1⟩

def abort (stage : Stage) : Outcome := ⟨stage.complain "Aborted by user.\n", .exit 130⟩

def conclude (call : Call) (stage : Stage) : Except Fault Nat → Outcome
  | .ok code => ⟨stage, .exit code⟩
  | .error fault => fail call stage fault

def follow (call : Call) (stage : Stage) (steps : Steps Nat) : Outcome :=
  match call.brokenOff? steps.actions with
  | some done => abort (Action.carryOutAll call stage done)
  | none => conclude call (Action.carryOutAll call stage steps.actions) steps.result

def loadSettings (environment : Environment) (tree : FileTree) :
    Option (CommandLine.Given String) → Except Fault Settings
  | none => Settings.load environment tree none
  | some (.value text) => Settings.load environment tree (some text)
  | some .nothing =>
    .error (.unsupportedKind "expected str, bytes or os.PathLike object, not list")

/-- The context in which a request runs: its settings in force, with traces turned on and colours
turned off where the request says so. -/
def contextOf (context : Context) (settings : Settings) (request : CommandLine.Request) : Context :=
  let applied := context.adopt settings.data (.text settings.name)
  { applied with
    debug := applied.debug || request.debug
    color := applied.color && !request.noColor }

def outputText (request : CommandLine.Request) : Option String :=
  match request.output with
  | some (.value text) => if text.isEmpty then none else some text
  | _ => none

/-- Writes a result, without its colours, to where it is wanted, and makes the directories on
the way. Gives the path. -/
def save (environment : Environment) (tree : FileTree) (target text : String) : Steps Path := do
  let path ← environment.outputPath target
  let current := environment.current.segments
  let (made, ready) := tree.ensureDirectory current path.parent
  .act (made.map .makeDirectory)
  ready
  let place ← (tree.withDirectories made).filePlace current path
  .act [.emptyFile place, .fillFile place (Ansi.strip text ++ "\n").toUTF8]
  return path

def traces (texts : List String) : List Action := texts.flatMap fun text => Action.line .trace (traceLine text)

def opening (source : Option Path) : List Action :=
  let name := (source.map Path.text).getD "defaults"
  traces [s!"{CommandLine.programName} {CommandLine.version}, settings: {name}"]

def told (result : Result) : List Action := traces result.traces ++ Action.line .print result.text

/-- Runs a command in a context, on files that nothing has changed yet. -/
def perform (environment : Environment) (call : Call) (tree : FileTree) (context : Context)
    (source : Option Path) (request : CommandLine.Request) : Steps Nat := do
  let (present, notices) := checkParts call.complete true
  .act (notices.flatMap (Action.line .print))
  if !present then return 1
  .act (opening source)
  let result ← request.command.execute (environment.draw call.stdoutTerminal) context
  .act (told result)
  match outputText request with
  | none => return result.code
  | some target =>
    let path ← save environment tree target result.text
    .act (traces [s!"wrote {path.text}"])
    return result.code

/-- A run from its command line on. A request whose settings do not load leaves the context as
it was, and is told in its colours. -/
def run (environment : Environment) (call : Call) (tree : FileTree) (context : Context) : Outcome :=
  let start : Stage := ⟨⟨"", ""⟩, tree, context⟩
  if call.interruption = some .early then abort start
  else
    match CommandLine.request call.argv with
    | .error (.shown text) => follow call { start with transcript := ⟨text, ""⟩ } (pure 0)
    | .error (.refused text) => follow call { start with transcript := ⟨"", text⟩ } (pure 2)
    | .ok request =>
      match loadSettings environment tree request.config with
      | .error fault => fail call start fault
      | .ok settings =>
        let context := contextOf context settings request
        follow call { start with context } (perform environment call tree context settings.source request)

def touched (environment : Environment) (argv : List String) : List Location :=
  match CommandLine.request argv with
  | .error _ => []
  | .ok request =>
    let settings := match request.config with
      | none => environment.settingsPath.toOption
      | some (.value text) => (environment.expandPath (Path.ofText text)).toOption
      | some .nothing => none
    let output := (outputText request).bind fun text => (environment.outputPath text).toOption
    (settings.toList ++ output.toList).flatMap fun path => environment.current.stops path

end Session
end Surd
