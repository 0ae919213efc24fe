import Surd.Console
import Surd.Context
import Surd.FileTree

/-! What a run does to the world, one action after the other. The user may break it off between any
two actions, and while a file is filled. -/

namespace Surd

/-- When the user breaks a run off: before its settings are in force, or after so many of the actions
that follow. The action that comes next is cut, if it can be, after so many bytes. -/
inductive Interruption where
  | early
  | late (actions bytes : Nat)
  deriving DecidableEq, Repr

/-- One run: the command line, which streams are terminals, whether the parts that the program
builds on are there, and whether the user breaks it off. -/
structure Call where
  argv : List String
  stdoutTerminal : Bool
  stderrTerminal : Bool
  complete : Bool
  interruption : Option Interruption
  deriving Repr

structure Transcript where
  stdout : String
  stderr : String
  deriving DecidableEq, Repr

structure Stage where
  transcript : Transcript
  tree : FileTree
  context : Context

def Stage.complain (stage : Stage) (text : String) : Stage :=
  { stage with transcript := ⟨stage.transcript.stdout, stage.transcript.stderr ++ text⟩ }

/-- A write to one of the streams, or a change of the files. A file that is opened to be written is
emptied before it is filled. -/
inductive Action where
  | print (text : String)
  | trace (text : String)
  | makeDirectory (location : Location)
  | emptyFile (location : Location)
  | fillFile (location : Location) (content : ByteArray)

namespace Action

/-- A printed line is two writes: its text and the line end. -/
def line (write : String → Action) (text : String) : List Action := [write text, write "\n"]

def onTree (tree : FileTree) : Action → FileTree
  | .print _ | .trace _ => tree
  | .makeDirectory location => tree.put location .directory
  | .emptyFile location => tree.write location .empty
  | .fillFile location content => tree.write location content

def carryOut (call : Call) (stage : Stage) : Action → Stage
  | .print text =>
    let shown := (Tint.of call.stdoutTerminal stage.context.color).write text
    { stage with transcript := ⟨stage.transcript.stdout ++ shown, stage.transcript.stderr⟩ }
  | .trace text =>
    let shown := (Tint.of call.stderrTerminal stage.context.color).write text
    if stage.context.debug then stage.complain shown else stage
  | other => { stage with tree := other.onTree stage.tree }

def carryOutAll (call : Call) (stage : Stage) (actions : List Action) : Stage :=
  actions.foldl (carryOut call) stage

/-- What is done of an action that is cut after so many bytes. -/
def part (bytes : Nat) : Action → List Action
  | .fillFile location content => [.fillFile location (content.extract 0 bytes)]
  | _ => []

/-- What is done of actions that are broken off after so many, unless they have ended before. -/
def brokenOff? (bytes : Nat) : Nat → List Action → Option (List Action)
  | 0, [] => some []
  | 0, action :: _ => some (action.part bytes)
  | count + 1, action :: rest => (brokenOff? bytes count rest).map (action :: ·)
  | _ + 1, [] => none

end Action

def Call.brokenOff? (call : Call) (actions : List Action) : Option (List Action) :=
  match call.interruption with
  | some (.late count bytes) => Action.brokenOff? bytes count actions
  | _ => none

/-- Actions one after the other, and how they end: with an answer or with a fault. -/
structure Steps (α : Type) where
  actions : List Action
  result : Except Fault α

namespace Steps
variable {α β : Type}

def act (actions : List Action) : Steps Unit := ⟨actions, .ok ()⟩

protected def bind (first : Steps α) (next : α → Steps β) : Steps β :=
  match first.result with
  | .ok a => ⟨first.actions ++ (next a).actions, (next a).result⟩
  | .error fault => ⟨first.actions, .error fault⟩

instance : Monad Steps where
  pure a := ⟨[], .ok a⟩
  bind := Steps.bind

instance : MonadLift (Except Fault) Steps where
  monadLift result := ⟨[], result⟩

end Steps
end Surd
