import Surd.Settings
import Surd.Text.Cut
import Surd.Value.Items

/-! The settings in force between runs, with the two switches that are read from them. -/

namespace Surd

/-- What one run leaves for the next: the profile as it was named, its settings, and whether
traces and colours are on. -/
structure Context where
  profile : Value
  settings : List (String × Value)
  debug : Bool
  color : Bool
  deriving Inhabited

namespace Context

def fresh : Context := ⟨.text "default", [], false, true⟩

def parts (key : String) : List String := (Text.cutAt '.' key.toList).map String.ofList

def descend (value : Value) : List String → Option Value
  | [] => some value
  | name :: rest =>
    match value.get? name with
    | some inner => descend inner rest
    | none => none

/-- A setting by its key. A key with points in it is followed through the tables, and any other one is the name
of a setting as it is. -/
def lookUp (settings : List (String × Value)) (key : String) (default : Value) : Value :=
  if key.isEmpty then default
  else if key.toList.contains '.' then (descend (.table settings) (parts key)).getD default
  else (Value.entry? key settings).getD default

def get (context : Context) (key : String) (default : Value) : Value :=
  lookUp context.settings key default

def getAny (context : Context) (key default : Value) : Except Fault Value :=
  if !key.truth then .ok default
  else
    match key with
    | .text key => .ok (context.get key default)
    | .list _ | .table _ => .error (.unsupportedKind s!"{key.kind} is no key")
    | _ => .ok default

/-- Puts settings in force under a profile. Both switches are then read from what is in force. -/
def adopt (context : Context) (settings : List (String × Value)) (profile : Value) : Context :=
  let taken := { context with profile, settings }
  { taken with
    debug := (taken.get "BEHAVIOUR.DEBUG" (.bool false)).truth
    color := (taken.get "OUTPUT.COLOR" (.bool true)).truth }

def apply (settings : List (String × Value)) (profile : Value) : Context := fresh.adopt settings profile

/-- Puts plain settings in force, under the profile that needs no name. Only a table is settings. -/
def applyPlain (context : Context) (settings : Value) : Context × Option Fault :=
  match settings with
  | .table entries => (context.adopt entries (.text "default"), none)
  | other => (context, some (.missingAttribute s!"{other.kind} has no name"))

/-- Puts named settings in force. What are no settings leaves only its name. -/
def applyNamed (context : Context) (settings profile : Value) : Context × Option Fault :=
  match settings.toEntries with
  | .ok entries => (context.adopt (Settings.putAll [] entries) profile, none)
  | .error fault => ({ context with profile }, some fault)

end Context
end Surd
