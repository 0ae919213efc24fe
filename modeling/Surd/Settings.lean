import Surd.FileTree
import Surd.Text.Utf8
import Surd.Toml.Reader
import Surd.Value.Writing
import Surd.Workspace

/-! Settings: the entries of a file laid over the defaults, and checked. -/

namespace Surd

/-- Settings as they are in force: sections by name, the name of the profile, and the file
that they come from, if any. -/
structure Settings where
  data : List (String × Value)
  name : String
  source : Option Path

namespace Settings

def defaultBehaviour : List (String × Value) :=
  [("DEBUG", .bool false), ("MAX_PRIMES_BOUND", .int 10000000)]

def defaultOutput : List (String × Value) :=
  [("COLOR", .bool true), ("PRETTY", .bool false), ("PRIMES_PER_ROW", .int 10)]

def defaults : List (String × Value) :=
  [("BEHAVIOUR", .table defaultBehaviour), ("OUTPUT", .table defaultOutput)]

def standard : Settings := ⟨defaults, "default", none⟩

def put (name : String) (value : Value) : List (String × Value) → List (String × Value)
  | [] => [(name, value)]
  | (other, old) :: rest =>
    if other = name then (name, value) :: rest else (other, old) :: put name value rest

def putAll (base entries : List (String × Value)) : List (String × Value) :=
  entries.foldl (fun base entry => put entry.1 entry.2 base) base

def entriesOf (name : String) (data : List (String × Value)) : List (String × Value) :=
  match Value.entry? name data with
  | some (.table entries) => entries
  | _ => []

/-- Lays the sections of a file over what there is, in the file's order. A section that has
defaults has to be a table, and keeps the entries that the file leaves out. -/
def overlay (file : String) (data : List (String × Value)) :
    List (String × Value) → Except Fault (List (String × Value))
  | [] => .ok data
  | (name, value) :: rest =>
    if (Value.entry? name defaults).isSome then
      match value with
      | .table entries => overlay file (put name (.table (putAll (entriesOf name data) entries)) data) rest
      | _ => .error (.sectionNotTable file name)
    else overlay file (put name value data) rest

def setting (data : List (String × Value)) (name key : String) : Value :=
  (Value.entry? key (entriesOf name data)).getD .null

def dotted (name key : String) : String := name ++ "." ++ key

/-- A setting has to be a positive integer. Any other value is told as it is written, if it can be. -/
def checkPositive (file : String) (data : List (String × Value)) (name key : String) : Except Fault Unit :=
  match setting data name key with
  | .int n => if 1 ≤ n then .ok () else .error (.settingNotPositive file (dotted name key) (.int n))
  | other => .error ((other.unwritten? Value.writtenRoom).getD (.settingNotPositive file (dotted name key) other))

def checkSwitch (file : String) (data : List (String × Value)) (name key : String) : Except Fault Unit :=
  match setting data name key with
  | .bool _ => .ok ()
  | _ => .error (.settingNotSwitch file (dotted name key))

/-- Checks the settings that have defaults, the numbers first. -/
def validate (file : String) (data : List (String × Value)) : Except Fault Unit := do
  checkPositive file data "OUTPUT" "PRIMES_PER_ROW"
  checkPositive file data "BEHAVIOUR" "MAX_PRIMES_BOUND"
  checkSwitch file data "BEHAVIOUR" "DEBUG"
  checkSwitch file data "OUTPUT" "COLOR"
  checkSwitch file data "OUTPUT" "PRETTY"

def ofTable (file : String) (raw : List (String × Value)) : Except Fault (List (String × Value)) := do
  let data ← overlay file defaults raw
  validate file data
  .ok data

def parse (file : String) (content : ByteArray) : Except Fault (List (String × Value)) := do
  let text ← Text.decode content
  match Toml.read text with
  | .ok raw => .ok raw
  | .error .malformed => .error (.malformedSettings file)
  | .error (.tooManyDigits count) => .error (.tooManyDigits count)
  | .error .tooDeep => .error .nestedTooDeep

def ofFile (tree : FileTree) (current : Location) (source : Path) : Except Fault Settings := do
  let content ← tree.read current source
  let raw ← parse source.name content
  let data ← ofTable source.name raw
  .ok ⟨data, source.stem, some source⟩

/-- The settings in the file that was named, which has to be there, or in the workspace's
file, in whose absence the defaults hold. -/
def load (environment : Environment) (tree : FileTree) (named : Option String) : Except Fault Settings :=
  let current := environment.current.segments
  match named with
  | none => do
    let source ← environment.settingsPath
    if ← tree.contains current source then ofFile tree current source else .ok standard
  | some text => do
    let source ← environment.expandPath (Path.ofText text)
    if ← tree.contains current source then ofFile tree current source
    else .error (.missingSettings source.text)

end Settings
end Surd
