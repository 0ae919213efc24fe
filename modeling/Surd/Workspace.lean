import Surd.Path
import Surd.SquareRoot

/-! The surroundings of a run, and the directory where settings and results are kept. -/

namespace Surd

/-- What a run is told by its surroundings: where it stands, the user's home, the homes of other
users, and the place of the workspace if one is given. Pictures of roots come from a library that
is not modelled; it may look whether they go to a terminal. -/
structure Environment where
  current : Path
  home : String
  users : List (String × String)
  workspace : Option String
  draw : Bool → SquareRoot → String

namespace Environment

def usersOf (database : String) : List (String × String) :=
  (Text.cutAt '\n' database.toList).filterMap fun line =>
    match (Text.cutAt ':' line).map String.ofList with
    | name :: _ :: _ :: _ :: _ :: home :: _ => some (name, home)
    | _ => none

def trimSlashes (home : List Char) : List Char := (home.reverse.dropWhile (· == '/')).reverse

def homeOf? (environment : Environment) (user : String) : Option String :=
  if user.isEmpty then some environment.home else environment.users.lookup user

/-- A text whose tilde, and the name behind it, stand for a home directory. It stays as it is
when the user is not known. -/
def expand (environment : Environment) (text : String) : Except Fault String :=
  match text.toList with
  | [] => .ok text
  | c :: rest =>
    if c = '~' then
      let user := rest.takeWhile (· != '/')
      if user.contains (Char.ofNat 0) then .error .zeroInPath
      else
        match environment.homeOf? (String.ofList user) with
        | none => .ok text
        | some home =>
          let whole := trimSlashes home.toList ++ rest.dropWhile (· != '/')
          .ok (if whole.isEmpty then "/" else String.ofList whole)
    else .ok text

/-- A relative path whose first segment starts with a tilde, seen from the home directory that
it stands for. -/
def expandPath (environment : Environment) (path : Path) : Except Fault Path :=
  match path.root, path.segments with
  | .relative, first :: rest =>
    if first.toList.head? = some '~' then do
      let home ← environment.expand first
      if home.toList.head? = some '~' then .error .noHome
      else .ok ((Path.ofText home).join ⟨.relative, rest⟩)
    else .ok path
  | _, _ => .ok path

/-- The directory of the workspace: the given one, or a folder among the user's documents. -/
def workspaceDirectory (environment : Environment) : Except Fault Path :=
  match environment.workspace with
  | some text =>
    if text.isEmpty then documents else (environment.expandPath (Path.ofText text)).map resolved
  | none => documents
where
  /-- The absolute path. -/
  resolved (path : Path) : Path := environment.current.resolve path
  /-- The folder among the documents. -/
  documents : Except Fault Path :=
    (environment.expandPath (Path.ofText "~")).map fun home =>
      resolved ((home.child "Documents").child "ExactSqrt")

def settingsPath (environment : Environment) : Except Fault Path :=
  environment.workspaceDirectory.map fun directory => directory.child "settings.toml"

/-- Where a result goes: an absolute path as it is, any other into the workspace. -/
def outputPath (environment : Environment) (text : String) : Except Fault Path :=
  if text.isEmpty then .error .emptyOutputPath
  else do
    let path := Path.ofText (← environment.expand text)
    if path.isAbsolute then .ok path
    else environment.workspaceDirectory.map fun directory => directory.join path

end Environment
end Surd
