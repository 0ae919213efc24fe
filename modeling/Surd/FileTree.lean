import Surd.Path
import Surd.Fault

/-! A tree of files and directories as a value. A walk follows a path through it and tells why
it cannot go on; reading, writing and making directories are walks with a last step. -/

namespace Surd

/-- Where something stands: the names from the root on, without points. -/
abbrev Location := List String

/-- What stands at a location. A sink is a device that takes all that is written to it and gives
nothing back. -/
inductive FileEntry where
  | directory
  | file (content : ByteArray)
  | sink
  deriving Inhabited

instance : DecidableEq FileEntry
  | .directory, .directory => .isTrue rfl
  | .sink, .sink => .isTrue rfl
  | .file first, .file second =>
    match ByteArray.instDecidableEq first second with
    | .isTrue same => .isTrue (congrArg FileEntry.file same)
    | .isFalse different => .isFalse fun equal => different (FileEntry.file.inj equal)
  | .directory, .file _ | .directory, .sink | .file _, .directory | .file _, .sink | .sink, .directory
  | .sink, .file _ => .isFalse nofun

/-- The entries of a tree. The root is a directory without being listed. -/
structure FileTree where
  entries : List (Location × FileEntry)
  deriving Inhabited

inductive Obstacle where
  | missing
  | throughFile
  | nameTooLong
  | zeroInName
  deriving DecidableEq, Repr

def Obstacle.fault (path : Path) : Obstacle → Fault
  | .missing => .missingFile path.text
  | .throughFile => .notDirectory path.text
  | .nameTooLong => .nameTooLong path.text
  | .zeroInName => .zeroInPath

namespace FileTree

def longestName : Nat := 255

def longestPath : Nat := 4095

def entry? (tree : FileTree) (location : Location) : Option FileEntry :=
  if location = [] then some .directory else tree.entries.lookup location

def put (tree : FileTree) (location : Location) (entry : FileEntry) : FileTree :=
  ⟨(location, entry) :: tree.entries.filter fun other => other.1 != location⟩

/-- Puts a file's content at a location, unless a sink swallows it. -/
def write (tree : FileTree) (location : Location) (content : ByteArray) : FileTree :=
  match tree.entry? location with
  | some .sink => tree
  | _ => tree.put location (.file content)

/-- Follows names from a location. Every location that is left has to be a directory; what
stands at the last one is not looked at. -/
def walk (tree : FileTree) : Location → List String → Except Obstacle Location
  | location, [] => .ok location
  | location, name :: rest =>
    match tree.entry? location with
    | some .directory =>
      if longestName < name.utf8ByteSize then .error .nameTooLong
      else walk tree (if name = ".." then location.dropLast else location ++ [name]) rest
    | some _ => .error .throughFile
    | none => .error .missing

def locate (tree : FileTree) (current : Location) (path : Path) : Except Obstacle Location :=
  if path.segments.any fun name => name.toList.contains (Char.ofNat 0) then .error .zeroInName
  else if longestPath < path.text.utf8ByteSize then .error .nameTooLong
  else tree.walk (if path.isAbsolute then [] else current) path.segments

def contains (tree : FileTree) (current : Location) (path : Path) : Except Fault Bool :=
  match tree.locate current path with
  | .ok location => .ok (tree.entry? location).isSome
  | .error .nameTooLong => .error (.nameTooLong path.text)
  | .error _ => .ok false

def read (tree : FileTree) (current : Location) (path : Path) : Except Fault ByteArray :=
  match tree.locate current path with
  | .error obstacle => .error (obstacle.fault path)
  | .ok location =>
    match tree.entry? location with
    | some (.file content) => .ok content
    | some .sink => .ok .empty
    | some .directory => .error (.isDirectory path.text)
    | none => .error (.missingFile path.text)

def leadsTo (tree : FileTree) (current : Location) (path : Path) (entry : FileEntry) : Bool :=
  match tree.locate current path with
  | .ok location => tree.entry? location == some entry
  | .error _ => false

inductive Making where
  | made (location : Location)
  | exists
  | blocked (obstacle : Obstacle)

/-- Where the directory that a path names is to be made. A walk ends only where the location before the
last one is a directory, so there is a place for it. -/
def makeDirectory (tree : FileTree) (current : Location) (path : Path) : Making :=
  match tree.locate current path with
  | .error obstacle => .blocked obstacle
  | .ok location =>
    match tree.entry? location with
    | some _ => .exists
    | none => .made location

def withDirectories (tree : FileTree) (made : List Location) : FileTree :=
  made.foldl (fun tree location => tree.put location .directory) tree

/-- The directory to be made, if it is not there. -/
def ensureOne (tree : FileTree) (current : Location) (path : Path) : List Location × Except Fault Unit :=
  match tree.makeDirectory current path with
  | .made location => ([location], .ok ())
  | .exists => ([], if tree.leadsTo current path .directory then .ok () else .error (.fileExists path.text))
  | .blocked obstacle => ([], .error (obstacle.fault path))

/-- The directories to be made for a path and on the way to it, as many as so many segments may need.
Those before one that cannot be made are made all the same. -/
def ensureWithin (current : Location) : Nat → FileTree → Path → List Location × Except Fault Unit
  | 0, tree, path => tree.ensureOne current path
  | fuel + 1, tree, path =>
    match tree.makeDirectory current path with
    | .blocked .missing =>
      match ensureWithin current fuel tree path.parent with
      | (made, .ok ()) =>
        let last := (tree.withDirectories made).ensureOne current path
        (made ++ last.1, last.2)
      | failed => failed
    | _ => tree.ensureOne current path

def ensureDirectory (tree : FileTree) (current : Location) (path : Path) : List Location × Except Fault Unit :=
  ensureWithin current path.segments.length tree path

def filePlace (tree : FileTree) (current : Location) (path : Path) : Except Fault Location :=
  match tree.locate current path with
  | .error obstacle => .error (obstacle.fault path)
  | .ok location =>
    match tree.entry? location with
    | some .directory => .error (.isDirectory path.text)
    | _ => .ok location

def changes (before after : FileTree) : List (Location × FileEntry) :=
  after.entries.filter fun (location, entry) => before.entry? location != some entry

def plant (tree : FileTree) (location : Location) (entry : FileEntry) : FileTree :=
  let ancestors := (List.range location.length).map location.take
  let grown := ancestors.foldl (fun tree ancestor =>
    if (tree.entry? ancestor).isSome then tree else tree.put ancestor .directory) tree
  grown.put location entry

end FileTree
end Surd
