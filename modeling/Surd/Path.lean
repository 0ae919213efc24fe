import Surd.Text.Cut

/-! Paths of files in normal form: segments without empty ones and points, behind no
slash, one, or exactly two. Two points are kept, since only a walk knows where they lead. -/

namespace Surd

/-- What a path starts at: where the walk stands, or the root, written with one slash or two. -/
inductive PathRoot where
  | relative
  | single
  | double
  deriving DecidableEq, Repr, Inhabited

structure Path where
  root : PathRoot
  segments : List String
  deriving DecidableEq, Repr, Inhabited

namespace Path

def isSegment (piece : List Char) : Bool := !(piece.isEmpty || piece == ['.'])

def rootOf (text : List Char) : PathRoot :=
  match (text.takeWhile (· == '/')).length with
  | 0 => .relative
  | 2 => .double
  | _ => .single

def ofText (text : String) : Path :=
  ⟨rootOf text.toList, ((Text.cutAt '/' text.toList).filter isSegment).map String.ofList⟩

def rootText : PathRoot → String
  | .relative => ""
  | .single => "/"
  | .double => "//"

/-- The text of a path; the relative path without segments is a point. -/
def text (path : Path) : String :=
  if path.root = .relative ∧ path.segments = [] then "."
  else rootText path.root ++ "/".intercalate path.segments

def isAbsolute (path : Path) : Bool := path.root != .relative

def join (base path : Path) : Path :=
  if path.isAbsolute then path else ⟨base.root, base.segments ++ path.segments⟩

def child (path : Path) (name : String) : Path := ⟨path.root, path.segments ++ [name]⟩

def parent (path : Path) : Path := ⟨path.root, path.segments.dropLast⟩

def name (path : Path) : String := path.segments.getLast?.getD ""

/-- A name without its last extension. A point at either end starts no extension. -/
def stemOf (name : List Char) : List Char :=
  let extension := (name.reverse.takeWhile (· != '.')).length
  let stem := name.take (name.length - extension - 1)
  if extension = 0 ∨ stem.isEmpty then name else stem

def stem (path : Path) : String := String.ofList (stemOf path.name.toList)

/-- Segments with every pair of points taken back, at the root to the root itself. -/
def collapse (segments : List String) : List String :=
  segments.foldl (fun walked name => if name = ".." then walked.dropLast else walked ++ [name]) []

def resolve (current path : Path) : Path := ⟨.single, collapse (current.join path).segments⟩

def stops (current path : Path) : List (List String) :=
  let names := (current.join path).segments
  (List.range (names.length + 1)).map fun count => collapse (names.take count)

end Path
end Surd
