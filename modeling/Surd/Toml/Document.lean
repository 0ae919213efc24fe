import Surd.Toml.Lexeme
import Surd.Value

/-! The tables of a TOML document while it is read. Each table remembers how it came about,
which decides what may still be added to it. -/

namespace Surd.Toml

/-- How a table came about: on the way to a header or an inline key, by a header of its own, or
by a key with points in a numbered section. -/
inductive Origin where
  | implicit
  | header
  | dotted (number : Nat)
  deriving DecidableEq, Repr

/-- A place of a document: a finished value, a table, or an array of tables that headers
append to, with its last table apart from the earlier ones, the latest first. -/
inductive Node where
  | leaf (value : Value)
  | table (origin : Origin) (entries : List (String × Node))
  | tables (last : List (String × Node)) (earlier : List (List (String × Node)))

abbrev Entries := List (String × Node)

mutual

def Node.toValue : Node → Value
  | .leaf value => value
  | .table _ entries => .table (entriesToValue entries)
  | .tables last earlier => .list (earlierToValue earlier [.table (entriesToValue last)])

def entriesToValue : List (String × Node) → List (String × Value)
  | [] => []
  | (name, node) :: rest => (name, node.toValue) :: entriesToValue rest

def earlierToValue : List (List (String × Node)) → List Value → List Value
  | [], later => later
  | entries :: rest, later => earlierToValue rest (.table (entriesToValue entries) :: later)

end

def alter (name : String) (change : Option Node → Except Trouble Node) :
    Entries → Except Trouble Entries
  | [] => (change none).map fun node => [(name, node)]
  | (other, node) :: rest =>
    if other = name then (change (some node)).map fun node => (other, node) :: rest
    else (alter name change rest).map fun rest => (other, node) :: rest

/-- Goes into the table of a place, into the last one of an array, or into a new one. -/
def enter (next : Entries → Except Trouble Entries) : Option Node → Except Trouble Node
  | none => (next []).map (.table .implicit)
  | some (.table origin entries) => (next entries).map (.table origin)
  | some (.tables last earlier) => (next last).map fun last => .tables last earlier
  | some (.leaf _) => .error .malformed

/-- Opens the table that a header names. It must be new, or stand there only implicitly. -/
def openTable : List String → Entries → Except Trouble Entries
  | [], entries => .ok entries
  | [name], entries => alter name (fun
      | none => .ok (.table .header [])
      | some (.table .implicit inner) => .ok (.table .header inner)
      | some _ => .error .malformed) entries
  | name :: rest, entries => alter name (enter (openTable rest)) entries

def appendTable : List String → Entries → Except Trouble Entries
  | [], entries => .ok entries
  | [name], entries => alter name (fun
      | none => .ok (.tables [] [])
      | some (.tables last earlier) => .ok (.tables [] (last :: earlier))
      | some _ => .error .malformed) entries
  | name :: rest, entries => alter name (enter (appendTable rest)) entries

/-- Goes into the table that the front of a key with points names. Such a table may not have a
header, nor come from another section. -/
def enterDotted (number : Nat) (next : Entries → Except Trouble Entries) :
    Option Node → Except Trouble Node
  | none => (next []).map (.table (.dotted number))
  | some (.table .implicit entries) => (next entries).map (.table (.dotted number))
  | some (.table (.dotted other) entries) =>
    if other = number then (next entries).map (.table (.dotted number)) else .error .malformed
  | some _ => .error .malformed

def putDotted (number : Nat) (value : Value) : List String → Entries → Except Trouble Entries
  | [], entries => .ok entries
  | [name], entries => alter name (fun
      | none => .ok (.leaf value)
      | some _ => .error .malformed) entries
  | name :: rest, entries => alter name (enterDotted number (putDotted number value rest)) entries

def putUnder (number : Nat) (keys : List String) (value : Value) :
    List String → Entries → Except Trouble Entries
  | [], entries => putDotted number value keys entries
  | name :: rest, entries => alter name (enter (putUnder number keys value rest)) entries

def putInline (value : Value) : List String → Entries → Except Trouble Entries
  | [], entries => .ok entries
  | [name], entries => alter name (fun
      | none => .ok (.leaf value)
      | some _ => .error .malformed) entries
  | name :: rest, entries => alter name (enter (putInline value rest)) entries

end Surd.Toml
