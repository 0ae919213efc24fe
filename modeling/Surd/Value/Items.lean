import Surd.Fault

/-! Values as rows of other values, and as rows of names and values. -/

namespace Surd.Value

def toItems : Value → Except Fault (List Value)
  | .list items => .ok items
  | .text s => .ok (s.toList.map fun c => .text c.toString)
  | .table entries => .ok (entries.map fun entry => .text entry.1)
  | other => .error (.unsupportedKind s!"{other.kind} has no items")

/-- The name and the value that the item at a place is made of. Only a text is a name. -/
def toEntry (place : Nat) (item : Value) : Except Fault (String × Value) := do
  match ← item.toItems with
  | [.text name, value] => .ok (name, value)
  | [name, _] => .error (.unsupportedKind s!"{name.kind} is no name")
  | parts => .error (.notPair place parts.length)

def toEntriesFrom : Nat → List Value → Except Fault (List (String × Value))
  | _, [] => .ok []
  | place, item :: rest => do
    let entry ← item.toEntry place
    let others ← toEntriesFrom (place + 1) rest
    .ok (entry :: others)

def toEntries : Value → Except Fault (List (String × Value))
  | .table entries => .ok entries
  | other => do toEntriesFrom 0 (← other.toItems)

end Surd.Value
