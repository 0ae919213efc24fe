import Surd.Fault
import Surd.Value.Text

/-! What keeps a value from being written: a number of too many digits, or too many values inside each
other. -/

namespace Surd.Value

/-- How many values can stand inside each other where settings are written, the innermost one counted. -/
def writtenRoom : Nat := 990

mutual

/-- The first thing on the way through a value that keeps it from being written in the room that is left. -/
def unwritten? : Nat → Value → Option Fault
  | 0, _ => some .tooDeepToWrite
  | _ + 1, .int n => if hasWritableLength n then none else some .tooLongToWrite
  | _ + 1, .fraction r => if hasWritableLength r.num && hasWritableLength r.den then none else some .tooLongToWrite
  | room + 1, .list items => unwrittenItems? room items
  | room + 1, .table entries => unwrittenEntries? room entries
  | _ + 1, _ => none

def unwrittenItems? : Nat → List Value → Option Fault
  | _, [] => none
  | room, item :: rest => (item.unwritten? room).or (unwrittenItems? room rest)

def unwrittenEntries? : Nat → List (String × Value) → Option Fault
  | _, [] => none
  | room, (_, value) :: rest => (value.unwritten? room).or (unwrittenEntries? room rest)

end

end Surd.Value
