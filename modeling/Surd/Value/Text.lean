import Surd.Bounds
import Surd.Value
import Surd.Text.Quoted
import Surd.Binary64.Shortest
import Surd.SquareRoot.Text

/-! The texts of values: as a value is written, with texts between quotes, and as it is shown
alone, where a text stands for itself. -/

namespace Surd.Value

mutual

/-- A value as it is written: texts between quotes, collections between brackets. -/
def written : Value → String
  | .null => "None"
  | .bool b => if b then "True" else "False"
  | .int n => toString n
  | .fraction r => "Fraction(" ++ toString r.num ++ ", " ++ toString r.den ++ ")"
  | .float x => x.text
  | .text s => Text.quoted s
  | .moment m => m.text
  | .list items => "[" ++ ", ".intercalate (writtenItems items) ++ "]"
  | .table entries => "\x7b" ++ ", ".intercalate (writtenEntries entries) ++ "\x7d"

def writtenItems : List Value → List String
  | [] => []
  | item :: rest => item.written :: writtenItems rest

def writtenEntries : List (String × Value) → List String
  | [] => []
  | (name, value) :: rest => (Text.quoted name ++ ": " ++ value.written) :: writtenEntries rest

end

def shown : Value → String
  | .text s => s
  | .fraction r => rationalText r
  | other => other.written

mutual

def isWritable : Value → Bool
  | .int n => hasWritableLength n
  | .fraction r => hasWritableLength r.num && hasWritableLength r.den
  | .list items => areWritable items
  | .table entries => entriesWritable entries
  | _ => true

def areWritable : List Value → Bool
  | [] => true
  | item :: rest => item.isWritable && areWritable rest

def entriesWritable : List (String × Value) → Bool
  | [] => true
  | (_, value) :: rest => value.isWritable && entriesWritable rest

end

end Surd.Value
