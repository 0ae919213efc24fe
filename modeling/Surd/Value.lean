import Surd.Binary64
import Surd.Moment

/-! Values whose kind is known only when they are looked at: what settings hold,
and what the calculator is given. -/

namespace Surd

/-- A value of settings or of the calculator. The entries of a table stand in the order
in which they were written. -/
inductive Value where
  | null
  | bool (b : Bool)
  | int (n : Int)
  | fraction (r : Rat)
  | float (x : Binary64)
  | text (s : String)
  | moment (m : Moment)
  | list (items : List Value)
  | table (entries : List (String × Value))
  deriving Inhabited

namespace Value

def kind : Value → String
  | .null => "NoneType"
  | .bool _ => "bool"
  | .int _ => "int"
  | .fraction _ => "Fraction"
  | .float _ => "float"
  | .text _ => "str"
  | .moment m => m.kind
  | .list _ => "list"
  | .table _ => "dict"

def truth : Value → Bool
  | .null => false
  | .bool b => b
  | .int n => n != 0
  | .fraction r => r != 0
  | .float x => !x.isZero
  | .text s => !s.isEmpty
  | .moment _ => true
  | .list items => !items.isEmpty
  | .table entries => !entries.isEmpty

def number? : Value → Option Rat
  | .bool b => some (if b then 1 else 0)
  | .int n => some n
  | .fraction r => some r
  | .float x => x.toRat?
  | _ => none

def isNumber : Value → Bool
  | .bool _ | .int _ | .fraction _ | .float _ => true
  | _ => false

def entry? (name : String) (entries : List (String × Value)) : Option Value :=
  (entries.find? (·.1 == name)).map (·.2)

def get? (name : String) : Value → Option Value
  | .table entries => entry? name entries
  | _ => none

end Value
end Surd
