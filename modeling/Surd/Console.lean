import Surd.Text.Ansi

/-! How texts reach a stream while a command runs: with their colour codes, and plain letters again
after each write, or without any code. -/

namespace Surd

inductive Tint where
  | plain
  | colored
  deriving DecidableEq, Repr

def Tint.of (terminal color : Bool) : Tint := if terminal && color then .colored else .plain

def Tint.write (tint : Tint) (text : String) : String :=
  match tint with
  | .plain => Ansi.strip text
  | .colored => text ++ Ansi.reset

end Surd
