import Surd.Fault

/-! Selecting from a list by position, counted from either end. -/

namespace Surd

/-- The item at a position; negative positions count from the end. -/
def atPosition? {α : Type} (items : List α) (position : Int) : Option α :=
  let place := if position < 0 then position + items.length else position
  if 0 ≤ place then items[place.toNat]? else none

structure Slice where
  start : Option Int
  stop : Option Int
  step : Option Int
  deriving DecidableEq, Repr

namespace Slice

/-- A bound moved into a range; negative ones count from the end first. -/
def clamped (length least largest bound : Int) : Int :=
  let place := if bound < 0 then bound + length else bound
  if place < least then least else if largest < place then largest else place

def count (start stop step : Int) : Nat :=
  if 0 < step then ((stop - start + step - 1) / step).toNat
  else ((start - stop - step - 1) / (-step)).toNat

def select {α : Type} (slice : Slice) (items : List α) : Except Fault (List α) :=
  let step := slice.step.getD 1
  if step = 0 then .error .zeroSliceStep
  else
    let length : Int := items.length
    let (least, largest) := if 0 < step then (0, length) else (-1, length - 1)
    let start := (slice.start.map (clamped length least largest)).getD (if 0 < step then least else largest)
    let stop := (slice.stop.map (clamped length least largest)).getD (if 0 < step then largest else least)
    let row := items.toArray
    .ok ((List.range (count start stop step)).filterMap fun (i : Nat) =>
      row[(start + (i : Int) * step).toNat]?)

end Slice
end Surd
