import Surd.Proofs.WorkspacePaths
import Surd.Value.Writing

/-! When a value can be written. Without numbers of too many digits only the depth counts to which its
values stand inside each other. -/

namespace Surd.Value

mutual

/-- How many values stand inside each other, the value itself counted. -/
def depth : Value → Nat
  | .list items => itemsDepth items + 1
  | .table entries => entriesDepth entries + 1
  | _ => 1

def itemsDepth : List Value → Nat
  | [] => 0
  | item :: rest => max item.depth (itemsDepth rest)

def entriesDepth : List (String × Value) → Nat
  | [] => 0
  | (_, value) :: rest => max value.depth (entriesDepth rest)

end

private theorem depth_pos (value : Value) : 0 < value.depth := by
  cases value with
  | _ => simp only [depth, Nat.zero_lt_succ]

/-- What writing says of things that reach a depth. -/
def tooDeep? (depth room : Nat) : Option Fault := if depth ≤ room then none else some .tooDeepToWrite

theorem tooDeep?_max (first second room : Nat) :
    tooDeep? (max first second) room = (tooDeep? first room).or (tooDeep? second room) := by
  unfold tooDeep?
  by_cases before : first ≤ room
  · rw [if_pos before, Option.none_or]
    simp only [Nat.max_le, before, true_and]
  · rw [if_neg before, Option.some_or, if_neg]
    omega

private theorem tooDeep?_succ (depth room : Nat) : tooDeep? (depth + 1) (room + 1) = tooDeep? depth room := by
  simp only [tooDeep?, Nat.add_le_add_iff_right]

private theorem tooDeep?_zero {depth : Nat} (positive : 0 < depth) : tooDeep? depth 0 = some .tooDeepToWrite :=
  if_neg (Nat.not_le.mpr positive)

mutual

/-- A value without numbers of too many digits is written if there is room for its depth. -/
theorem unwritten?_eq : ∀ (room : Nat) (value : Value), value.isWritable = true →
    value.unwritten? room = tooDeep? value.depth room
  | 0, value => fun _ => by rw [tooDeep?_zero value.depth_pos, unwritten?]
  | room + 1, .int n => by
    rw [isWritable, unwritten?]
    exact fun writable => if_pos writable
  | room + 1, .fraction r => by
    rw [isWritable, unwritten?]
    exact fun writable => if_pos writable
  | room + 1, .list items => fun writable => by
    rw [isWritable] at writable
    rw [unwritten?, depth, tooDeep?_succ, unwrittenItems?_eq room items writable]
  | room + 1, .table entries => fun writable => by
    rw [isWritable] at writable
    rw [unwritten?, depth, tooDeep?_succ, unwrittenEntries?_eq room entries writable]
  | _ + 1, .null => fun _ => rfl
  | _ + 1, .bool _ => fun _ => rfl
  | _ + 1, .float _ => fun _ => rfl
  | _ + 1, .text _ => fun _ => rfl
  | _ + 1, .moment _ => fun _ => rfl

theorem unwrittenItems?_eq : ∀ (room : Nat) (items : List Value), areWritable items = true →
    unwrittenItems? room items = tooDeep? (itemsDepth items) room
  | _, [] => fun _ => rfl
  | room, item :: rest => fun writable => by
    rw [areWritable, Bool.and_eq_true] at writable
    rw [unwrittenItems?, itemsDepth, tooDeep?_max, unwritten?_eq room item writable.1, unwrittenItems?_eq room rest writable.2]

theorem unwrittenEntries?_eq : ∀ (room : Nat) (entries : List (String × Value)), entriesWritable entries = true →
    unwrittenEntries? room entries = tooDeep? (entriesDepth entries) room
  | _, [] => fun _ => rfl
  | room, (_, value) :: rest => fun writable => by
    rw [entriesWritable, Bool.and_eq_true] at writable
    rw [unwrittenEntries?, entriesDepth, tooDeep?_max, unwritten?_eq room value writable.1,
      unwrittenEntries?_eq room rest writable.2]

end

/-- What stops the writing of a value is no fault of the user's. -/
def Stopped (stop : Option Fault) : Prop := ∀ fault, stop = some fault → fault.System

theorem Stopped.or {first second : Option Fault} (before : Stopped first) (behind : Stopped second) :
    Stopped (first.or second) := by
  cases first with
  | none => exact behind
  | some other => exact before

theorem Stopped.none : Stopped none := fun _ found => by cases found

private theorem Stopped.unless {writable : Bool} : Stopped (if writable = true then .none else some .tooLongToWrite) := by
  cases writable with
  | true => exact .none
  | false =>
    rintro _ ⟨⟩
    rfl

mutual

theorem stopped_unwritten? : ∀ (room : Nat) (value : Value), Stopped (value.unwritten? room)
  | 0, value => by
    rw [unwritten?]
    rintro _ ⟨⟩
    rfl
  | room + 1, .int n => by
    rw [unwritten?]
    exact .unless
  | room + 1, .fraction r => by
    rw [unwritten?]
    exact .unless
  | room + 1, .list items => stopped_unwrittenItems? room items
  | room + 1, .table entries => stopped_unwrittenEntries? room entries
  | _ + 1, .null => .none
  | _ + 1, .bool _ => .none
  | _ + 1, .float _ => .none
  | _ + 1, .text _ => .none
  | _ + 1, .moment _ => .none

theorem stopped_unwrittenItems? : ∀ (room : Nat) (items : List Value), Stopped (unwrittenItems? room items)
  | _, [] => .none
  | room, item :: rest => (stopped_unwritten? room item).or (stopped_unwrittenItems? room rest)

theorem stopped_unwrittenEntries? : ∀ (room : Nat) (entries : List (String × Value)), Stopped (unwrittenEntries? room entries)
  | _, [] => .none
  | room, (_, value) :: rest => (stopped_unwritten? room value).or (stopped_unwrittenEntries? room rest)

end
end Surd.Value
