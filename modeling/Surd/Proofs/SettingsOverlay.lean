import Surd.Proofs.DocumentTables
import Surd.Proofs.LoadedSettings

/-! What settings hold once a file is laid over the defaults. Under each key stands what the file has
there, or else the default. Settings load just when every key with a default then has a value of its kind;
otherwise the user is told which one has not, unless its value cannot be written. -/

namespace Surd
namespace Value

variable {name : String} {entries : List (String × Value)}

theorem entry?_cons (name other : String) (value : Value) (rest : List (String × Value)) :
    entry? name ((other, value) :: rest) = if other = name then some value else entry? name rest := by
  unfold entry?
  rw [List.find?_cons]
  by_cases same : other = name
  · rw [if_pos same, beq_iff_eq.mpr same]
    rfl
  · rw [if_neg same, beq_eq_false_iff_ne.mpr same]

theorem entry?_eq_none (absent : name ∉ entries.map Prod.fst) : entry? name entries = none := by
  unfold entry?
  rw [Option.map_eq_none_iff, List.find?_eq_none]
  intro entry member same
  exact absent (List.mem_map.mpr ⟨entry, member, beq_iff_eq.mp same⟩)

theorem mem_of_entry? {value : Value} (found : entry? name entries = some value) : (name, value) ∈ entries := by
  obtain ⟨entry, first, rfl⟩ := Option.map_eq_some_iff.mp found
  have same : (entry.1 == name) = true := List.find?_some (p := fun entry : String × Value => entry.1 == name) first
  rw [← eq_of_beq same]
  exact List.mem_of_find?_eq_some first

private theorem isWritable_of_mem (writable : entriesWritable entries = true) : ∀ entry ∈ entries, entry.2.isWritable = true := by
  induction entries with
  | nil => exact fun _ member => by cases member
  | cons entry rest ih =>
    rw [entriesWritable, Bool.and_eq_true] at writable
    exact List.forall_mem_cons.mpr ⟨writable.1, ih writable.2⟩

end Value

namespace Settings
open Value (entry?_cons entry?_eq_none)

theorem entry?_put (name other : String) (value : Value) (base : List (String × Value)) :
    Value.entry? other (put name value base) = if name = other then some value else Value.entry? other base := by
  induction base with
  | nil => rw [put, entry?_cons]
  | cons entry rest ih =>
    obtain ⟨first, old⟩ := entry
    rw [put]
    split
    · next same =>
      rw [entry?_cons, entry?_cons, same]
      split
      · rfl
      · rfl
    · next different =>
      rw [entry?_cons, entry?_cons, ih]
      by_cases here : first = other
      · rw [if_pos here, if_pos here, if_neg fun same => different (here.trans same.symm)]
      · rw [if_neg here, if_neg here]

private theorem entry?_putAll {entries : List (String × Value)} (once : (entries.map Prod.fst).Nodup)
    (base : List (String × Value)) (name : String) :
    Value.entry? name (putAll base entries) = (Value.entry? name entries).or (Value.entry? name base) := by
  induction entries generalizing base with
  | nil => rfl
  | cons entry rest ih =>
    obtain ⟨first, value⟩ := entry
    have fresh := List.nodup_cons.mp once
    have step : putAll base ((first, value) :: rest) = putAll (put first value base) rest := rfl
    rw [step, ih fresh.2, entry?_put, entry?_cons]
    by_cases here : first = name
    · rw [if_pos here, if_pos here, entry?_eq_none (here ▸ fresh.1)]
      rfl
    · rw [if_neg here, if_neg here]

private theorem put_of_not_mem {name : String} {base : List (String × Value)} (absent : name ∉ base.map Prod.fst) (value : Value) :
    put name value base = base ++ [(name, value)] := by
  induction base with
  | nil => rfl
  | cons entry rest ih =>
    obtain ⟨other, old⟩ := entry
    rw [List.map_cons, List.mem_cons, not_or] at absent
    rw [put, if_neg (Ne.symm absent.1), ih absent.2, List.cons_append]

theorem putAll_eq_append {base entries : List (String × Value)} (once : ((base ++ entries).map Prod.fst).Nodup) :
    putAll base entries = base ++ entries := by
  induction entries generalizing base with
  | nil => exact (List.append_nil base).symm
  | cons entry rest ih =>
    obtain ⟨name, value⟩ := entry
    have absent : name ∉ base.map Prod.fst := by
      rw [List.map_append, List.nodup_append] at once
      exact fun member => once.2.2 name member name List.mem_cons_self rfl
    have step : putAll base ((name, value) :: rest) = putAll (put name value base) rest := rfl
    rw [List.append_cons] at once ⊢
    rw [step, put_of_not_mem absent, ih once]

/-- What stands under a key of a section. -/
def held? (data : List (String × Value)) (name key : String) : Option Value := (Value.entry? name data).bind (Value.get? key)

theorem entry?_entriesOf (data : List (String × Value)) (name key : String) :
    Value.entry? key (entriesOf name data) = held? data name key := by
  unfold entriesOf held?
  cases Value.entry? name data with
  | none => rfl
  | some value =>
    cases value with
    | _ => rfl

theorem setting_eq (data : List (String × Value)) (name key : String) :
    setting data name key = (held? data name key).getD .null := by
  rw [setting, entry?_entriesOf]

section overlay
variable {file : String} {raw : List (String × Value)}

/-- The sections of a file that have defaults are tables. -/
def Sectioned (raw : List (String × Value)) : Prop :=
  ∀ entry ∈ raw, (Value.entry? entry.1 defaults).isSome = true → ∃ entries, entry.2 = .table entries

def laid (data : List (String × Value)) (name : String) (value : Value) : Value :=
  match (Value.entry? name defaults).isSome, value with
  | true, .table entries => .table (putAll (entriesOf name data) entries)
  | _, other => other

theorem laid_of_unknown {name : String} (unknown : Value.entry? name defaults = none) (data : List (String × Value))
    (value : Value) : laid data name value = value := by
  unfold laid
  rw [unknown]
  rfl

private theorem laid_table {name : String} (known : (Value.entry? name defaults).isSome = true) (data entries : List (String × Value)) :
    laid data name (.table entries) = .table (putAll (entriesOf name data) entries) := by
  unfold laid
  rw [known]

theorem overlay_cons {name : String} {value : Value} {rest data : List (String × Value)}
    (sectioned : (Value.entry? name defaults).isSome = true → ∃ entries, value = .table entries) :
    overlay file data ((name, value) :: rest) = overlay file (put name (laid data name value) data) rest := by
  rw [overlay.eq_def]
  dsimp only
  unfold laid
  split
  · next known =>
    obtain ⟨entries, rfl⟩ := sectioned known
    rw [known]
  · next unknown =>
    rw [Bool.not_eq_true] at unknown
    rw [unknown]

private theorem overlay_answers (sectioned : Sectioned raw) (once : (raw.map Prod.fst).Nodup) (data : List (String × Value)) :
    ∃ after, overlay file data raw = .ok after ∧
      ∀ name, Value.entry? name after = ((Value.entry? name raw).map (laid data name)).or (Value.entry? name data) := by
  induction raw generalizing data with
  | nil => exact ⟨data, rfl, fun _ => rfl⟩
  | cons entry rest ih =>
    obtain ⟨name, value⟩ := entry
    have fresh := List.nodup_cons.mp once
    have sections := List.forall_mem_cons.mp sectioned
    obtain ⟨after, laidOver, stands⟩ := ih sections.2 fresh.2 (put name (laid data name value) data)
    refine ⟨after, (overlay_cons sections.1).trans laidOver, fun other => ?_⟩
    rw [stands, entry?_put, entry?_cons]
    by_cases here : name = other
    · rw [if_pos here, if_pos here, entry?_eq_none (here ▸ fresh.1), ← here]
      rfl
    · have elsewhere : laid (put name (laid data name value) data) other = laid data other := by
        funext held
        unfold laid entriesOf
        rw [entry?_put, if_neg here]
      rw [if_neg here, if_neg here, elsewhere]

private theorem overlay_refuses (raw : List (String × Value)) (data : List (String × Value)) :
    Ends (fun fault => ¬Sectioned raw ∧ fault.kind = .userInput) (fun _ => Sectioned raw) (overlay file data raw) := by
  induction raw generalizing data with
  | nil => exact fun _ member => by cases member
  | cons entry rest ih =>
    obtain ⟨name, value⟩ := entry
    by_cases tabled : (Value.entry? name defaults).isSome = true → ∃ entries, value = .table entries
    · rw [overlay_cons tabled]
      refine (ih _).mono (fun fault refused => ⟨fun all => ?_, refused.2⟩) fun _ others => ?_
      · exact refused.1 (List.forall_mem_cons.mp all).2
      · exact List.forall_mem_cons.mpr ⟨tabled, others⟩
    · have known := (Classical.not_imp.mp tabled).1
      have refused : overlay file data ((name, value) :: rest) = .error (.sectionNotTable file name) := by
        rw [overlay.eq_def]
        dsimp only
        rw [if_pos known]
        cases value with
        | table entries => exact absurd (fun _ => ⟨entries, rfl⟩) tabled
        | _ => rfl
      rw [refused]
      exact ⟨fun all => tabled (List.forall_mem_cons.mp all).1, rfl⟩

theorem held?_overlay {after : List (String × Value)} (sectioned : Sectioned raw) (named : Named Value.Distinct raw)
    (stands : ∀ name, Value.entry? name after = ((Value.entry? name raw).map (laid defaults name)).or (Value.entry? name defaults))
    (name key : String) : held? after name key = (held? raw name key).or (held? defaults name key) := by
  unfold held?
  rw [stands]
  cases given : Value.entry? name raw with
  | none => rfl
  | some value =>
    have member := Value.mem_of_entry? given
    rw [Option.map_some, Option.some_or, Option.bind_some, Option.bind_some]
    cases known : Value.entry? name defaults with
    | none => rw [laid_of_unknown known, Option.bind_none, Option.or_none]
    | some default =>
      have isKnown : (Value.entry? name defaults).isSome = true := by rw [known, Option.isSome_some]
      obtain ⟨entries, rfl⟩ := sectioned _ member isKnown
      rw [laid_table isKnown, ← known]
      cases named.each _ member with
      | table once each =>
        change Value.entry? key (putAll _ entries) = _
        rw [entry?_putAll once, entry?_entriesOf]
        rfl

end overlay

section validate
variable {file : String} {data : List (String × Value)}

/-- A value in the place of a number that cannot be told, with what stops the telling. -/
def Untold (value : Value) (fault : Fault) : Prop :=
  (∀ n, value ≠ .int n) ∧ value.unwritten? Value.writtenRoom = some fault

private theorem checkPositive_refuses (name key : String) :
    Ends (fun fault => (¬∃ n, 1 ≤ n ∧ setting data name key = .int n) ∧
        (fault.kind = .userInput ∨ Untold (setting data name key) fault))
      (fun _ => True) (checkPositive file data name key) := by
  unfold checkPositive
  split
  · next n same =>
    split
    · trivial
    · next small =>
      refine ⟨?_, .inl rfl⟩
      rintro ⟨m, positive, other⟩
      cases same.symm.trans other
      exact small positive
  · next other =>
    refine ⟨fun ⟨n, _, same⟩ => other n same, ?_⟩
    cases found : (setting data name key).unwritten? Value.writtenRoom with
    | none => exact .inl rfl
    | some fault => exact .inr ⟨other, found⟩

private theorem checkSwitch_refuses (name key : String) :
    Ends (fun fault => (¬∃ b, setting data name key = .bool b) ∧ fault.kind = .userInput) (fun _ => True)
      (checkSwitch file data name key) := by
  unfold checkSwitch
  split
  · trivial
  · next other => exact ⟨fun ⟨b, same⟩ => other b same, rfl⟩

/-- A refusal of the check is the user's, but for one of the two numbers, which may not be told. -/
theorem validate_refuses :
    Ends (fun fault => ¬Checked data ∧ (fault.kind = .userInput ∨
        Untold (setting data "OUTPUT" "PRIMES_PER_ROW") fault ∨ Untold (setting data "BEHAVIOUR" "MAX_PRIMES_BOUND") fault))
      (fun _ => True) (validate file data) := by
  have positive : ∀ {name key : String}, (Checked data → ∃ n, 1 ≤ n ∧ setting data name key = .int n) →
      Ends (fun fault => ¬Checked data ∧ (fault.kind = .userInput ∨ Untold (setting data name key) fault)) (fun _ => True)
        (checkPositive file data name key) := fun needed =>
    (checkPositive_refuses _ _).mono (fun fault refused => ⟨fun checked => refused.1 (needed checked), refused.2⟩) fun _ same => same
  have switch : ∀ {name key : String}, (Checked data → ∃ b, setting data name key = .bool b) →
      Ends (fun fault => ¬Checked data ∧ (fault.kind = .userInput ∨
        Untold (setting data "OUTPUT" "PRIMES_PER_ROW") fault ∨ Untold (setting data "BEHAVIOUR" "MAX_PRIMES_BOUND") fault))
        (fun _ => True) (checkSwitch file data name key) := fun needed =>
    (checkSwitch_refuses _ _).mono (fun fault refused => ⟨fun checked => refused.1 (needed checked), .inl refused.2⟩) fun _ same => same
  refine ((positive Checked.rowLength).mono ?_ fun _ same => same).bind fun _ _ => ?_
  · exact fun fault refused => ⟨refused.1, refused.2.imp_right .inl⟩
  refine ((positive Checked.bound).mono ?_ fun _ same => same).bind fun _ _ => ?_
  · exact fun fault refused => ⟨refused.1, refused.2.imp_right .inr⟩
  exact (switch Checked.debug).bind fun _ _ => (switch Checked.color).bind fun _ _ => switch Checked.pretty

end validate

/-- What the file has where a default stands is of the default's kind. -/
structure WellTyped (raw : List (String × Value)) : Prop where
  sections : ∀ entry ∈ raw, entry.1 = "BEHAVIOUR" ∨ entry.1 = "OUTPUT" → ∃ entries, entry.2 = .table entries
  rowLength : ∀ value, held? raw "OUTPUT" "PRIMES_PER_ROW" = some value → ∃ n, 1 ≤ n ∧ value = .int n
  bound : ∀ value, held? raw "BEHAVIOUR" "MAX_PRIMES_BOUND" = some value → ∃ n, 1 ≤ n ∧ value = .int n
  debug : ∀ value, held? raw "BEHAVIOUR" "DEBUG" = some value → ∃ b, value = .bool b
  color : ∀ value, held? raw "OUTPUT" "COLOR" = some value → ∃ b, value = .bool b
  pretty : ∀ value, held? raw "OUTPUT" "PRETTY" = some value → ∃ b, value = .bool b

/-- One of the two numbers that are told when they are no positive integer is nested too deep for that. -/
def NestedNumber (raw : List (String × Value)) : Prop :=
  ∃ value, (held? raw "OUTPUT" "PRIMES_PER_ROW" = some value ∨ held? raw "BEHAVIOUR" "MAX_PRIMES_BOUND" = some value) ∧
    Value.writtenRoom < value.depth

section
variable {file : String} {raw data : List (String × Value)}

theorem WellTyped.sectioned (typed : WellTyped raw) : Sectioned raw :=
  fun entry member known => typed.sections entry member (default_section known)

/-- Settings whose keys hold what the file has, or else the defaults. -/
def Merges (raw data : List (String × Value)) : Prop :=
  ∀ name key, held? data name key = (held? raw name key).or (held? defaults name key)

/-- A setting is as it should be if its default is, and what the file has in its place. -/
private theorem Merges.setting_iff (merges : Merges raw data) {name key : String} (fits : Value → Prop)
    (standard : fits (setting defaults name key)) :
    fits (setting data name key) ↔ ∀ value, held? raw name key = some value → fits value := by
  rw [setting_eq, merges]
  cases held? raw name key with
  | none =>
    rw [Option.none_or, ← setting_eq]
    refine ⟨fun _ value absent => ?_, fun _ => standard⟩
    cases absent
  | some value =>
    constructor
    · rintro fitting _ ⟨⟩
      exact fitting
    · exact fun fitting => fitting value rfl

theorem Merges.checked_iff (merges : Merges raw data) (sectioned : Sectioned raw) : Checked data ↔ WellTyped raw := by
  have positive : ∀ {name key : String}, (∃ n, 1 ≤ n ∧ setting defaults name key = .int n) →
      ((∃ n, 1 ≤ n ∧ setting data name key = .int n) ↔
        ∀ value, held? raw name key = some value → ∃ n, 1 ≤ n ∧ value = .int n) :=
    merges.setting_iff fun value => ∃ n, 1 ≤ n ∧ value = .int n
  have switch : ∀ {name key : String}, (∃ b, setting defaults name key = .bool b) →
      ((∃ b, setting data name key = .bool b) ↔ ∀ value, held? raw name key = some value → ∃ b, value = .bool b) :=
    merges.setting_iff fun value => ∃ b, value = .bool b
  have standard := checked_defaults
  constructor
  · intro checked
    refine ⟨fun entry member known => sectioned entry member ?_, (positive standard.rowLength).mp checked.rowLength,
      (positive standard.bound).mp checked.bound, (switch standard.debug).mp checked.debug,
      (switch standard.color).mp checked.color, (switch standard.pretty).mp checked.pretty⟩
    rcases known with same | same
    · rw [same]
      rfl
    · rw [same]
      rfl
  · intro typed
    exact ⟨(positive standard.rowLength).mpr typed.rowLength, (positive standard.bound).mpr typed.bound,
      (switch standard.debug).mpr typed.debug, (switch standard.color).mpr typed.color,
      (switch standard.pretty).mpr typed.pretty⟩

private theorem isWritable_of_held? (writable : Value.entriesWritable raw = true) {name key : String} {value : Value}
    (held : held? raw name key = some value) : value.isWritable = true := by
  obtain ⟨whole, found, inside⟩ := Option.bind_eq_some_iff.mp held
  have part := Value.isWritable_of_mem writable _ (Value.mem_of_entry? found)
  cases whole with
  | table entries =>
    rw [Value.isWritable] at part
    exact Value.isWritable_of_mem part _ (Value.mem_of_entry? inside)
  | _ => cases inside

/-- Where no number has too many digits, only depth keeps a setting from being told. -/
theorem Merges.untold (merges : Merges raw data) (writable : Value.entriesWritable raw = true) {name key : String}
    (standard : ∃ n, setting defaults name key = .int n) {fault : Fault}
    (untold : Untold (setting data name key) fault) :
    fault = .tooDeepToWrite ∧ ∃ value, held? raw name key = some value ∧ Value.writtenRoom < value.depth := by
  rw [setting_eq, merges] at untold
  cases given : held? raw name key with
  | none =>
    obtain ⟨n, same⟩ := standard
    rw [given, Option.none_or, ← setting_eq] at untold
    exact absurd same (untold.1 n)
  | some value =>
    rw [given, Option.some_or, Option.getD_some] at untold
    have stopped := untold.2
    rw [Value.unwritten?_eq _ _ (isWritable_of_held? writable given), Value.tooDeep?] at stopped
    split at stopped
    · cases stopped
    · next deep =>
      cases stopped
      exact ⟨rfl, value, rfl, Nat.not_le.mp deep⟩

/-- The table of a file makes settings if it is well typed. Otherwise it is refused as the user's, unless a
number in it is nested too deep. -/
theorem ofTable_settles (named : Named Value.Distinct raw) (writable : Value.entriesWritable raw = true) :
    Ends (fun fault => ¬WellTyped raw ∧ (fault.kind = .userInput ∨ fault = .tooDeepToWrite ∧ NestedNumber raw))
      (fun data => WellTyped raw ∧ Merges raw data ∧ Checked data ∧
        ∀ name, Value.entry? name defaults = none → Value.entry? name data = Value.entry? name raw)
      (ofTable file raw) := by
  unfold ofTable
  by_cases sectioned : Sectioned raw
  · obtain ⟨data, laidOver, stands⟩ :
        ∃ data, overlay file defaults raw = .ok data ∧ ∀ name, Value.entry? name data = _ :=
      overlay_answers sectioned named.once defaults
    have merges : Merges raw data := held?_overlay sectioned named stands
    simp only [laidOver, bind, Except.bind]
    cases validated : validate file data with
    | error fault =>
      obtain ⟨unchecked, reason⟩ := validate_refuses.fault validated
      refine ⟨fun typed => unchecked ((merges.checked_iff sectioned).mpr typed), reason.imp_right ?_⟩
      rintro (untold | untold)
      · obtain ⟨same, value, held, deep⟩ := merges.untold writable ⟨_, rfl⟩ untold
        exact ⟨same, value, .inl held, deep⟩
      · obtain ⟨same, value, held, deep⟩ := merges.untold writable ⟨_, rfl⟩ untold
        exact ⟨same, value, .inr held, deep⟩
    | ok _ =>
      have checked := validate_ends.answer validated
      refine ⟨(merges.checked_iff sectioned).mp checked, merges, checked, fun name unknown => ?_⟩
      have unchanged : laid defaults name = id := funext (laid_of_unknown unknown defaults)
      rw [stands, unknown, unchanged, Option.map_id, Option.or_none]
      rfl
  · cases refused : overlay file defaults raw with
    | error fault =>
      exact ⟨fun typed => sectioned typed.sectioned, .inl ((overlay_refuses raw defaults).fault refused).2⟩
    | ok data => exact absurd ((overlay_refuses raw defaults).answer refused) sectioned

end

end Settings
end Surd
