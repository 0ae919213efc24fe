import Surd.Proofs.FaultTexts
import Surd.Toml.Reader

/-! A table that is read from a document has every name once. Headers and keys all go down a row of names
and alter the place at its end, so that one walk along the names serves them all; only the last step and
the way into a table differ. -/

namespace Surd

/-- Entries whose names stand once, each with something that fits. -/
structure Named {α : Type} (fits : α → Prop) (entries : List (String × α)) : Prop where
  once : (entries.map Prod.fst).Nodup
  each : ∀ entry ∈ entries, fits entry.2

theorem Named.nil {α : Type} {fits : α → Prop} : Named fits [] := ⟨List.nodup_nil, fun _ member => by cases member⟩

/-- A value of a document, in whose tables every name stands once. -/
inductive Value.Distinct : Value → Prop where
  | bool (b : Bool) : Distinct (.bool b)
  | int (n : Int) : Distinct (.int n)
  | float (x : Binary64) : Distinct (.float x)
  | text (s : String) : Distinct (.text s)
  | moment (m : Moment) : Distinct (.moment m)
  | list {items : List Value} (each : ∀ item ∈ items, Distinct item) : Distinct (.list items)
  | table {entries : List (String × Value)} (once : (entries.map Prod.fst).Nodup)
      (each : ∀ entry ∈ entries, Distinct entry.2) : Distinct (.table entries)

namespace Toml

/-- A place of a document, in whose tables every name stands once. -/
inductive Node.Distinct : Node → Prop where
  | leaf {value : Value} (distinct : value.Distinct) : Distinct (.leaf value)
  | table {origin : Origin} {entries : Entries} (once : (entries.map Prod.fst).Nodup)
      (each : ∀ entry ∈ entries, Distinct entry.2) : Distinct (.table origin entries)
  | tables {last : Entries} {earlier : List Entries}
      (once : ∀ entries ∈ last :: earlier, (entries.map Prod.fst).Nodup)
      (each : ∀ entries ∈ last :: earlier, ∀ entry ∈ entries, Distinct entry.2) : Distinct (.tables last earlier)

theorem entriesToValue_eq (entries : Entries) :
    entriesToValue entries = entries.map fun entry => (entry.1, entry.2.toValue) := by
  induction entries with
  | nil => rfl
  | cons entry rest ih => rw [entriesToValue, ih, List.map_cons]

private theorem mem_earlierToValue {earlier : List Entries} {later : List Value} {item : Value}
    (member : item ∈ earlierToValue earlier later) :
    item ∈ later ∨ ∃ entries ∈ earlier, item = .table (entriesToValue entries) := by
  induction earlier generalizing later with
  | nil => exact .inl member
  | cons entries rest ih =>
    rw [earlierToValue] at member
    rcases ih member with inside | ⟨other, before, same⟩
    · rcases List.mem_cons.mp inside with same | behind
      · exact .inr ⟨entries, List.mem_cons_self, same⟩
      · exact .inl behind
    · exact .inr ⟨other, List.mem_cons_of_mem entries before, same⟩

theorem named_entriesToValue {entries : Entries} (once : (entries.map Prod.fst).Nodup)
    (each : ∀ entry ∈ entries, entry.2.toValue.Distinct) : Named Value.Distinct (entriesToValue entries) := by
  rw [entriesToValue_eq]
  refine ⟨by rwa [List.map_map], ?_⟩
  intro entry member
  obtain ⟨node, inside, rfl⟩ := List.mem_map.mp member
  exact each node inside

theorem Node.Distinct.toValue {node : Node} (distinct : node.Distinct) : node.toValue.Distinct := by
  induction distinct with
  | leaf distinct => exact distinct
  | table once each ih =>
    have named := named_entriesToValue once ih
    exact .table named.once named.each
  | tables once each ih =>
    apply Value.Distinct.list
    intro item member
    rcases mem_earlierToValue member with inside | ⟨entries, before, rfl⟩
    · have named := named_entriesToValue (once _ List.mem_cons_self) (ih _ List.mem_cons_self)
      rw [List.mem_singleton.mp inside]
      exact .table named.once named.each
    · have named := named_entriesToValue (once _ (List.mem_cons_of_mem _ before)) (ih _ (List.mem_cons_of_mem _ before))
      exact .table named.once named.each

/-- A reading that gives only what is said, whatever it refuses. -/
abbrev Yields {α : Type} (gives : α → Prop) (result : Except Trouble α) : Prop := Ends (fun _ => True) gives result

theorem yields_any {α : Type} (result : Except Trouble α) : Yields (fun _ => True) result := by
  cases result with
  | error trouble => exact trivial
  | ok a => exact trivial

/-- A change of a table that leaves every name once. -/
def Keeps (next : Entries → Except Trouble Entries) : Prop :=
  ∀ entries, Named Node.Distinct entries → Yields (Named Node.Distinct) (next entries)

def Fills (change : Option Node → Except Trouble Node) : Prop :=
  ∀ place, (∀ node ∈ place, node.Distinct) → Yields Node.Distinct (change place)

section
variable {change : Option Node → Except Trouble Node}

/-- The names that come in are followed along, as a new one behind must not be the first one again. -/
private theorem alter_named (fills : Fills change) (name : String) {entries : Entries} (named : Named Node.Distinct entries) :
    Yields (fun after => Named Node.Distinct after ∧ ∀ other ∈ after.map Prod.fst, other = name ∨ other ∈ entries.map Prod.fst)
      (alter name change entries) := by
  induction entries with
  | nil =>
    refine (fills none fun _ absent => by cases absent).map fun node distinct => ⟨⟨?_, ?_⟩, ?_⟩
    · exact List.pairwise_singleton _ name
    · exact List.forall_mem_singleton.mpr distinct
    · exact fun other member => .inl (List.mem_singleton.mp member)
  | cons entry rest ih =>
    obtain ⟨other, node⟩ := entry
    have fresh := List.nodup_cons.mp named.once
    have fits := List.forall_mem_cons.mp named.each
    rw [alter]
    split
    · refine (fills (some node) fun _ same => Option.some.inj same ▸ fits.1).map fun after distinct => ⟨⟨named.once, ?_⟩, ?_⟩
      · exact List.forall_mem_cons.mpr ⟨distinct, fits.2⟩
      · exact fun _ member => .inr member
    · next different =>
      refine (ih ⟨fresh.2, fits.2⟩).map fun after kept => ⟨⟨?_, ?_⟩, ?_⟩
      · refine List.nodup_cons.mpr ⟨fun member => ?_, kept.1.once⟩
        rcases kept.2 other member with same | inside
        · exact different same
        · exact fresh.1 inside
      · exact List.forall_mem_cons.mpr ⟨fits.1, kept.1.each⟩
      · intro one member
        rcases List.mem_cons.mp member with rfl | behind
        · exact .inr List.mem_cons_self
        · exact (kept.2 one behind).imp_right (List.mem_cons_of_mem other)

theorem alter_keeps (fills : Fills change) (name : String) : Keeps (alter name change) :=
  fun _ named => (alter_named fills name named).mono (fun _ refused => refused) fun _ kept => kept.1

end

section
variable {next : Entries → Except Trouble Entries} (keeps : Keeps next)
include keeps

theorem enter_fills : Fills (enter next) := by
  intro place fits
  cases place with
  | none => exact (keeps [] .nil).map fun _ named => .table named.once named.each
  | some node =>
    cases fits node rfl with
    | leaf distinct => exact trivial
    | table once each => exact (keeps _ ⟨once, each⟩).map fun _ named => .table named.once named.each
    | tables once each =>
      have first := List.forall_mem_cons.mp once
      have others := List.forall_mem_cons.mp each
      refine (keeps _ ⟨first.1, others.1⟩).map fun _ named => .tables ?_ ?_
      · exact List.forall_mem_cons.mpr ⟨named.once, first.2⟩
      · exact List.forall_mem_cons.mpr ⟨named.each, others.2⟩

private theorem enterDotted_fills (number : Nat) : Fills (enterDotted number next) := by
  have inside : ∀ {entries : Entries}, Named Node.Distinct entries →
      Yields Node.Distinct ((next entries).map (.table (.dotted number))) :=
    fun named => (keeps _ named).map fun _ after => .table after.once after.each
  intro place fits
  unfold enterDotted
  split
  · exact inside .nil
  · cases fits _ rfl with
    | table once each => exact inside ⟨once, each⟩
  · cases fits _ rfl with
    | table once each =>
      split
      · exact inside ⟨once, each⟩
      · exact trivial
  · exact trivial

end

/-- A walk along names, which alters the place of the last one and goes into the places before. -/
theorem keeps_of_walk {walk : List String → Entries → Except Trouble Entries} {last : Option Node → Except Trouble Node}
    {into : (Entries → Except Trouble Entries) → Option Node → Except Trouble Node} (done : walk [] = .ok)
    (one : ∀ name, walk [name] = alter name last)
    (more : ∀ name next rest, walk (name :: next :: rest) = alter name (into (walk (next :: rest))))
    (lastFills : Fills last) (intoFills : ∀ next, Keeps next → Fills (into next)) (names : List String) :
    Keeps (walk names) := by
  induction names with
  | nil =>
    rw [done]
    exact fun _ named => named
  | cons name rest ih =>
    cases rest with
    | nil =>
      rw [one]
      exact alter_keeps lastFills name
    | cons next rest =>
      rw [more]
      exact alter_keeps (intoFills _ ih) name

private theorem openTable_keeps (names : List String) : Keeps (openTable names) := by
  refine keeps_of_walk rfl (fun _ => rfl) (fun _ _ _ => rfl) ?_ (fun _ => enter_fills) names
  intro place fits
  dsimp only
  split
  · exact .table List.nodup_nil Named.nil.each
  · cases fits _ rfl with
    | table once each => exact .table once each
  · exact trivial

private theorem appendTable_keeps (names : List String) : Keeps (appendTable names) := by
  refine keeps_of_walk rfl (fun _ => rfl) (fun _ _ _ => rfl) ?_ (fun _ => enter_fills) names
  intro place fits
  dsimp only
  split
  · exact .tables (List.forall_mem_singleton.mpr List.nodup_nil) (List.forall_mem_singleton.mpr Named.nil.each)
  · cases fits _ rfl with
    | tables once each =>
      exact .tables (List.forall_mem_cons.mpr ⟨List.nodup_nil, once⟩) (List.forall_mem_cons.mpr ⟨Named.nil.each, each⟩)
  · exact trivial

section
variable {value : Value} (distinct : value.Distinct)
include distinct

theorem putLeaf_fills : Fills fun | none => .ok (.leaf value) | some _ => .error .malformed := by
  intro place _
  cases place with
  | none => exact .leaf distinct
  | some node => exact trivial

private theorem putInline_keeps (names : List String) : Keeps (putInline value names) :=
  keeps_of_walk rfl (fun _ => rfl) (fun _ _ _ => rfl) (putLeaf_fills distinct) (fun _ => enter_fills) names

private theorem putDotted_keeps (number : Nat) (names : List String) : Keeps (putDotted number value names) :=
  keeps_of_walk rfl (fun _ => rfl) (fun _ _ _ => rfl) (putLeaf_fills distinct)
    (fun _ keeps => enterDotted_fills keeps number) names

private theorem putUnder_keeps (number : Nat) (keys names : List String) : Keeps (putUnder number keys value names) := by
  induction names with
  | nil => exact putDotted_keeps distinct number keys
  | cons name rest ih => exact alter_keeps (enter_fills ih) name

end

section
variable {text : List Char} {read : Except Trouble (Value × List Char)}

private theorem decimal?_distinct (found : decimal? text = some read) : Yields (fun read => read.1.Distinct) read := by
  unfold decimal? at found
  dsimp only at found
  split at found
  · cases found
  · split at found
    · split at found
      · cases found
        trivial
      · cases found
        exact .int _
    · cases found
      exact .float _

private theorem number?_distinct (found : number? text = some read) : Yields (fun read => read.1.Distinct) read := by
  unfold number? at found
  split at found
  · cases found
  · split at found
    · cases found
      exact .int _
    · exact decimal?_distinct found

private theorem moment?_distinct (found : moment? text = some read) : Yields (fun read => read.1.Distinct) read := by
  unfold moment? at found
  split at found
  · dsimp only at found
    cases found
    split
    · exact .moment _
    · trivial
  · obtain ⟨clock, -, rfl⟩ := Option.map_eq_some_iff.mp found
    exact .moment _

end

private theorem special?_distinct {text : List Char} {read : Value × List Char} (found : special? text = some read) :
    read.1.Distinct := by
  unfold special? at found
  dsimp only at found
  split at found
  · cases found
    exact .float _
  · cases found
    exact .float _
  · cases found

mutual

theorem value_distinct : ∀ (fuel room : Nat) (text : List Char), Yields (fun read => read.1.Distinct) (value fuel room text)
  | 0, _, _ => trivial
  | _ + 1, _, [] => trivial
  | fuel + 1, room, c :: rest => by
    rw [value]
    split
    · exact (yields_any _).map fun _ _ => .text _
    split
    · refine (yields_any _).bind fun room _ => (yields_any _).bind fun inner _ => ?_
      split
      · exact .list fun _ member => by cases member
      · exact (items_distinct fuel room inner).map fun _ each => .list each
    split
    · refine (yields_any _).bind fun room _ => ?_
      dsimp only
      split
      · exact .table List.nodup_nil Named.nil.each
      · refine (pairs_named fuel room [] _ .nil).map fun _ named => ?_
        have whole := named_entriesToValue named.once fun entry member => (named.each entry member).toValue
        exact .table whole.once whole.each
    split
    · exact .bool true
    · exact .bool false
    split
    · next found => exact moment?_distinct found
    split
    · next found => exact number?_distinct found
    split
    · next found => exact special?_distinct found
    · trivial

private theorem items_distinct :
    ∀ (fuel room : Nat) (text : List Char), Yields (fun read => ∀ item ∈ read.1, item.Distinct) (items fuel room text)
  | 0, _, _ => trivial
  | fuel + 1, room, text => by
    rw [items]
    refine (value_distinct fuel room text).bind fun first distinct => (yields_any _).bind fun after _ => ?_
    have alone := List.forall_mem_singleton.mpr distinct
    split
    · exact alone
    · refine (yields_any _).bind fun rest _ => ?_
      split
      · exact alone
      · exact (items_distinct fuel room rest).map fun _ each => List.forall_mem_cons.mpr ⟨distinct, each⟩
    · trivial

private theorem pairs_named : ∀ (fuel room : Nat) (entries : Entries) (text : List Char), Named Node.Distinct entries →
    Yields (fun read => Named Node.Distinct read.1) (pairs fuel room entries text)
  | 0, _, _, _ => fun _ => trivial
  | fuel + 1, room, entries, text => fun named => by
    rw [pairs]
    refine (yields_any _).bind fun keys _ => ?_
    dsimp only
    split
    · trivial
    · refine (value_distinct fuel room _).bind fun read distinct => ?_
      refine (putInline_keeps distinct keys.1 entries named).bind fun after kept => ?_
      split
      · exact kept
      · exact pairs_named fuel room after _ kept
      · trivial

end

abbrev Tidied (read : Progress × List Char) : Prop := Named Node.Distinct read.1.entries

section
variable {progress : Progress} (named : Named Node.Distinct progress.entries)
include named

private theorem header_named (rest : List Char) : Yields Tidied (header progress rest) := by
  unfold header
  dsimp only
  split
  · refine (yields_any _).bind fun keys _ => (appendTable_keeps keys.1 _ named).bind fun entries kept => ?_
    split
    · exact kept
    · trivial
  · refine (yields_any _).bind fun keys _ => (openTable_keeps keys.1 _ named).bind fun entries kept => ?_
    split
    · exact kept
    · trivial

private theorem assignment_named (size : Nat) (text : List Char) : Yields Tidied (assignment size progress text) := by
  unfold assignment
  refine (yields_any _).bind fun keys _ => ?_
  dsimp only
  split
  · trivial
  · refine (value_distinct _ _ _).bind fun read distinct => ?_
    exact (putUnder_keeps distinct _ _ _ _ named).bind fun entries kept => kept

private theorem statement_named (size : Nat) (text : List Char) : Yields Tidied (statement size progress text) := by
  unfold statement
  split
  · exact named
  split
  · exact named
  split
  · exact header_named named _
  · exact assignment_named named size _

theorem statements_named (fuel : Nat) (text : List Char) :
    Yields (fun progress => Named Node.Distinct progress.entries) (statements fuel progress text) := by
  induction fuel generalizing progress text with
  | zero => exact named
  | succ fuel ih =>
    rw [statements]
    refine (statement_named named _ _).bind fun read kept => ?_
    dsimp only
    refine (yields_any _).bind fun rest _ => ?_
    split
    · exact kept
    · split
      · exact ih kept _
      · trivial

end

/-- A document is read as a table in which, at any depth, every name stands once. -/
theorem read_named (text : String) : Yields (Named Value.Distinct) (read text) := by
  refine (statements_named .nil _ _).map fun progress named => ?_
  exact named_entriesToValue named.once fun entry member => (named.each entry member).toValue

end Toml
end Surd
