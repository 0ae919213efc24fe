import Surd.Proofs.ValueWriting
import Surd.Settings

/-! Files that hold one header and nothing else. Its names may go to any depth, and the tables that are
read stand inside each other just as deep. -/

namespace Surd
namespace Text

private theorem toList_loop (bytes : ByteArray) (position : Nat) (before : List UInt8) :
    ByteArray.toList.loop bytes position before = before.reverse ++ bytes.data.toList.drop position := by
  induction position, before using ByteArray.toList.loop.induct bytes with
  | case1 position before inside ih =>
    have bound : position < bytes.data.toList.length := by simpa using inside
    have next : bytes.get! position = bytes.data.toList[position] := by
      simp only [ByteArray.get!, Array.getElem_toList]
      exact getElem!_pos bytes.data position (by simpa using bound)
    rw [ByteArray.toList.loop, if_pos inside, ih, List.drop_eq_getElem_cons bound, next, List.reverse_cons,
      List.append_assoc, List.singleton_append]
  | case2 position before outside =>
    have bound : bytes.data.toList.length ≤ position := by simpa using outside
    rw [ByteArray.toList.loop, if_neg outside, List.drop_eq_nil_of_le bound, List.append_nil]

/-- A text as bytes, one for each character. -/
def narrowBytes (text : List Char) : ByteArray := ⟨(text.map fun c => UInt8.ofNat c.toNat).toArray⟩

private theorem toList_narrowBytes (text : List Char) :
    (narrowBytes text).toList = text.map fun c => UInt8.ofNat c.toNat := by
  rw [ByteArray.toList, toList_loop]
  rfl

private theorem decodeFrom_narrow {text : List Char} (narrow : ∀ c ∈ text, c.toNat < 128) (position : Nat) :
    decodeFrom position (text.map Char.toNat) = .ok text := by
  induction text generalizing position with
  | nil =>
    rw [List.map_nil, decodeFrom]
  | cons c rest ih =>
    have within := List.forall_mem_cons.mp narrow
    have leads : leading? c.toNat = some (c.toNat, 0, 0x80, 0xBF) := if_pos within.1
    rw [List.map_cons, decodeFrom, leads]
    dsimp only [tail]
    rw [Nat.add_zero, ih within.2, Char.ofNat_toNat]
    rfl

theorem decode_narrowBytes {text : List Char} (narrow : ∀ c ∈ text, c.toNat < 128) :
    decode (narrowBytes text) = .ok (String.ofList text) := by
  have codes : ((text.map fun c => UInt8.ofNat c.toNat).map UInt8.toNat) = text.map Char.toNat := by
    rw [List.map_map]
    refine List.map_congr_left fun c member => ?_
    exact UInt8.toNat_ofNat_of_lt (Nat.lt_trans (narrow c member) (by decide))
  rw [decode, toList_narrowBytes, codes, decodeFrom_narrow narrow]
  rfl

end Text

namespace Toml

/-- A name that stands in a key without quotes. -/
structure BareName (name : List Char) : Prop where
  proper : name ≠ []
  bare : ∀ c ∈ name, isBare c = true

instance (name : List Char) : Decidable (BareName name) :=
  decidable_of_iff (name ≠ [] ∧ name.all isBare = true)
    ⟨fun ⟨proper, bare⟩ => ⟨proper, List.all_eq_true.mp bare⟩, fun ⟨proper, bare⟩ => ⟨proper, List.all_eq_true.mpr bare⟩⟩

def pointed : List (List Char) → List Char
  | [] => []
  | [name] => name
  | name :: rest => name ++ '.' :: pointed rest

private theorem narrow_of_bare {c : Char} (bare : isBare c = true) : c.toNat < 128 := by
  have alphanum : c.isAlphanum = (decide (c.val ≥ 'A'.val ∧ c.val ≤ 'Z'.val) ||
      (decide (c.val ≥ 'a'.val) && decide (c.val ≤ 'z'.val)) || (decide (c.val ≥ '0'.val) && decide (c.val ≤ '9'.val))) := rfl
  simp only [isBare, alphanum, Bool.or_eq_true, Bool.and_eq_true, decide_eq_true_eq, beq_iff_eq, ge_iff_le,
    UInt32.le_iff_toNat_le] at bare
  change c.val.toNat < 128
  rcases bare with (((upper | lower) | digit) | rfl) | rfl
  · exact Nat.lt_of_le_of_lt upper.2 (by decide)
  · exact Nat.lt_of_le_of_lt lower.2 (by decide)
  · exact Nat.lt_of_le_of_lt digit.2 (by decide)
  · decide
  · decide

private theorem keyPart_bare {name : List Char} (proper : BareName name) {stop : Char} (stops : isBare stop = false)
    (rest : List Char) : keyPart (name ++ stop :: rest) = .ok (String.ofList name, stop :: rest) := by
  have taken : (name ++ stop :: rest).takeWhile isBare = name := by
    rw [List.takeWhile_append_of_pos proper.bare, List.takeWhile_cons_of_neg (by simp [stops]), List.append_nil]
  have left : (name ++ stop :: rest).dropWhile isBare = stop :: rest := by
    rw [List.dropWhile_append_of_pos proper.bare, List.dropWhile_cons_of_neg (by simp [stops])]
  obtain ⟨first, others, rfl⟩ := List.exists_cons_of_ne_nil proper.proper
  have bare := proper.bare first List.mem_cons_self
  rw [List.cons_append] at taken left ⊢
  rw [keyPart, if_pos bare, taken, left]

section
variable {names : List (List Char)} (proper : ∀ name ∈ names, BareName name)
include proper

theorem mem_pointed {c : Char} (member : c ∈ pointed names) : isBare c = true ∨ c = '.' := by
  induction names with
  | nil => cases member
  | cons name rest ih =>
    have each := List.forall_mem_cons.mp proper
    cases rest with
    | nil => exact .inl (each.1.bare c member)
    | cons next others =>
      rcases List.mem_append.mp member with inside | behind
      · exact .inl (each.1.bare c inside)
      · rcases List.mem_cons.mp behind with point | later
        · exact .inr point
        · exact ih each.2 later

private theorem length_le_pointed : names.length ≤ (pointed names).length := by
  induction names with
  | nil => exact Nat.le_refl _
  | cons name rest ih =>
    have each := List.forall_mem_cons.mp proper
    have positive : 0 < name.length := List.length_pos_iff.mpr each.1.proper
    have others := ih each.2
    cases rest with
    | nil => exact positive
    | cons next others =>
      simp only [pointed, List.length_append, List.length_cons] at *
      omega

variable (given : names ≠ [])
include given

theorem pointed_head : ∃ c tail, pointed names = c :: tail ∧ isBare c = true := by
  obtain ⟨name, rest, rfl⟩ := List.exists_cons_of_ne_nil given
  have each := proper name List.mem_cons_self
  obtain ⟨first, others, rfl⟩ := List.exists_cons_of_ne_nil each.proper
  have bare := each.bare first List.mem_cons_self
  cases rest with
  | nil => exact ⟨first, others, rfl, bare⟩
  | cons next rest => exact ⟨first, _, rfl, bare⟩

theorem skipSpaces_pointed (rest : List Char) : skipSpaces (pointed names ++ rest) = pointed names ++ rest := by
  obtain ⟨c, tail, shape, bare⟩ := pointed_head proper given
  have solid : isSpace c = false := by
    rw [isSpace, Bool.or_eq_false_iff, beq_eq_false_iff_ne, beq_eq_false_iff_ne]
    constructor
    · rintro rfl
      cases bare
    · rintro rfl
      cases bare
  rw [shape, List.cons_append, skipSpaces, List.dropWhile_cons, solid]
  rfl

private theorem keyParts_pointed {fuel : Nat} (enough : names.length ≤ fuel) (after : List Char) :
    keyParts fuel (pointed names ++ ']' :: after) = .ok (names.map String.ofList, ']' :: after) := by
  induction names generalizing fuel with
  | nil => exact absurd rfl given
  | cons name rest ih =>
    have each := List.forall_mem_cons.mp proper
    cases fuel with
    | zero => cases enough
    | succ fuel =>
      cases rest with
      | nil =>
        rw [pointed, keyParts, keyPart_bare each.1 rfl]
        rfl
      | cons next others =>
        have inner := ih each.2 (List.cons_ne_nil next others) (Nat.le_of_succ_le_succ enough)
        have start := skipSpaces_pointed each.2 (List.cons_ne_nil next others) (']' :: after)
        have point : ∀ rest, skipSpaces ('.' :: rest) = '.' :: rest := fun _ => rfl
        have shape : pointed (name :: next :: others) = name ++ '.' :: pointed (next :: others) := rfl
        rw [shape, List.append_assoc, List.cons_append, keyParts, keyPart_bare each.1 rfl]
        simp only [bind, Except.bind, point, if_true, start, inner]
        rfl

private theorem key_pointed : key (pointed names ++ [']']) = .ok (names.map String.ofList, [']']) := by
  have oneLine : ∀ c ∈ pointed names ++ [']'], (c != '\n') = true := by
    intro c member
    rw [bne_iff_ne]
    rintro rfl
    rcases List.mem_append.mp member with inside | last
    · rcases mem_pointed proper inside with bare | point
      · cases bare
      · cases point
    · cases List.mem_singleton.mp last
  have whole : (pointed names ++ [']']).takeWhile (· != '\n') = pointed names ++ [']'] := by
    have all : (pointed names ++ [']'] ++ []).takeWhile (· != '\n') = _ := List.takeWhile_append_of_pos oneLine
    rwa [List.append_nil, List.takeWhile_nil, List.append_nil] at all
  have long := length_le_pointed proper
  rw [key, whole, keyParts_pointed proper given]
  rw [List.length_append]
  omega

end

/-- The tables that a header opens in an empty document. -/
def opened : List String → Entries
  | [] => []
  | [name] => [(name, .table .header [])]
  | name :: rest => [(name, .table .implicit (opened rest))]

private theorem openTable_empty (names : List String) : openTable names [] = .ok (opened names) := by
  induction names with
  | nil => rfl
  | cons name rest ih =>
    cases rest with
    | nil => rfl
    | cons next others =>
      have step : openTable (name :: next :: others) [] =
          ((openTable (next :: others) []).map (.table .implicit)).map fun node => [(name, node)] := rfl
      rw [step, ih]
      rfl

/-- Tables inside each other along names, the last one empty. -/
def along : List String → List (String × Value)
  | [] => []
  | name :: rest => [(name, .table (along rest))]

private theorem entriesToValue_opened (names : List String) : entriesToValue (opened names) = along names := by
  induction names with
  | nil => rfl
  | cons name rest ih =>
    cases rest with
    | nil => rfl
    | cons next others =>
      have step : entriesToValue (opened (name :: next :: others)) =
          [(name, .table (entriesToValue (opened (next :: others))))] := rfl
      rw [step, ih]
      rfl

private theorem joinLineEnds_of_lacks {text : List Char} (lacks : '\r' ∉ text) : joinLineEnds text = text := by
  induction text using joinLineEnds.induct with
  | case1 => rfl
  | case2 c => rfl
  | case3 c d rest ends ih =>
    rw [ends.1] at lacks
    exact absurd List.mem_cons_self lacks
  | case4 c d rest other ih =>
    rw [joinLineEnds, if_neg other, ih fun member => lacks (List.mem_cons_of_mem c member)]

/-- A document of one header. -/
def headerText (names : List (List Char)) : List Char := '[' :: (pointed names ++ [']'])

section
variable {names : List (List Char)} (proper : ∀ name ∈ names, BareName name)
include proper

theorem mem_headerText {c : Char} (member : c ∈ headerText names) : isBare c = true ∨ c = '.' ∨ c = '[' ∨ c = ']' := by
  rcases List.mem_cons.mp member with opening | inside
  · exact .inr (.inr (.inl opening))
  rcases List.mem_append.mp inside with within | closing
  · exact (mem_pointed proper within).imp_right .inl
  · exact .inr (.inr (.inr (List.mem_singleton.mp closing)))

variable (given : names ≠ [])
include given

private theorem header_pointed : header ⟨[], [], 0⟩ (pointed names ++ [']']) =
    .ok (⟨opened (names.map String.ofList), names.map String.ofList, 1⟩, []) := by
  obtain ⟨c, tail, shape, bare⟩ := pointed_head proper given
  have single : mark? '[' (pointed names ++ [']']) = none := by
    have other : c ≠ '[' := by
      rintro rfl
      cases bare
    rw [shape, List.cons_append, mark?, if_neg other]
  unfold header
  simp only [single, skipSpaces_pointed proper given, key_pointed proper given, openTable_empty, bind, Except.bind]
  rfl

theorem read_headerText : read (String.ofList (headerText names)) = .ok (along (names.map String.ofList)) := by
  have plain : '\r' ∉ headerText names := by
    intro member
    rcases mem_headerText proper member with bare | point | opening | closing
    · cases bare
    · cases point
    · cases opening
    · cases closing
  unfold read
  rw [String.toList_ofList, joinLineEnds_of_lacks plain]
  have line : statement ((headerText names).length + 1) ⟨[], [], 0⟩ (skipSpaces (headerText names)) = _ :=
    header_pointed proper given
  dsimp only
  rw [statements, line]
  exact congrArg Except.ok (entriesToValue_opened _)

end
end Toml

theorem Settings.parse_headerText {names : List (List Char)} (proper : ∀ name ∈ names, Toml.BareName name)
    (given : names ≠ []) (file : String) :
    parse file (Text.narrowBytes (Toml.headerText names)) = .ok (Toml.along (names.map String.ofList)) := by
  have narrow : ∀ c ∈ Toml.headerText names, c.toNat < 128 := by
    intro c member
    rcases Toml.mem_headerText proper member with bare | rfl | rfl | rfl
    · exact Toml.narrow_of_bare bare
    · decide
    · decide
    · decide
  simp only [parse, Text.decode_narrowBytes narrow, bind, Except.bind, Toml.read_headerText proper given]

namespace Value
open Toml (along)

theorem entriesDepth_along (names : List String) : entriesDepth (along names) = names.length := by
  induction names with
  | nil => rfl
  | cons name rest ih => rw [along, entriesDepth, entriesDepth, depth, ih, Nat.max_zero, List.length_cons]

theorem entriesWritable_along (names : List String) : entriesWritable (along names) = true := by
  induction names with
  | nil => rfl
  | cons name rest ih =>
    rw [along, entriesWritable, entriesWritable, isWritable, ih]
    rfl

end Value
end Surd
