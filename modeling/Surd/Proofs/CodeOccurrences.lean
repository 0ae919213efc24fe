import Surd.Proofs.CodeRemoval

/-! Where codes stand in a text. A code holds one escape character, in front, and ends with its one letter. So two codes
of a text are the same, or one begins behind the other, whatever stands around them. The removal goes from one code to
the next, and what it leaves are the characters that no code covers. -/

namespace Surd
namespace Ansi
open Text

/-- A code stands in a text at a place, and ends before another. -/
def Occurs (text : List Char) (start stop : Nat) : Prop :=
  ∃ code rest, IsCode code ∧ text.drop start = code ++ rest ∧ stop = start + code.length

/-- The character at a place is one of a code. -/
def Covered (text : List Char) (place : Nat) : Prop := ∃ start stop, Occurs text start stop ∧ start ≤ place ∧ place < stop

theorem isCode_iff {code : List Char} : IsCode code ↔ afterCode? code = some [] := by
  simp only [afterCode?_eq_some_iff, List.append_nil, exists_eq_right']

instance : DecidablePred IsCode := fun _ => decidable_of_iff' _ isCode_iff

theorem IsCode.exists_cons {code : List Char} (isCode : IsCode code) :
    ∃ rest, code = escape :: rest ∧ escape ∉ rest := by
  obtain ⟨proper, alpha⟩ := isCode
  refine ⟨_, rfl, ?_⟩
  intro member
  rcases List.mem_cons.mp member with bracket | member
  · exact absurd bracket (by decide)
  · rcases List.mem_append.mp member with parameter | letter
    · exact absurd (proper _ parameter) (by decide)
    · rw [← List.mem_singleton.mp letter] at alpha
      exact absurd alpha (by decide)

section
variable {text rest : List Char} {start stop place : Nat}

theorem occurs_iff : Occurs text start stop ↔
    ∃ rest ∈ afterCode? (text.drop start), stop + rest.length = text.length := by
  simp only [Option.mem_def, afterCode?_eq_some_iff]
  constructor
  · rintro ⟨code, rest, isCode, whole, rfl⟩
    obtain ⟨others, rfl, -⟩ := isCode.exists_cons
    have lengths := congrArg List.length whole
    rw [List.length_drop, List.length_append, List.length_cons] at lengths
    exact ⟨rest, ⟨_, isCode, whole⟩, by rw [List.length_cons]; omega⟩
  · rintro ⟨rest, ⟨code, isCode, whole⟩, lengths⟩
    obtain ⟨others, rfl, -⟩ := isCode.exists_cons
    have total := congrArg List.length whole
    rw [List.length_drop, List.length_append, List.length_cons] at total
    exact ⟨_, rest, isCode, whole, by rw [List.length_cons]; omega⟩

instance (text : List Char) (start stop : Nat) : Decidable (Occurs text start stop) := decidable_of_iff' _ occurs_iff

theorem not_occurs_zero (none : afterCode? text = none) : ¬Occurs text 0 stop := by
  intro occurs
  obtain ⟨rest, found, -⟩ := occurs_iff.mp occurs
  rw [List.drop_zero, none] at found
  cases found

theorem Occurs.lt (occurs : Occurs text start stop) : start < stop := by
  obtain ⟨code, rest, isCode, -, rfl⟩ := occurs
  obtain ⟨others, rfl, -⟩ := isCode.exists_cons
  rw [List.length_cons]
  omega

private theorem Occurs.stop_le (occurs : Occurs text start stop) : stop ≤ text.length := by
  obtain ⟨rest, -, lengths⟩ := occurs_iff.mp occurs
  omega

/-- The escape character of a code is its first. -/
private theorem Occurs.eq_of_escape (occurs : Occurs text start stop) (behind : start ≤ place) (inside : place < stop)
    (found : text[place]? = some escape) : place = start := by
  obtain ⟨code, rest, isCode, whole, rfl⟩ := occurs
  obtain ⟨others, rfl, absent⟩ := isCode.exists_cons
  obtain ⟨offset, rfl⟩ := Nat.exists_eq_add_of_le behind
  rw [← List.getElem?_drop, whole, List.getElem?_append_left (by omega)] at found
  cases offset with
  | zero => rfl
  | succ n =>
    rw [List.getElem?_cons_succ] at found
    exact absurd (List.mem_of_getElem? found) absent

private theorem Occurs.escape_at (occurs : Occurs text start stop) : text[start]? = some escape := by
  obtain ⟨code, rest, isCode, whole, -⟩ := occurs
  obtain ⟨others, rfl, -⟩ := isCode.exists_cons
  have first : (text.drop start)[0]? = text[start]? := List.getElem?_drop
  rw [whole] at first
  exact first.symm

private theorem Occurs.stop_eq {other : Nat} (occurs : Occurs text start stop) (also : Occurs text start other) : stop = other := by
  obtain ⟨rest, found, lengths⟩ := occurs_iff.mp occurs
  obtain ⟨left, same, total⟩ := occurs_iff.mp also
  rw [Option.mem_def] at found same
  cases found.symm.trans same
  omega

/-- A code that begins behind another one begins behind its end. -/
theorem Occurs.before {first last : Nat} (occurs : Occurs text start stop) (other : Occurs text first last)
    (behind : start < first) : stop ≤ first := by
  rw [← Nat.not_lt]
  intro inside
  have same := occurs.eq_of_escape (Nat.le_of_lt behind) inside other.escape_at
  omega

theorem Occurs.disjoint {first last : Nat} (occurs : Occurs text start stop) (other : Occurs text first last) :
    start = first ∧ stop = last ∨ stop ≤ first ∨ last ≤ start := by
  rcases Nat.lt_trichotomy start first with behind | rfl | ahead
  · exact .inr (.inl (occurs.before other behind))
  · exact .inl ⟨rfl, occurs.stop_eq other⟩
  · exact .inr (.inr (other.before occurs ahead))

theorem covered_iff : Covered text place ↔
    ∃ start < place + 1, ∃ stop < text.length + 1, Occurs text start stop ∧ place < stop := by
  constructor
  · rintro ⟨start, stop, occurs, behind, inside⟩
    exact ⟨start, Nat.lt_succ_of_le behind, stop, Nat.lt_succ_of_le occurs.stop_le, occurs, inside⟩
  · rintro ⟨start, behind, stop, -, occurs, inside⟩
    exact ⟨start, stop, occurs, Nat.le_of_lt_succ behind, inside⟩

instance (text : List Char) : DecidablePred (Covered text) := fun _ => decidable_of_iff' _ covered_iff

end

/-- The characters of a text at the places that no code covers. -/
def uncovered (text : List Char) : List (Option Char) :=
  ((List.range text.length).filter fun place => ¬Covered text place).map (text[·]?)

section
variable {front rest : List Char}

private theorem occurs_append {start stop : Nat} :
    Occurs (front ++ rest) (front.length + start) (front.length + stop) ↔ Occurs rest start stop := by
  simp only [Occurs, List.drop_length_add_append, Nat.add_assoc, Nat.add_left_cancel_iff]

/-- No code runs on from the first part of a text into the second. -/
def Closed (front rest : List Char) : Prop :=
  ∀ start stop, Occurs (front ++ rest) start stop → start < front.length → stop ≤ front.length

theorem Closed.covered_iff (closed : Closed front rest) {place : Nat} :
    Covered (front ++ rest) (front.length + place) ↔ Covered rest place := by
  constructor
  · rintro ⟨start, stop, occurs, behind, inside⟩
    have later : front.length ≤ start := by
      rw [← Nat.not_lt]
      intro early
      have ends := closed start stop occurs early
      omega
    obtain ⟨first, rfl⟩ := Nat.exists_eq_add_of_le later
    obtain ⟨last, rfl⟩ := Nat.exists_eq_add_of_le (Nat.le_trans later (Nat.le_of_lt occurs.lt))
    exact ⟨first, last, occurs_append.mp occurs, by omega, by omega⟩
  · rintro ⟨start, stop, occurs, behind, inside⟩
    exact ⟨_, _, occurs_append.mpr occurs, by omega, by omega⟩

theorem Closed.uncovered_append (closed : Closed front rest) : uncovered (front ++ rest) =
    ((List.range front.length).filter fun place => ¬Covered (front ++ rest) place).map ((front ++ rest)[·]?) ++
      uncovered rest := by
  have shifted : ((fun place => decide ¬Covered (front ++ rest) place) ∘ fun place => front.length + place) =
      fun place => decide ¬Covered rest place := by
    funext place
    simp only [Function.comp, closed.covered_iff]
  have characters : ((front ++ rest)[·]?) ∘ (fun place => front.length + place) = (rest[·]?) := by
    funext place
    rw [Function.comp, List.getElem?_append_right (Nat.le_add_right _ _), Nat.add_sub_cancel_left]
  rw [uncovered, List.length_append, List.range_add, List.filter_append, List.map_append, List.filter_map, shifted,
    List.map_map, characters, uncovered]

private theorem closed_code {code : List Char} (isCode : IsCode code) (rest : List Char) : Closed code rest := by
  intro start stop occurs early
  have whole : Occurs (code ++ rest) 0 code.length := ⟨code, rest, isCode, rfl, (Nat.zero_add _).symm⟩
  rcases whole.disjoint occurs with ⟨-, ends⟩ | ahead | behind
  · exact Nat.le_of_eq ends.symm
  · omega
  · have nonempty := occurs.lt
    omega

private theorem closed_singleton {c : Char} (none : afterCode? (c :: rest) = none) : Closed [c] rest := by
  intro start stop occurs early
  obtain rfl : start = 0 := Nat.lt_one_iff.mp early
  exact absurd occurs (not_occurs_zero none)

private theorem uncovered_code {code : List Char} (isCode : IsCode code) (rest : List Char) :
    uncovered (code ++ rest) = uncovered rest := by
  have all : ((List.range code.length).filter fun place => ¬Covered (code ++ rest) place) = [] := by
    rw [List.filter_eq_nil_iff]
    intro place member
    have covered : Covered (code ++ rest) place :=
      ⟨0, code.length, ⟨code, rest, isCode, rfl, (Nat.zero_add _).symm⟩, Nat.zero_le place, List.mem_range.mp member⟩
    simpa using covered
  rw [(closed_code isCode rest).uncovered_append, all]
  rfl

private theorem uncovered_cons {c : Char} (none : afterCode? (c :: rest) = none) :
    uncovered (c :: rest) = some c :: uncovered rest := by
  have closed := closed_singleton none
  have bare : ¬Covered ([c] ++ rest) 0 := by
    rintro ⟨start, stop, occurs, behind, inside⟩
    obtain rfl : start = 0 := Nat.le_zero.mp behind
    exact not_occurs_zero none occurs
  have split := closed.uncovered_append
  have first : ((List.range 1).filter fun place => ¬Covered ([c] ++ rest) place) = [0] :=
    List.filter_cons_of_pos (decide_eq_true bare)
  rw [List.length_singleton, first] at split
  exact split

end

/-- The removal leaves the characters that no code covers, in their order. -/
theorem uncovered_eq (text : List Char) : uncovered text = (stripChars text).map some := by
  induction text using stripChars.induct with
  | case1 text rest found ih =>
    obtain ⟨code, isCode, rfl⟩ := afterCode?_eq_some_iff.mp found
    rw [stripChars_of_code found, uncovered_code isCode, ih]
  | case2 none =>
    rw [stripChars_nil]
    rfl
  | case3 c rest none ih => rw [stripChars_of_none none, uncovered_cons none, ih, List.map_cons]

/-- Texts without an escape character are left as they are between the codes that stand there. -/
theorem strip_colored {first : String} {pieces : List (String × String)} (bare : Lacks escape first)
    (each : ∀ piece ∈ pieces, IsCode piece.1.toList ∧ Lacks escape piece.2) :
    strip (first ++ String.join (pieces.map fun piece => piece.1 ++ piece.2)) = first ++ String.join (pieces.map Prod.snd) := by
  induction pieces generalizing first with
  | nil => exact strip_of_lacks (lacks_append.mpr ⟨bare, lacks_empty⟩)
  | cons piece rest ih =>
    obtain ⟨⟨isCode, plain⟩, others⟩ := List.forall_mem_cons.mp each
    rw [strip_append (.of_lacks bare), strip_of_lacks bare, List.map_cons, String.join_cons, String.append_assoc,
      strip_append_of_isCode isCode, ih plain others, List.map_cons, String.join_cons]

/-- The codes that stand between texts without an escape character are removed, and the texts are left. In any text the
characters that are removed are those that a code covers, and no two codes have one in common. -/
theorem strip_removes_codes :
    (∀ (first : String) (pieces : List (String × String)), Lacks escape first →
      (∀ piece ∈ pieces, IsCode piece.1.toList ∧ Lacks escape piece.2) →
      strip (first ++ String.join (pieces.map fun piece => piece.1 ++ piece.2)) =
        first ++ String.join (pieces.map Prod.snd)) ∧
      ∀ text : String, uncovered text.toList = (strip text).toList.map some ∧
        ∀ start stop first last, Occurs text.toList start stop → Occurs text.toList first last →
          start = first ∧ stop = last ∨ stop ≤ first ∨ last ≤ start := by
  refine ⟨fun first pieces bare each => strip_colored bare each, fun text => ⟨?_, ?_⟩⟩
  · rw [uncovered_eq, toList_strip]
  · exact fun start stop first last occurs other => occurs.disjoint other

/-- Texts that begin as the inside of a code does, and a code behind one that is not finished. -/
theorem strip_removes_codes_unfinished :
    let text := "\x1b[3\x1b[0mm\x1b[m".toList
    strip ("0;" ++ String.join [("\x1b[1;31m" ++ "[m"), ("\x1b[0m" ++ ";5")]) = "0;" ++ String.join ["[m", ";5"] ∧
      Occurs text 3 7 ∧ Occurs text 8 11 ∧ (7 ≤ 8 ∨ 11 ≤ 3) := by
  intro text
  obtain ⟨leaves, removes⟩ := strip_removes_codes
  have first : Occurs text 3 7 := by decide +kernel
  have second : Occurs text 8 11 := by decide +kernel
  refine ⟨?_, first, second, ((removes _).2 3 7 8 11 first second).resolve_left (by decide)⟩
  exact leaves "0;" [("\x1b[1;31m", "[m"), ("\x1b[0m", ";5")] (by decide) (by decide +kernel)

end Ansi
end Surd
