import Surd.Proofs.CodeOccurrences

/-! What a second removal would find. The removal goes through a text once, so that the ends of a code with other codes
in its middle come together and stay. What is left holds a code just where the text held such an interrupted one, and a
second removal changes what is left just then. -/

namespace Surd
namespace Ansi
open Text

variable {text rest core inner back : List Char} {c : Char}

/-- A text with codes put in between its characters, in front of it, or behind it. -/
inductive Filled : List Char → List Char → Prop where
  | nil : Filled [] []
  | keep {c : Char} {core text : List Char} : Filled core text → Filled (c :: core) (c :: text)
  | code {code core text : List Char} : IsCode code → Filled core text → Filled core (code ++ text)

/-- A code with other codes between its first character and its last. -/
inductive Interrupted : List Char → Prop where
  | mk {parameters inner : List Char} {letter : Char} : (∀ c ∈ parameters, c.isDigit = true ∨ c = ';') →
      letter.isAlpha = true → Filled ('[' :: parameters) inner → inner ≠ '[' :: parameters →
      Interrupted (escape :: (inner ++ [letter]))

/-- A part of a text, without a gap, is of a kind. -/
def Holds (kind : List Char → Prop) (text : List Char) : Prop := ∃ part, kind part ∧ part <:+: text

theorem exists_filled (left : stripChars text = core ++ c :: back) : ∃ inner rest,
    text = inner ++ c :: rest ∧ Filled core inner ∧ afterCode? (c :: rest) = none ∧ stripChars rest = back := by
  induction text using stripChars.induct generalizing core with
  | case1 text rest found ih =>
    rw [stripChars_of_code found] at left
    obtain ⟨code, isCode, rfl⟩ := afterCode?_eq_some_iff.mp found
    obtain ⟨inner, after, rfl, filled, none, same⟩ := ih left
    exact ⟨code ++ inner, after, (List.append_assoc _ _ _).symm, .code isCode filled, none, same⟩
  | case2 none =>
    rw [stripChars_nil] at left
    exact absurd left.symm (List.append_ne_nil_of_right_ne_nil core (List.cons_ne_nil c back))
  | case3 first rest none ih =>
    rw [stripChars_of_none none] at left
    cases core with
    | nil =>
      cases left
      exact ⟨[], rest, rfl, .nil, none, rfl⟩
    | cons d core =>
      obtain ⟨rfl, later⟩ := List.cons.inj left
      obtain ⟨inner, after, rfl, filled, stops, same⟩ := ih later
      exact ⟨first :: inner, after, rfl, .keep filled, stops, same⟩

namespace Filled
variable (filled : Filled core inner)
include filled

theorem stripChars_append (bare : escape ∉ core) (rest : List Char) : stripChars (inner ++ rest) = core ++ stripChars rest := by
  induction filled with
  | nil => rfl
  | keep filled ih =>
    rw [List.mem_cons, not_or] at bare
    rw [List.cons_append, stripChars_cons (Ne.symm bare.1), ih bare.2, List.cons_append]
  | code isCode filled ih =>
    rw [List.append_assoc, stripChars_of_code (afterCode?_eq_some_iff.mpr ⟨_, isCode, rfl⟩), ih bare]

/-- Where something was put in, an escape character stands behind what came before. -/
private theorem eq_or_escape : inner = core ∨ ∃ front behind more, core = front ++ behind ∧ inner = front ++ escape :: more := by
  induction filled with
  | nil => exact .inl rfl
  | @keep c core text filled ih =>
    rcases ih with rfl | ⟨front, behind, more, rfl, rfl⟩
    · exact .inl rfl
    · exact .inr ⟨c :: front, behind, more, rfl, rfl⟩
  | @code code core text isCode filled ih =>
    obtain ⟨others, rfl, -⟩ := isCode.exists_cons
    exact .inr ⟨[], core, others ++ text, rfl, rfl⟩

/-- No code begins where one is interrupted. -/
private theorem afterCode?_eq_none {parameters : List Char} (proper : ∀ c ∈ parameters, c.isDigit = true ∨ c = ';')
    (opens : core = '[' :: parameters) (other : inner ≠ core) (rest : List Char) :
    afterCode? (escape :: (inner ++ rest)) = none := by
  obtain ⟨front, behind, more, whole, rfl⟩ := filled.eq_or_escape.resolve_left other
  cases front with
  | nil => rfl
  | cons first front =>
    obtain ⟨rfl, shape⟩ := List.cons.inj (opens.symm.trans whole)
    have stops : (front ++ escape :: (more ++ rest)).dropWhile isParameter = escape :: (more ++ rest) := by
      rw [List.dropWhile_append_of_pos fun c member => isParameter_iff.mpr (proper c (shape ▸ List.mem_append_left _ member))]
      rfl
    simp only [List.cons_append, List.append_assoc, afterCode?, and_self, if_true, stops]
    rfl

end Filled

/-- No code runs on over an escape character. -/
private theorem afterCode?_append_escape (none : afterCode? (c :: text) = none) (rest : List Char) :
    afterCode? (c :: (text ++ escape :: rest)) = Option.none := by
  rw [Option.eq_none_iff_forall_ne_some]
  intro left found
  obtain ⟨code, isCode, whole⟩ := afterCode?_eq_some_iff.mp found
  obtain ⟨others, rfl, absent⟩ := isCode.exists_cons
  obtain ⟨rfl, tails⟩ := List.cons.inj whole
  have inside : ∀ behind, text ≠ others ++ behind := by
    rintro behind rfl
    have ends : afterCode? (escape :: (others ++ behind)) = some behind := afterCode?_eq_some_iff.mpr ⟨_, isCode, rfl⟩
    rw [none] at ends
    cases ends
  rcases List.append_eq_append_iff.mp tails with ⟨more, same, continued⟩ | ⟨behind, same, -⟩
  · cases more with
    | nil => exact inside [] (by rw [same, List.append_nil, List.append_nil])
    | cons first more =>
      obtain ⟨rfl, -⟩ := List.cons.inj continued
      exact absent (same ▸ List.mem_append_right text List.mem_cons_self)
  · exact inside behind same

private theorem stripChars_append_escape (text rest : List Char) :
    stripChars (text ++ escape :: rest) = stripChars text ++ stripChars (escape :: rest) := by
  induction text using stripChars.induct with
  | case1 text left found ih => rw [stripChars_of_code found, stripChars_of_code (afterCode?_append found _), ih]
  | case2 none => rw [stripChars_nil, List.nil_append, List.nil_append]
  | case3 c left none ih =>
    rw [stripChars_of_none none, List.cons_append, stripChars_of_none (afterCode?_append_escape none rest), ih,
      List.cons_append]

theorem part_append (front inner : List Char) (letter : Char) (back : List Char) :
    front ++ escape :: (inner ++ [letter]) ++ back = front ++ escape :: (inner ++ letter :: back) := by
  simp only [List.append_assoc, List.cons_append, List.nil_append]

/-- A code that is left was interrupted. -/
private theorem interrupted_of_left (left : Holds IsCode (stripChars text)) : Holds Interrupted text := by
  obtain ⟨_, @⟨parameters, letter, proper, alpha⟩, front, back, whole⟩ := left
  obtain ⟨before, after, rfl, -, none, tail⟩ :=
    exists_filled (whole.symm.trans (part_append front ('[' :: parameters) letter back))
  obtain ⟨inner, behind, rfl, filled, -, -⟩ := exists_filled tail
  refine ⟨_, .mk proper alpha filled ?_, before, behind, part_append before inner letter behind⟩
  rintro rfl
  have found : afterCode? (escape :: ('[' :: parameters ++ letter :: behind)) = some behind :=
    afterCode?_eq_some_iff.mpr ⟨_, .mk proper alpha, (part_append [] ('[' :: parameters) letter behind).symm⟩
  rw [none] at found
  cases found

/-- The ends of an interrupted code come together. -/
theorem Interrupted.leaves {part : List Char} (interrupted : Interrupted part) (before behind : List Char) :
    ∃ code, IsCode code ∧ stripChars (before ++ part ++ behind) = stripChars before ++ code ++ stripChars behind := by
  obtain @⟨parameters, inner, letter, proper, alpha, filled, other⟩ := interrupted
  have isCode := IsCode.mk proper alpha
  obtain ⟨_, same, absent⟩ := isCode.exists_cons
  rw [← (List.cons.inj same).2, ← List.cons_append, List.mem_append, not_or, List.mem_singleton] at absent
  have none := filled.afterCode?_eq_none proper rfl other (letter :: behind)
  refine ⟨_, isCode, ?_⟩
  calc stripChars (before ++ escape :: (inner ++ [letter]) ++ behind)
      = stripChars (before ++ escape :: (inner ++ letter :: behind)) := by rw [part_append]
    _ = stripChars before ++ escape :: ('[' :: parameters ++ letter :: stripChars behind) := by
        rw [stripChars_append_escape, stripChars_of_none none, filled.stripChars_append absent.1,
          stripChars_cons (Ne.symm absent.2)]
    _ = stripChars before ++ escape :: '[' :: (parameters ++ [letter]) ++ stripChars behind :=
        (part_append (stripChars before) ('[' :: parameters) letter (stripChars behind)).symm

/-- The removal leaves a code just where there was one with other codes in it. -/
theorem holds_isCode_stripChars_iff (text : List Char) : Holds IsCode (stripChars text) ↔ Holds Interrupted text := by
  refine ⟨interrupted_of_left, ?_⟩
  rintro ⟨part, interrupted, before, behind, rfl⟩
  obtain ⟨code, isCode, left⟩ := interrupted.leaves before behind
  exact ⟨code, isCode, stripChars before, stripChars behind, left.symm⟩

/-- Just the texts without a code are left as they are. -/
theorem stripChars_eq_self_iff (text : List Char) : stripChars text = text ↔ ¬Holds IsCode text := by
  induction text using stripChars.induct with
  | case1 text rest found ih =>
    obtain ⟨code, isCode, rfl⟩ := afterCode?_eq_some_iff.mp found
    have shorter := (stripChars_sublist rest).length_le
    have longer := afterCode?_shorter found
    refine iff_of_false (fun same => ?_) (not_not_intro ⟨code, isCode, [], rest, rfl⟩)
    rw [stripChars_of_code found] at same
    rw [same] at shorter
    omega
  | case2 none =>
    refine iff_of_true stripChars_nil ?_
    rintro ⟨_, isCode, inside⟩
    obtain ⟨others, rfl, -⟩ := isCode.exists_cons
    cases List.infix_nil.mp inside
  | case3 c rest none ih =>
    rw [stripChars_of_none none, List.cons_inj_right, ih]
    refine not_congr ⟨?_, ?_⟩
    · rintro ⟨code, isCode, inside⟩
      exact ⟨code, isCode, List.infix_cons inside⟩
    · rintro ⟨code, isCode, inside⟩
      refine ⟨code, isCode, (List.infix_cons_iff.mp inside).resolve_left ?_⟩
      rintro ⟨behind, whole⟩
      rw [afterCode?_eq_some_iff.mpr ⟨code, isCode, whole.symm⟩] at none
      cases none

theorem strip_eq_self_iff (text : String) : strip text = text ↔ ¬Holds IsCode text.toList := by
  rw [← String.toList_inj, toList_strip, stripChars_eq_self_iff]

/-- What is left of a text holds a code just where the text holds an interrupted one, and only then does a second removal
change it. -/
theorem strip_settled (text : String) :
    (Holds IsCode (strip text).toList ↔ Holds Interrupted text.toList) ∧
      (strip (strip text) = strip text ↔ ¬Holds IsCode (strip text).toList) := by
  refine ⟨?_, strip_eq_self_iff (strip text)⟩
  rw [toList_strip]
  exact holds_isCode_stripChars_iff text.toList

/-- A code behind the first character of another one keeps that from being found, and is itself taken out. -/
theorem strip_leaves_code :
    let text := "\x1b\x1b[0m[0m"
    Holds IsCode (strip text).toList ∧ strip (strip text) ≠ strip text := by
  intro text
  have opens : afterCode? text.toList = none := by decide +kernel
  have found : afterCode? "\x1b[0m[0m".toList = some "[0m".toList := by decide +kernel
  have left : (strip text).toList = "\x1b[0m".toList := by
    have split : text.toList = escape :: "\x1b[0m[0m".toList := by decide +kernel
    rw [split] at opens
    rw [toList_strip, split, stripChars_of_none opens, stripChars_of_code found, stripChars_of_not_mem (by decide +kernel)]
    decide +kernel
  have held : Holds IsCode (strip text).toList := by
    rw [left]
    exact ⟨_, by decide +kernel, List.infix_refl _⟩
  exact ⟨held, fun same => (strip_eq_self_iff (strip text)).mp same held⟩

end Ansi
end Surd
