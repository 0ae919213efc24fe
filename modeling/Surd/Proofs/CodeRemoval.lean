import Surd.Console
import Surd.Proofs.TextContents

/-! Removing colour codes. What the removal looks for at each place is a code in front of the rest of the text, and there
is at most one. A text is tidy when no escape character is left after the removal, as it is when every escape character
starts a code. Tidy texts are closed under joining, and the removal goes through them piece by piece. -/

namespace Surd
namespace Ansi
open Text

theorem control_escape : Control escape := by
  change (27 : Nat) < 32
  decide

/-- The escape character, an opening bracket, digits and semicolons in any number, and one letter. -/
inductive IsCode : List Char → Prop where
  | mk {parameters : List Char} {letter : Char} : (∀ c ∈ parameters, c.isDigit = true ∨ c = ';') →
      letter.isAlpha = true → IsCode (escape :: '[' :: (parameters ++ [letter]))

theorem isParameter_iff {c : Char} : isParameter c = true ↔ c.isDigit = true ∨ c = ';' := by simp [isParameter]

private theorem not_isParameter_of_isAlpha {c : Char} (letter : c.isAlpha = true) : isParameter c = false := by
  have known : ∀ n < 60, isParameter (Char.ofNat n) = true → (Char.ofNat n).isAlpha = false := by decide
  cases parameter : isParameter c with
  | false => rfl
  | true =>
    have small : c.toNat < 60 := by
      rcases isParameter_iff.mp parameter with digit | rfl
      · exact Nat.lt_of_le_of_lt (Char.isDigit_iff_toNat.mp digit).2 (by decide)
      · decide
    rw [← Char.ofNat_toNat c] at parameter letter
    rw [known c.toNat small parameter] at letter
    cases letter

theorem afterCode?_eq_some_iff {text rest : List Char} :
    afterCode? text = some rest ↔ ∃ code, IsCode code ∧ text = code ++ rest := by
  unfold afterCode?
  constructor
  · intro found
    split at found
    next opening bracket tail =>
      split at found
      next marked =>
        obtain ⟨rfl, rfl⟩ := marked
        split at found
        next letter after ends =>
          split at found
          next alpha =>
            cases found
            have proper : ∀ c ∈ tail.takeWhile isParameter, c.isDigit = true ∨ c = ';' := fun c member =>
              isParameter_iff.mp (List.all_eq_true.mp List.all_takeWhile c member)
            refine ⟨_, .mk proper alpha, ?_⟩
            rw [List.cons_append, List.cons_append, List.append_assoc, List.singleton_append, ← ends,
              List.takeWhile_append_dropWhile]
          next => cases found
        next => cases found
      next => cases found
    next => cases found
  · rintro ⟨_, @⟨parameters, letter, proper, alpha⟩, rfl⟩
    have ends : (parameters ++ letter :: rest).dropWhile isParameter = letter :: rest := by
      rw [List.dropWhile_append_of_pos fun c member => isParameter_iff.mpr (proper c member),
        List.dropWhile_cons_of_neg (by rw [not_isParameter_of_isAlpha alpha]; exact Bool.false_ne_true)]
    simp only [List.cons_append, List.append_assoc, List.nil_append, and_self, if_true, ends, alpha]

theorem stripChars_of_none {c : Char} {rest : List Char} (none : afterCode? (c :: rest) = none) :
    stripChars (c :: rest) = c :: stripChars rest := by
  rw [stripChars]
  split
  · next found => rw [none] at found; cases found
  · rfl

theorem stripChars_cons {c : Char} (other : c ≠ escape) (rest : List Char) :
    stripChars (c :: rest) = c :: stripChars rest := by
  apply stripChars_of_none
  unfold afterCode?
  split
  · next first second tail same =>
    cases same
    rw [if_neg fun marked => other marked.1]
  · rfl

theorem stripChars_of_code {text rest : List Char} (found : afterCode? text = some rest) :
    stripChars text = stripChars rest := by
  rw [stripChars]
  split
  · next other same =>
    rw [found] at same
    cases same
    rfl
  · next none => rw [found] at none; cases none

theorem stripChars_nil : stripChars [] = [] := by
  rw [stripChars]
  rfl

theorem stripChars_of_not_mem {text : List Char} (plain : escape ∉ text) : stripChars text = text := by
  induction text with
  | nil => exact stripChars_nil
  | cons c rest ih =>
    rw [List.mem_cons, not_or] at plain
    rw [stripChars_cons (Ne.symm plain.1), ih plain.2]

theorem afterCode?_append {first rest : List Char} (found : afterCode? first = some rest)
    (second : List Char) : afterCode? (first ++ second) = some (rest ++ second) := by
  obtain ⟨code, isCode, rfl⟩ := afterCode?_eq_some_iff.mp found
  exact afterCode?_eq_some_iff.mpr ⟨code, isCode, List.append_assoc code rest second⟩

/-- No code runs on out of a text that keeps no escape character. -/
theorem stripChars_append {first : List Char} (tidy : escape ∉ stripChars first) (second : List Char) :
    stripChars (first ++ second) = stripChars first ++ stripChars second := by
  induction first using stripChars.induct with
  | case1 text rest found ih =>
    rw [stripChars_of_code found] at tidy ⊢
    rw [stripChars_of_code (afterCode?_append found second), ih tidy]
  | case2 none => rw [stripChars_nil, List.nil_append, List.nil_append]
  | case3 c rest none ih =>
    rw [stripChars_of_none none, List.mem_cons, not_or] at tidy
    rw [stripChars_of_none none, List.cons_append, stripChars_cons (Ne.symm tidy.1), ih tidy.2, List.cons_append]

private theorem afterCode?_sublist {text rest : List Char} (found : afterCode? text = some rest) : rest.Sublist text := by
  obtain ⟨code, -, rfl⟩ := afterCode?_eq_some_iff.mp found
  exact List.sublist_append_right code rest

theorem stripChars_sublist (text : List Char) : (stripChars text).Sublist text := by
  induction text using stripChars.induct with
  | case1 text rest found ih =>
    rw [stripChars_of_code found]
    exact ih.trans (afterCode?_sublist found)
  | case2 none => simp only [stripChars_nil, List.Sublist.refl]
  | case3 c rest none ih =>
    rw [stripChars_of_none none]
    exact ih.cons_cons c

/-- A character that no code holds. -/
structure Outside (c : Char) : Prop where
  not_escape : c ≠ escape
  not_bracket : c ≠ '['
  not_parameter : isParameter c = false
  not_letter : c.isAlpha = false

theorem outside_lineEnd : Outside '\n' := ⟨by decide, by decide, by decide, by decide⟩

private theorem Outside.not_mem {c : Char} (outside : Outside c) {code : List Char} (isCode : IsCode code) : c ∉ code := by
  obtain ⟨proper, alpha⟩ := isCode
  intro member
  rcases List.mem_cons.mp member with rfl | member
  · exact outside.not_escape rfl
  · rcases List.mem_cons.mp member with rfl | member
    · exact outside.not_bracket rfl
    · rcases List.mem_append.mp member with parameter | letter
      · have held := isParameter_iff.mpr (proper c parameter)
        rw [outside.not_parameter] at held
        cases held
      · rw [← List.mem_singleton.mp letter, outside.not_letter] at alpha
        cases alpha

private theorem Outside.mem_of_afterCode? {c : Char} (outside : Outside c) {text rest : List Char}
    (found : afterCode? text = some rest) (member : c ∈ text) : c ∈ rest := by
  obtain ⟨code, isCode, rfl⟩ := afterCode?_eq_some_iff.mp found
  exact (List.mem_append.mp member).resolve_left (outside.not_mem isCode)

private theorem Outside.mem_stripChars {c : Char} (outside : Outside c) (text : List Char) : c ∈ stripChars text ↔ c ∈ text := by
  refine ⟨fun member => (stripChars_sublist text).subset member, fun member => ?_⟩
  induction text using stripChars.induct with
  | case1 text rest found ih =>
    rw [stripChars_of_code found]
    exact ih (outside.mem_of_afterCode? found member)
  | case2 none => cases member
  | case3 first rest none ih =>
    rw [stripChars_of_none none]
    rcases List.mem_cons.mp member with rfl | later
    · exact List.mem_cons_self
    · exact List.mem_cons_of_mem first (ih later)

/-- A text without an escape character outside its codes. -/
def Tidy (text : String) : Prop := Lacks escape (strip text)

variable {first second text : String}

theorem toList_strip (text : String) : (strip text).toList = stripChars text.toList := String.toList_ofList

theorem strip_of_lacks (plain : Lacks escape text) : strip text = text := by
  rw [← String.toList_inj, toList_strip, stripChars_of_not_mem plain]

theorem Outside.lacks_strip {c : Char} (outside : Outside c) : Lacks c (strip text) ↔ Lacks c text := by
  rw [Lacks, toList_strip, outside.mem_stripChars]
  rfl

theorem lacks_strip {c : Char} (lacks : Lacks c text) : Lacks c (strip text) := by
  intro member
  rw [toList_strip] at member
  exact lacks ((stripChars_sublist text.toList).subset member)

theorem strip_append (tidy : Tidy first) (second : String) : strip (first ++ second) = strip first ++ strip second := by
  rw [Tidy, Lacks, toList_strip] at tidy
  rw [← String.toList_inj, String.toList_append, toList_strip, toList_strip, toList_strip, String.toList_append,
    stripChars_append tidy]

theorem Tidy.of_lacks (plain : Lacks escape text) : Tidy text := lacks_strip plain

theorem Tidy.append (tidy : Tidy first) (other : Tidy second) : Tidy (first ++ second) := by
  rw [Tidy, strip_append tidy, lacks_append]
  exact ⟨tidy, other⟩

theorem strip_append_of_isCode (isCode : IsCode first.toList) (second : String) : strip (first ++ second) = strip second := by
  have found : afterCode? (first.toList ++ second.toList) = some second.toList :=
    afterCode?_eq_some_iff.mpr ⟨_, isCode, rfl⟩
  rw [← String.toList_inj, toList_strip, toList_strip, String.toList_append, stripChars_of_code found]

private theorem isCode_code (number : Nat) : IsCode (code number).toList := by
  have letters : (code number).toList = escape :: '[' :: (Nat.toDigits 10 number ++ ['m']) := by
    change ("\x1b[" ++ number.repr ++ "m").toList = _
    rw [String.toList_append, String.toList_append, Nat.toList_repr]
    rfl
  rw [letters]
  exact .mk (fun c member => .inl (Nat.isDigit_of_mem_toDigits (by decide) (by decide) member)) (by decide)

theorem strip_code (number : Nat) : strip (code number) = "" := by
  have alone := strip_append_of_isCode (isCode_code number) ""
  rwa [String.append_empty, strip_of_lacks lacks_empty] at alone

theorem tidy_code (number : Nat) : Tidy (code number) := by
  rw [Tidy, strip_code]
  exact lacks_empty

end Ansi

namespace Tint
open Ansi Text

variable {text : String}

theorem tidy_write (tidy : Tidy text) (tint : Tint) : Tidy (tint.write text) := by
  cases tint with
  | plain => exact .of_lacks tidy
  | colored => exact tidy.append (tidy_code 0)

/-- However a stream takes colour codes, what it shows of a tidy text without them is the text
without them. -/
theorem strip_write (tidy : Tidy text) (tint : Tint) : strip (tint.write text) = strip text := by
  cases tint with
  | plain => exact strip_of_lacks tidy
  | colored => rw [Tint.write, strip_append tidy, Ansi.reset, strip_code, String.append_empty]

end Tint
end Surd
