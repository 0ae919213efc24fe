import Surd.Proofs.CanonicalRoot
import Surd.Proofs.DecimalTexts
import Surd.Proofs.TextContents
import Surd.Proofs.TextCuts

/-! Square roots read back from their texts. No factor holds the first character of the product sign, so that the
sign is found just where it was put, and a root differs from a fraction in its first character. A factor of one is left
out, and zero is written without its root. Neither loses anything of an exact root, where only zero has the part zero,
and its root is one. -/

namespace Surd
namespace SquareRoot
open Text

def timesSign : String := " * "

/-- Reads a number alone, or two with a bar between. -/
def fraction? (text : List Char) : Option Rat :=
  match cutAt '/' text with
  | [numer] => (decimal? numer).map fun p : Nat => (p : Rat)
  | [numer, denom] => do
    let p ← decimal? numer
    let q ← decimal? denom
    if q = 0 then none else some ((p : Rat) / q)
  | _ => none

/-- Reads the number under a root. -/
def radicand? : List Char → Option Int
  | 's' :: 'q' :: 'r' :: 't' :: '(' :: rest =>
    if rest.getLast? = some ')' then (decimal? rest.dropLast).map fun t : Nat => (t : Int) else none
  | _ => none

/-- Reads a fraction or a root alone, or a fraction times a root. -/
def read? (text : String) : Option SquareRoot :=
  match cutBetween timesSign.toList text.toList with
  | [factor] =>
    match radicand? factor with
    | some root => some ⟨1, root⟩
    | none => (fraction? factor).map fun part => ⟨part, 1⟩
  | [factor, radical] => do
    let part ← fraction? factor
    let root ← radicand? radical
    some ⟨part, root⟩
  | _ => none

/-- The numbers that stand in the text of a fraction. -/
def numerals (r : Rat) : List String := if r.den = 1 then [toString r.num] else [toString r.num, toString r.den]

def radicalText (root : Int) : String := "sqrt(" ++ toString root ++ ")"

/-- The factors that stand in the text of a square root other than zero. -/
def factors (result : SquareRoot) : List String :=
  if result.root = 1 then [rationalText result.part]
  else if result.part = 1 then [radicalText result.root]
  else [rationalText result.part, radicalText result.root]

private theorem not_mem_nat {c : Char} (other : c.isDigit = false) (n : Nat) : c ∉ (toString n).toList := by
  rw [toList_nat]
  intro member
  rw [ascii_of_mem_toDigits member] at other
  cases other

section fraction
variable {r : Rat}

theorem rationalText_eq (r : Rat) : rationalText r = "/".intercalate (numerals r) := by
  rw [rationalText, numerals]
  split
  · rw [String.intercalate_singleton]
  · rw [String.intercalate_cons_cons, String.intercalate_singleton]

theorem not_mem_numerals (nonneg : 0 ≤ r) {c : Char} (other : c.isDigit = false) : ∀ text ∈ numerals r, c ∉ text.toList := by
  obtain ⟨n, same⟩ := Int.eq_ofNat_of_zero_le (Rat.num_nonneg.mpr nonneg)
  have above : c ∉ (toString r.num).toList := same ▸ not_mem_nat other n
  unfold numerals
  split
  · exact List.forall_mem_singleton.mpr above
  · exact List.forall_mem_cons.mpr ⟨above, List.forall_mem_singleton.mpr (not_mem_nat other r.den)⟩

private theorem cutAt_rationalText (nonneg : 0 ≤ r) : cutAt '/' (rationalText r).toList = (numerals r).map String.toList := by
  have given : numerals r ≠ [] := by
    unfold numerals
    split
    · exact List.cons_ne_nil _ _
    · exact List.cons_ne_nil _ _
  rw [rationalText_eq]
  exact cutAt_intercalate given (not_mem_numerals nonneg (by decide)) rfl

private theorem fraction?_rationalText (nonneg : 0 ≤ r) : fraction? (rationalText r).toList = some r := by
  obtain ⟨n, same⟩ := Int.eq_ofNat_of_zero_le (Rat.num_nonneg.mpr nonneg)
  have above : decimal? (toString r.num).toList = some n := same ▸ decimal?_nat n
  have quotient : (n : Rat) / r.den = r := by
    have parts := Rat.num_div_den r
    rwa [same, Int.cast_natCast] at parts
  rw [fraction?, cutAt_rationalText nonneg, numerals]
  by_cases whole : r.den = 1
  · rw [whole, Nat.cast_one, div_one] at quotient
    rw [if_pos whole]
    simp only [List.map_cons, List.map_nil, above, Option.map_some, quotient]
  · rw [if_neg whole]
    simp only [List.map_cons, List.map_nil, above, decimal?_nat, bind, Option.bind, if_neg r.den_nz, quotient]

/-- A fraction begins with a digit, and not as a root does. -/
private theorem radicand?_rationalText (nonneg : 0 ≤ r) : radicand? (rationalText r).toList = none := by
  obtain ⟨n, same⟩ := Int.eq_ofNat_of_zero_le (Rat.num_nonneg.mpr nonneg)
  obtain ⟨first, others, digits, ascii⟩ := exists_cons_toDigits n
  have opens : ∃ rest, (rationalText r).toList = first :: rest := by
    have number : (toString r.num).toList = first :: others := by rw [same, ← digits]; exact toList_nat n
    unfold rationalText
    split
    · exact ⟨others, number⟩
    · rw [String.toList_append, String.toList_append, number]
      exact ⟨_, rfl⟩
  obtain ⟨rest, shape⟩ := opens
  rw [shape]
  unfold radicand?
  split
  next letters =>
    cases letters
    cases ascii
  next => rfl

end fraction

private theorem toList_radicalText (root : Int) :
    (radicalText root).toList = 's' :: 'q' :: 'r' :: 't' :: '(' :: ((toString root).toList ++ [')']) := by
  rw [radicalText, String.toList_append, String.toList_append]
  rfl

private theorem radicand?_radicalText (t : Nat) : radicand? (radicalText t).toList = some (t : Int) := by
  have number : decimal? (toString (t : Int)).toList = some t := decimal?_nat t
  rw [toList_radicalText, radicand?, if_pos List.getLast?_concat, List.dropLast_concat, number]
  rfl

private theorem lacks_radicalText (root : Int) : Lacks ' ' (radicalText root) := by
  rw [radicalText, lacks_append, lacks_append]
  exact ⟨⟨by decide, not_mem_int (by decide) root⟩, by decide⟩

section
variable {result : SquareRoot} (nonneg : 0 ≤ result.part) (zero : result.part = 0 → result.root = 1)
include zero

private theorem text_eq_intercalate : result.text = timesSign.intercalate (factors result) := by
  rw [text, factors]
  by_cases none : result.part = 0
  · rw [if_pos none, if_pos (zero none), String.intercalate_singleton, none]
    rfl
  · rw [if_neg none]
    split
    · rw [String.intercalate_singleton]
    · split
      · rw [String.intercalate_singleton]
        rfl
      · have opening : " * sqrt(" = timesSign ++ "sqrt(" := rfl
        rw [String.intercalate_cons_cons, String.intercalate_singleton, radicalText, opening]
        simp only [String.append_assoc]

include nonneg

private theorem cutBetween_text : cutBetween timesSign.toList result.text.toList = (factors result).map String.toList := by
  have fraction : ' ' ∉ (rationalText result.part).toList := by
    rw [rationalText_eq]
    exact Lacks.intercalate (by decide) (not_mem_numerals nonneg (by decide))
  have radical := lacks_radicalText result.root
  rw [text_eq_intercalate zero, factors]
  split
  · exact cutBetween_intercalate (List.cons_ne_nil _ _) (List.forall_mem_singleton.mpr fraction) rfl
  · split
    · exact cutBetween_intercalate (List.cons_ne_nil _ _) (List.forall_mem_singleton.mpr radical) rfl
    · exact cutBetween_intercalate (List.cons_ne_nil _ _)
        (List.forall_mem_cons.mpr ⟨fraction, List.forall_mem_singleton.mpr radical⟩) rfl

theorem read?_text (natural : 0 ≤ result.root) : read? result.text = some result := by
  obtain ⟨part, root⟩ := result
  lift root to Nat using natural
  rw [read?, cutBetween_text nonneg zero, factors]
  dsimp only at nonneg zero ⊢
  by_cases square : (root : Int) = 1
  · rw [if_pos square]
    simp only [List.map_cons, List.map_nil, radicand?_rationalText nonneg, fraction?_rationalText nonneg, Option.map_some, square]
  · rw [if_neg square]
    by_cases one : part = 1
    · rw [if_pos one]
      simp only [List.map_cons, List.map_nil, radicand?_radicalText, one]
    · rw [if_neg one]
      simp only [List.map_cons, List.map_nil, fraction?_rationalText nonneg, radicand?_radicalText, bind, Option.bind]

end

/-- The answer for the root of a narrow number that is not negative, given as an integer or a fraction. -/
structure Answers (result : SquareRoot) (v : Value) (r : Rat) : Prop where
  denotes : v.Denotes r
  narrow : Narrow r
  nonneg : 0 ≤ r
  found : Calculator.squareRoot v = .ok (some result)

namespace Answers
variable {result : SquareRoot} {v : Value} {r : Rat} (answers : result.Answers v r)
include answers

theorem eq_exactRoot : result = exactRoot r := by
  have found := answers.found
  rw [Calculator.squareRoot_eq answers.denotes answers.narrow answers.nonneg] at found
  split at found
  · cases found
  · cases found
    rfl

theorem square : result.part * result.part * result.root = r := by
  rw [answers.eq_exactRoot]
  exact exactRoot_square answers.nonneg

theorem readBack : read? result.text = some result := by
  obtain ⟨root, same, -⟩ := exists_exactRoot_root answers.nonneg
  have exact := answers.eq_exactRoot
  have nonneg : 0 ≤ result.part := exact ▸ exactRoot_part_nonneg answers.nonneg
  have natural : 0 ≤ result.root := by
    rw [exact, same]
    exact Int.natCast_nonneg root
  refine read?_text nonneg ?_ natural
  intro none
  have zero : r = 0 := by rw [← answers.square, none, zero_mul, zero_mul]
  rw [exact, zero, exactRoot_zero]

end Answers

private theorem Answers.ofExact {v : Value} {r : Rat} (denotes : v.Denotes r) (narrow : Narrow r) (positive : 0 < r)
    (small : r.num * r.den ≤ wordMax) {s : Rat} {t : Nat} (nonneg : 0 ≤ s) (free : Squarefree t) (square : s * s * t = r) :
    Answers ⟨s, t⟩ v r := by
  refine ⟨denotes, narrow, positive.le, ?_⟩
  have bound : (oddPart r.den : Int) ≤ r.den := Int.ofNat_le.mpr (Nat.le_of_dvd r.den_pos (oddPart_dvd r.den_nz))
  have word : r.num * oddPart r.den ≤ wordMax :=
    (Int.mul_le_mul_of_nonneg_left bound (Rat.num_nonneg.mpr positive.le)).trans small
  obtain ⟨part, root⟩ := exactRoot_unique positive.le positive nonneg free square
  rw [Calculator.squareRoot_eq denotes narrow positive.le, if_neg (Int.not_lt.mpr word), part, root]

/-- The text of an exact root is read back as that root, whose square is the number. So numbers whose roots are
written alike are the same. -/
theorem text_determines :
    (∀ (result : SquareRoot) v r, result.Answers v r →
      read? result.text = some result ∧ result.part * result.part * result.root = r) ∧
      ∀ (first second : SquareRoot) v w r s, first.Answers v r → second.Answers w s → first.text = second.text → r = s := by
  refine ⟨fun result v r answers => ⟨answers.readBack, answers.square⟩, ?_⟩
  intro first second v w r s answers others same
  have read : some first = some second := by rw [← answers.readBack, same, others.readBack]
  rw [← answers.square, ← others.square, Option.some.inj read]

/-- A fraction before a root, and a root alone. -/
theorem text_determines_mixed_forms :
    let first : SquareRoot := ⟨1 / 12, 10⟩
    let second : SquareRoot := ⟨1, 10⟩
    read? first.text = some first ∧ first.Answers (.fraction (5 / 72)) (5 / 72) ∧ second.Answers (.int 10) 10 ∧
      first.text ≠ second.text := by
  intro first second
  have free : Squarefree 10 := by decide +kernel
  have answers : first.Answers (.fraction (5 / 72)) (5 / 72) :=
    .ofExact (.inl rfl) (by decide +kernel) (by norm_num) (by decide +kernel) (by norm_num) free (by norm_num)
  have others : second.Answers (.int 10) 10 :=
    .ofExact (.inr ⟨10, rfl, by norm_num⟩) (by decide +kernel) (by norm_num) (by decide +kernel) (by norm_num) free (by norm_num)
  obtain ⟨reads, determines⟩ := text_determines
  refine ⟨(reads first _ _ answers).1, answers, others, fun same => ?_⟩
  have impossible := determines first second _ _ _ _ answers others same
  norm_num at impossible

end SquareRoot
end Surd
