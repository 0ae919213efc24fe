import Mathlib.Data.List.Basic
import Mathlib.Data.List.TakeWhile
import Surd.Numeral

/-! What is left of a typed text before it is read: the blanks at both ends are dropped, and then the marks
that group digits. What is left is told by how the text is put together, without the order in which its
characters are gone through. -/

namespace Surd
namespace Text

section
variable {p : Char → Bool} {text front rest : List Char}

/-- A text is cut in only one way behind the characters of a kind at its front. -/
theorem span_iff : text.takeWhile p = front ∧ text.dropWhile p = rest ↔
    text = front ++ rest ∧ (∀ c ∈ front, p c = true) ∧ ∀ c ∈ rest.head?, p c = false := by
  constructor
  · rintro ⟨rfl, rfl⟩
    refine ⟨List.takeWhile_append_dropWhile.symm, fun c => List.mem_takeWhile_imp, fun c head => ?_⟩
    have stop := List.head?_dropWhile_not p text
    rw [Option.mem_def.mp head] at stop
    exact stop
  · rintro ⟨rfl, kind, stop⟩
    have behind : rest.takeWhile p = [] ∧ rest.dropWhile p = rest := by
      cases rest with
      | nil => exact ⟨rfl, rfl⟩
      | cons c tail =>
        rw [List.takeWhile_cons, List.dropWhile_cons, stop c rfl]
        exact ⟨rfl, rfl⟩
    rw [List.takeWhile_append_of_pos kind, List.dropWhile_append_of_pos kind, behind.1, behind.2, List.append_nil]
    exact ⟨rfl, rfl⟩

theorem dropWhile_eq_iff : text.dropWhile p = rest ↔
    ∃ front, text = front ++ rest ∧ (∀ c ∈ front, p c = true) ∧ ∀ c ∈ rest.head?, p c = false := by
  simp only [← span_iff, exists_eq_left']

end

/-- Nothing but blanks, or nothing at all. -/
def Blank (text : List Char) : Prop := ∀ c ∈ text, isBlank c = true

/-- A text that neither begins nor ends with a blank. -/
structure Trimmed (text : List Char) : Prop where
  head : ∀ c ∈ text.head?, isBlank c = false
  last : ∀ c ∈ text.getLast?, isBlank c = false

theorem Blank.nil : Blank [] := fun _ member => absurd member List.not_mem_nil

theorem strip_eq_iff {text core : List Char} : strip text = core ↔
    ∃ before after, text = before ++ core ++ after ∧ Blank before ∧ Blank after ∧ Trimmed core := by
  constructor
  · rintro rfl
    obtain ⟨before, opened, blankBefore, head⟩ := dropWhile_eq_iff.mp (Eq.refl (text.dropWhile isBlank))
    obtain ⟨back, closed, blankBack, last⟩ :=
      dropWhile_eq_iff.mp (Eq.refl ((text.dropWhile isBlank).reverse.dropWhile isBlank))
    have kept : text.dropWhile isBlank = strip text ++ back.reverse := by
      rw [strip, ← List.reverse_append, ← closed, List.reverse_reverse]
    refine ⟨before, back.reverse, ?_, blankBefore, fun c member => blankBack c (List.mem_reverse.mp member), ?_, ?_⟩
    · rw [List.append_assoc, ← kept, ← opened]
    · intro c first
      apply head c
      rw [kept, List.head?_append, Option.mem_def.mp first]
      rfl
    · intro c final
      apply last c
      rwa [strip, List.getLast?_reverse] at final
  · rintro ⟨before, after, rfl, blankBefore, blankAfter, trimmed⟩
    cases core with
    | nil =>
      have blank : (before ++ [] ++ after).dropWhile isBlank = [] := by
        rw [List.dropWhile_eq_nil_iff, List.append_nil]
        exact List.forall_mem_append.mpr ⟨blankBefore, blankAfter⟩
      rw [strip, blank]
      rfl
    | cons c core =>
      have opened : (before ++ (c :: core) ++ after).dropWhile isBlank = c :: core ++ after :=
        dropWhile_eq_iff.mpr ⟨before, List.append_assoc _ _ _, blankBefore, trimmed.head⟩
      have closed : (c :: core ++ after).reverse.dropWhile isBlank = (c :: core).reverse := by
        refine dropWhile_eq_iff.mpr ⟨after.reverse, List.reverse_append, ?_, ?_⟩
        · exact fun c member => blankAfter c (List.mem_reverse.mp member)
        · rw [List.head?_reverse]
          exact trimmed.last
      rw [strip, opened, closed, List.reverse_reverse]

theorem strip_of_trimmed {text : List Char} (trimmed : Trimmed text) : strip text = text :=
  strip_eq_iff.mpr ⟨[], [], (List.append_nil _).symm, .nil, .nil, trimmed⟩

/-- A character that is no blank can be put anywhere into a trimmed text. -/
theorem Trimmed.insert {before after : List Char} (trimmed : Trimmed (before ++ after)) {mark : Char}
    (solid : isBlank mark = false) : Trimmed (before ++ mark :: after) := by
  constructor
  · cases before with
    | nil =>
      rintro c ⟨⟩
      exact solid
    | cons first rest => exact trimmed.head
  · cases after with
    | nil =>
      rw [List.getLast?_concat]
      rintro c ⟨⟩
      exact solid
    | cons next rest =>
      rw [List.getLast?_append, List.getLast?_cons_cons, ← List.getLast?_append]
      exact trimmed.last

/-- The code points of the blanks. -/
private def blankCodes : List Nat :=
  [9, 10, 11, 12, 13, 28, 29, 30, 31, 32, 0x85, 0xA0, 0x1680, 0x2000, 0x2001, 0x2002, 0x2003, 0x2004, 0x2005, 0x2006,
    0x2007, 0x2008, 0x2009, 0x200A, 0x2028, 0x2029, 0x202F, 0x205F, 0x3000]

theorem isDigit_of_isBlank {c : Char} (blank : isBlank c = true) : isDigit c = false := by
  have listed : c.toNat ∈ blankCodes := by
    simp only [isBlank, Bool.or_eq_true, Bool.and_eq_true, decide_eq_true_eq, beq_iff_eq] at blank
    simp only [blankCodes, List.mem_cons, List.not_mem_nil, or_false]
    omega
  have known : ∀ code ∈ blankCodes, isDigit (Char.ofNat code) = false := by decide
  rw [← Char.ofNat_toNat c]
  exact known c.toNat listed

theorem isBlank_of_isDigit {c : Char} (digit : isDigit c = true) : isBlank c = false := by
  rw [← Bool.not_eq_true]
  intro blank
  rw [isDigit_of_isBlank blank] at digit
  cases digit

/-- Blanks between digits and what is no digit leave the digits their end. -/
theorem Blank.stops {gap rest : List Char} (blank : Blank gap) (stop : ∀ c ∈ rest.head?, isDigit c = false) :
    ∀ c ∈ (gap ++ rest).head?, isDigit c = false := by
  cases gap with
  | nil => exact stop
  | cons first others =>
    rintro c ⟨⟩
    exact isDigit_of_isBlank (blank first List.mem_cons_self)

theorem Blank.stops_end {text : List Char} (blank : Blank text) : ∀ c ∈ text.head?, isDigit c = false :=
  fun c head => isDigit_of_isBlank (blank c (List.mem_of_mem_head? head))

end Text

namespace Numeral
open Text

/-- The marks that group digits. -/
def groupingMarks : List Char := ['_', ',']

/-- What is typed between margins of blanks, without the marks that group digits. -/
def Cleans (text rest : List Char) : Prop :=
  ∃ before core after, text = before ++ core ++ after ∧ Blank before ∧ Blank after ∧ Trimmed core ∧
    rest = core.filter (· ∉ groupingMarks)

theorem clean_eq_filter (text : List Char) : clean text = (strip text).filter (· ∉ groupingMarks) := by
  rw [clean]
  apply List.filter_congr
  intro c _
  by_cases underscore : c = '_' <;> by_cases comma : c = ',' <;> simp [groupingMarks, underscore, comma]

theorem clean_eq_iff {text rest : List Char} : clean text = rest ↔ Cleans text rest := by
  rw [clean_eq_filter]
  constructor
  · rintro rfl
    obtain ⟨before, after, whole, blankBefore, blankAfter, trimmed⟩ := strip_eq_iff.mp (Eq.refl (strip text))
    exact ⟨before, strip text, after, whole, blankBefore, blankAfter, trimmed, rfl⟩
  · rintro ⟨before, core, after, whole, blankBefore, blankAfter, trimmed, rfl⟩
    rw [strip_eq_iff.mpr ⟨before, after, whole, blankBefore, blankAfter, trimmed⟩]

/-- A mark that groups digits changes nothing inside a trimmed text or at its ends. -/
theorem clean_insert {before after : List Char} (trimmed : Trimmed (before ++ after)) {mark : Char}
    (grouping : mark ∈ groupingMarks) : clean (before ++ mark :: after) = clean (before ++ after) := by
  have solid : isBlank mark = false := by
    rcases List.mem_pair.mp grouping with rfl | rfl
    · decide
    · decide
  rw [clean_eq_filter, clean_eq_filter, strip_of_trimmed trimmed, strip_of_trimmed (trimmed.insert solid),
    List.filter_append, List.filter_append, List.filter_cons_of_neg]
  simpa using grouping

end Numeral
end Surd
