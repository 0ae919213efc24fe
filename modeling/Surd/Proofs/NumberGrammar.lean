import Mathlib.Data.Nat.Digits.Defs
import Surd.Proofs.FaultTexts
import Surd.Proofs.TypedTexts

/-! The language of typed numbers. An integer is a sign, or none, and digits; a rational is an integer, or two
with a bar between, and blanks around each. Blanks, signs, digits and the bar have no character in common, so
that a text is put together from these in one way only, and a reader that takes as much as it can at each place
finds it. -/

namespace Surd.Numeral
open Text

/-- The signs that may stand in front of the digits of a number. -/
def signs (negative : Bool) : List (List Char) := if negative then [['-']] else [[], ['+']]

/-- A text is the number's: a sign, and the digits, of which there is at least one. -/
structure Signed.Spells (number : Signed) (text : List Char) : Prop where
  signed : ∃ sign ∈ signs number.negative, text = sign ++ number.digits
  nonempty : number.digits ≠ []
  digits : ∀ c ∈ number.digits, isDigit c = true

/-- The integer that the digits have by their places, with its sign. -/
def Signed.amount (number : Signed) : Int :=
  let magnitude : Nat := Nat.ofDigits 10 (number.digits.map fun c => (digit? c).getD 0).reverse
  if number.negative then -magnitude else magnitude

/-- The bar with the integer behind it, or nothing. -/
inductive Denominator : Option Signed → List Char → Prop where
  | absent : Denominator none []
  | present {number : Signed} {gap text : List Char} : Blank gap → number.Spells text →
      Denominator (some number) ('/' :: (gap ++ text))

/-- A text is the rational's: its numerator and its denominator, and blanks around both. -/
def IsQuotient (numer : Signed) (denom : Option Signed) (text : List Char) : Prop :=
  ∃ gap front middle back last, text = gap ++ front ++ middle ++ back ++ last ∧
    Blank gap ∧ numer.Spells front ∧ Blank middle ∧ Denominator denom back ∧ Blank last

theorem digitsValue_eq_ofDigits (digits : List Char) :
    digitsValue digits = Nat.ofDigits 10 (digits.map fun c => (digit? c).getD 0).reverse := by
  rw [digitsValue, Nat.ofDigits_eq_foldr, List.foldr_reverse, List.foldl_map]
  simp only [Nat.cast_id, Nat.add_comm]

theorem Signed.value_eq_ok_iff {number : Signed} {v : Int} :
    number.value = .ok v ↔ number.digits.length ≤ digitLimit ∧ number.amount = v := by
  rw [Signed.value, ← Nat.not_lt]
  split
  next long => simp [long]
  next short => simp [short, amount, digitsValue_eq_ofDigits]

private theorem eq_of_mem_signs {negative : Bool} {sign : List Char} (signed : sign ∈ signs negative) :
    sign = [] ∨ sign = ['-'] ∨ sign = ['+'] := by
  cases negative with
  | true => exact .inr (.inl (List.mem_singleton.mp signed))
  | false => exact (List.mem_pair.mp signed).imp_right .inr

private theorem takeSign_cases (text : List Char) :
    ∃ sign ∈ signs (takeSign text).1, text = sign ++ (takeSign text).2 := by
  cases text with
  | nil => exact ⟨[], by simp [takeSign, signs], rfl⟩
  | cons c rest =>
    rw [takeSign]
    split
    next minus => exact ⟨['-'], by simp [signs], by rw [minus]; rfl⟩
    next =>
      split
      next plus => exact ⟨['+'], by simp [signs], by rw [plus]; rfl⟩
      next => exact ⟨[], by simp [signs], rfl⟩

theorem takeSign_append {negative : Bool} {sign rest : List Char} (signed : sign ∈ signs negative)
    (digits : ∀ c ∈ rest.head?, isDigit c = true) : takeSign (sign ++ rest) = (negative, rest) := by
  cases negative with
  | true =>
    rw [List.mem_singleton.mp signed]
    rfl
  | false =>
    rcases List.mem_pair.mp signed with rfl | rfl
    · cases rest with
      | nil => rfl
      | cons c rest =>
        have minus : c ≠ '-' := by
          rintro rfl
          exact absurd (digits '-' rfl) (by decide)
        have plus : c ≠ '+' := by
          rintro rfl
          exact absurd (digits '+' rfl) (by decide)
        rw [List.nil_append, takeSign, if_neg minus, if_neg plus]
    · rfl

section
variable {number : Signed} {text rest front : List Char}

theorem takeSigned?_eq_some_iff : takeSigned? text = some (number, rest) ↔
    ∃ front, text = front ++ rest ∧ number.Spells front ∧ ∀ c ∈ rest.head?, isDigit c = false := by
  constructor
  · intro taken
    obtain ⟨sign, signed, whole⟩ := takeSign_cases text
    obtain ⟨cut, digits, stop⟩ := span_iff.mp ⟨Eq.refl ((takeSign text).2.takeWhile isDigit), Eq.refl _⟩
    rw [takeSigned?] at taken
    dsimp only at taken
    split at taken
    next => cases taken
    next some =>
      cases taken
      refine ⟨sign ++ (takeSign text).2.takeWhile isDigit, ?_, ⟨⟨sign, signed, rfl⟩, ?_, digits⟩, stop⟩
      · rw [List.append_assoc, ← cut, ← whole]
      · exact fun empty => some (List.isEmpty_iff.mpr empty)
  · rintro ⟨front, rfl, ⟨⟨sign, signed, rfl⟩, nonempty, digits⟩, stop⟩
    have first : ∀ c ∈ (number.digits ++ rest).head?, isDigit c = true := by
      obtain ⟨c, others, shape⟩ := List.exists_cons_of_ne_nil nonempty
      rw [shape]
      rintro d ⟨⟩
      exact digits c (shape ▸ List.mem_cons_self)
    obtain ⟨taken, left⟩ := span_iff.mpr ⟨rfl, digits, stop⟩
    rw [takeSigned?, List.append_assoc, takeSign_append signed first]
    simp only [taken, left, List.isEmpty_eq_false_iff.mpr nonempty]
    rfl

/-- A number's text begins with a character that is no blank. -/
theorem Signed.Spells.head (spells : number.Spells front) (rest : List Char) :
    ∀ c ∈ (front ++ rest).head?, isBlank c = false := by
  obtain ⟨⟨sign, signed, rfl⟩, nonempty, digits⟩ := spells
  rcases eq_of_mem_signs signed with rfl | rfl | rfl
  · obtain ⟨first, others, shape⟩ := List.exists_cons_of_ne_nil nonempty
    rw [shape]
    rintro c ⟨⟩
    exact isBlank_of_isDigit (digits first (shape ▸ List.mem_cons_self))
  all_goals
    rintro c ⟨⟩
    decide

theorem skipBlanks_eq_nil_iff : skipBlanks text = [] ↔ Blank text := List.dropWhile_eq_nil_iff

theorem skipBlanks_append {gap : List Char} (blank : Blank gap) (solid : ∀ c ∈ rest.head?, isBlank c = false) :
    skipBlanks (gap ++ rest) = rest := dropWhile_eq_iff.mpr ⟨gap, rfl, blank, solid⟩

theorem takeSigned?_skipBlanks_eq_some_iff : takeSigned? (skipBlanks text) = some (number, rest) ↔
    ∃ gap front, text = gap ++ front ++ rest ∧ Blank gap ∧ number.Spells front ∧ ∀ c ∈ rest.head?, isDigit c = false := by
  constructor
  · intro taken
    obtain ⟨gap, opened, blank, -⟩ := dropWhile_eq_iff.mp (Eq.refl (skipBlanks text))
    obtain ⟨front, whole, spells, stop⟩ := takeSigned?_eq_some_iff.mp taken
    exact ⟨gap, front, by rw [List.append_assoc, ← whole, ← opened], blank, spells, stop⟩
  · rintro ⟨gap, front, rfl, blank, spells, stop⟩
    rw [List.append_assoc, skipBlanks_append blank (spells.head rest)]
    exact takeSigned?_eq_some_iff.mpr ⟨front, rfl, spells, stop⟩

theorem integer?_eq_some_iff : integer? text = some number ↔
    ∃ front tail, text = front ++ tail ∧ number.Spells front ∧ (tail = [] ∨ tail = ['\n']) := by
  unfold integer?
  constructor
  · intro read
    split at read
    next taken rest found =>
      split at read
      next tail =>
        cases read
        obtain ⟨front, whole, spells, -⟩ := takeSigned?_eq_some_iff.mp found
        exact ⟨front, rest, whole, spells, tail⟩
      next => cases read
    next => cases read
  · rintro ⟨front, tail, whole, spells, last⟩
    have stop : ∀ c ∈ tail.head?, isDigit c = false := by
      rcases last with rfl | rfl
      · rintro c ⟨⟩
      · rintro c ⟨⟩
        decide
    rw [takeSigned?_eq_some_iff.mpr ⟨front, whole, spells, stop⟩]
    exact if_pos last

theorem denominator?_eq_some_iff : denominator? text = some number ↔
    ∃ gap front last, text = gap ++ front ++ last ∧ Blank gap ∧ number.Spells front ∧ Blank last := by
  unfold denominator?
  constructor
  · intro read
    split at read
    next taken rest found =>
      split at read
      next last =>
        cases read
        obtain ⟨gap, front, whole, blank, spells, -⟩ := takeSigned?_skipBlanks_eq_some_iff.mp found
        exact ⟨gap, front, rest, whole, blank, spells, skipBlanks_eq_nil_iff.mp last⟩
      next => cases read
    next => cases read
  · rintro ⟨gap, front, last, whole, blank, spells, blankLast⟩
    rw [takeSigned?_skipBlanks_eq_some_iff.mpr ⟨gap, front, whole, blank, spells, blankLast.stops_end⟩]
    exact if_pos (skipBlanks_eq_nil_iff.mpr blankLast)

/-- What stands behind the first integer begins with no digit. -/
theorem Denominator.stops {denom : Option Signed} {back last : List Char} (denominator : Denominator denom back)
    (blank : Blank last) : ∀ c ∈ (back ++ last).head?, isDigit c = false := by
  cases denominator with
  | absent => exact blank.stops_end
  | present =>
    rintro c ⟨⟩
    decide

theorem rational?_eq_some_iff {denom : Option Signed} :
    rational? text = some (number, denom) ↔ IsQuotient number denom text := by
  unfold rational?
  constructor
  · intro read
    split at read
    next numer rest found =>
      obtain ⟨gap, front, whole, blank, spells, -⟩ := takeSigned?_skipBlanks_eq_some_iff.mp found
      split at read
      next all =>
        cases read
        exact ⟨gap, front, rest, [], [], by simpa using whole, blank, spells, skipBlanks_eq_nil_iff.mp all, .absent, .nil⟩
      next c after behind =>
        obtain ⟨middle, cut, blankMiddle, -⟩ := dropWhile_eq_iff.mp behind
        split at read
        next bar =>
          obtain ⟨other, below, same⟩ := Option.map_eq_some_iff.mp read
          cases same
          obtain ⟨gapBelow, frontBelow, last, rfl, blankGap, spellsBelow, blankLast⟩ := denominator?_eq_some_iff.mp below
          refine ⟨gap, front, middle, _, last, ?_, blank, spells, blankMiddle, .present blankGap spellsBelow, blankLast⟩
          rw [whole, cut, bar]
          simp only [List.append_assoc, List.cons_append]
        next => cases read
    next => cases read
  · rintro ⟨gap, front, middle, back, last, whole, blank, spells, blankMiddle, denominator, blankLast⟩
    have cut : text = gap ++ front ++ (middle ++ (back ++ last)) := by
      rw [whole]
      simp only [List.append_assoc]
    rw [takeSigned?_skipBlanks_eq_some_iff.mpr
      ⟨gap, front, cut, blank, spells, blankMiddle.stops (denominator.stops blankLast)⟩]
    dsimp only
    cases denominator with
    | absent =>
      rw [List.nil_append, skipBlanks_eq_nil_iff.mpr (List.forall_mem_append.mpr ⟨blankMiddle, blankLast⟩)]
    | @present other gapBelow frontBelow blankGap spellsBelow =>
      have bar : skipBlanks (middle ++ ('/' :: (gapBelow ++ frontBelow) ++ last)) = '/' :: (gapBelow ++ frontBelow ++ last) :=
        skipBlanks_append blankMiddle (by rintro c ⟨⟩; decide)
      rw [bar]
      dsimp only
      rw [if_pos rfl, denominator?_eq_some_iff.mpr ⟨gapBelow, frontBelow, last, rfl, blankGap, spellsBelow, blankLast⟩]
      rfl

end

/-- An integer's text is a rational's, too. The line end that may stand behind it is a blank there. -/
theorem rational?_of_integer? {text : List Char} {number : Signed} (read : integer? text = some number) :
    rational? text = some (number, none) := by
  obtain ⟨front, tail, rfl, spells, last⟩ := integer?_eq_some_iff.mp read
  have blank : Blank tail := by
    rcases last with rfl | rfl
    · exact .nil
    · exact List.forall_mem_singleton.mpr (by decide)
  exact rational?_eq_some_iff.mpr ⟨[], front, tail, [], [], by simp, .nil, spells, blank, .absent, .nil⟩

/-- A denominator that is left out is one. -/
private theorem denominator_eq_ok_iff {second : Option Signed} {b : Int} : (second.map Signed.value).getD (.ok 1) = .ok b ↔
    (∀ other, second = some other → other.digits.length ≤ digitLimit) ∧ (second.map Signed.amount).getD 1 = b := by
  cases second with
  | none => simp
  | some other => simp [Signed.value_eq_ok_iff]

theorem readWord_eq_ok_iff {label text : String} {v : Nat} : readWord label text = .ok v ↔
    ∃ number, integer? (clean text.toList) = some number ∧ number.digits.length ≤ digitLimit ∧ number.amount = v ∧
      v ≤ wordMax := by
  rw [readWord]
  cases integer? (clean text.toList) with
  | none => simp
  | some number =>
    simp only [bind_eq_ok_iff, Signed.value_eq_ok_iff, Option.some.injEq, exists_eq_left', and_assoc, exists_and_left]
    refine and_congr_right fun _ => ?_
    split
    next word =>
      rw [Except.ok.injEq]
      omega
    next outside =>
      simp only [reduceCtorEq, false_iff]
      omega

theorem le_wordMax_of_readWord {label text : String} {v : Nat} (read : readWord label text = .ok v) : v ≤ wordMax := by
  obtain ⟨_, -, -, -, word⟩ := readWord_eq_ok_iff.mp read
  exact word

theorem readRational_eq_ok_iff {text : String} {a b : Int} : readRational text = .ok (a, b) ↔
    ∃ numer denom, rational? (clean text.toList) = some (numer, denom) ∧ numer.digits.length ≤ digitLimit ∧
      (∀ other, denom = some other → other.digits.length ≤ digitLimit) ∧ numer.amount = a ∧
      (denom.map Signed.amount).getD 1 = b ∧ b ≠ 0 ∧ FitsPart a ∧ FitsPart b := by
  rw [readRational]
  cases rational? (clean text.toList) with
  | none => simp
  | some parts =>
    obtain ⟨numer, denom⟩ := parts
    simp only [bind_eq_ok_iff, Signed.value_eq_ok_iff, denominator_eq_ok_iff]
    constructor
    · rintro ⟨_, ⟨short, rfl⟩, _, ⟨shortBelow, rfl⟩, answered⟩
      split at answered
      next => cases answered
      next nonzero =>
        rw [checkPart, guard_bind_eq_ok_iff, checkPart, guard_bind_eq_ok_iff] at answered
        obtain ⟨fitsNumer, fitsDenom, same⟩ := answered
        cases same
        exact ⟨numer, denom, rfl, short, shortBelow, rfl, rfl, nonzero, fitsNumer, fitsDenom⟩
    · rintro ⟨_, _, same, short, shortBelow, rfl, rfl, nonzero, fitsNumer, fitsDenom⟩
      cases same
      refine ⟨_, ⟨short, rfl⟩, _, ⟨shortBelow, rfl⟩, ?_⟩
      rw [if_neg nonzero, checkPart, guard_bind_eq_ok_iff, checkPart, guard_bind_eq_ok_iff]
      exact ⟨fitsNumer, fitsDenom, rfl⟩

/-- The words that are read, and the texts that they are read from. Without blanks at its ends, a text keeps
its word, or stays without one, when a mark that groups digits is put anywhere into it. -/
theorem readWord_accepts (label : String) :
    (∀ text v, readWord label text = .ok v ↔
      ∃ rest front tail, ∃ number : Signed, Cleans text.toList rest ∧ rest = front ++ tail ∧ number.Spells front ∧
        number.digits.length ≤ digitLimit ∧ (tail = [] ∨ tail = ['\n']) ∧ number.amount = v ∧ v ≤ wordMax) ∧
      ∀ before after mark, mark ∈ groupingMarks → Trimmed (before ++ after).toList → ∀ v,
        readWord label (before ++ String.singleton mark ++ after) = .ok v ↔ readWord label (before ++ after) = .ok v := by
  constructor
  · intro text v
    rw [readWord_eq_ok_iff]
    constructor
    · rintro ⟨number, found, short, amount, word⟩
      obtain ⟨front, tail, whole, spells, last⟩ := integer?_eq_some_iff.mp found
      exact ⟨_, front, tail, number, clean_eq_iff.mp rfl, whole, spells, short, last, amount, word⟩
    · rintro ⟨rest, front, tail, number, cleans, whole, spells, short, last, amount, word⟩
      rw [clean_eq_iff.mpr cleans]
      exact ⟨number, integer?_eq_some_iff.mpr ⟨front, tail, whole, spells, last⟩, short, amount, word⟩
  · intro before after mark grouping trimmed v
    rw [String.toList_append] at trimmed
    have same := clean_insert trimmed grouping
    rw [readWord_eq_ok_iff, readWord_eq_ok_iff]
    simp only [String.toList_append, String.toList_singleton, List.append_assoc, List.singleton_append, same]

/-- Digits of two scripts, a mark between them, and a line end that a mark shields from being dropped. -/
theorem readWord_accepts_two_scripts :
    readWord "number" "+\u06612\n_" = .ok 12 ∧ readWord "number" "+\u0661,2\n_" = .ok 12 := by
  obtain ⟨accepts, grouped⟩ := readWord_accepts "number"
  have letters : "+\u06612\n_".toList = ['+', '\u0661', '2', '\n', '_'] := by decide +kernel
  have cleans : Cleans "+\u06612\n_".toList ['+', '\u0661', '2', '\n'] := clean_eq_iff.mp (by decide +kernel)
  have spells : Signed.Spells ⟨false, ['\u0661', '2']⟩ ['+', '\u0661', '2'] :=
    ⟨⟨['+'], by decide, rfl⟩, by decide, List.all_eq_true.mp (by decide)⟩
  have read : readWord "number" "+\u06612\n_" = .ok 12 :=
    (accepts _ 12).mpr ⟨_, _, ['\n'], _, cleans, rfl, spells, by decide, .inr rfl, by decide, by decide⟩
  have trimmed : Trimmed ("+\u0661" ++ "2\n_").toList := by
    constructor
    · rintro c ⟨⟩
      decide
    · rintro c ⟨⟩
      decide
  refine ⟨read, ?_⟩
  exact (grouped "+\u0661" "2\n_" ',' (by decide) trimmed 12).mpr read

/-- The rationals that are read, and the texts that they are read from. Where a word that is also a part is
read, it is read as a rational over one. -/
theorem readRational_accepts :
    (∀ text a b, readRational text = .ok (a, b) ↔
      ∃ rest, ∃ numer : Signed, ∃ denom : Option Signed, Cleans text.toList rest ∧ IsQuotient numer denom rest ∧
        numer.digits.length ≤ digitLimit ∧ (∀ other, denom = some other → other.digits.length ≤ digitLimit) ∧
        numer.amount = a ∧ (denom.map Signed.amount).getD 1 = b ∧ b ≠ 0 ∧ FitsPart a ∧ FitsPart b) ∧
      ∀ label text v, readWord label text = .ok v → (v : Int) ≤ partMax → readRational text = .ok (v, 1) := by
  constructor
  · intro text a b
    rw [readRational_eq_ok_iff]
    constructor
    · rintro ⟨numer, denom, found, facts⟩
      exact ⟨_, numer, denom, clean_eq_iff.mp rfl, rational?_eq_some_iff.mp found, facts⟩
    · rintro ⟨rest, numer, denom, cleans, quotient, facts⟩
      rw [clean_eq_iff.mpr cleans]
      exact ⟨numer, denom, rational?_eq_some_iff.mpr quotient, facts⟩
  · intro label text v read small
    obtain ⟨number, found, short, amount, -⟩ := readWord_eq_ok_iff.mp read
    have fits : FitsPart v := ⟨Int.le_trans (by decide) (Int.natCast_nonneg v), small⟩
    exact readRational_eq_ok_iff.mpr ⟨number, none, rational?_of_integer? found, short, (by rintro _ ⟨⟩), amount, rfl,
      by decide, fits, by decide⟩

theorem readRational_accepts_shielded_line_end :
    readWord "number" "+3\n," = .ok 3 ∧ readRational "+3\n," = .ok (3, 1) := by
  obtain ⟨-, words⟩ := readRational_accepts
  have cleaned : integer? (clean "+3\n,".toList) = some ⟨false, ['3']⟩ := by decide +kernel
  have read : readWord "number" "+3\n," = .ok 3 :=
    readWord_eq_ok_iff.mpr ⟨_, cleaned, by decide, by decide, by decide⟩
  exact ⟨read, words "number" _ 3 read (by decide)⟩

end Surd.Numeral
