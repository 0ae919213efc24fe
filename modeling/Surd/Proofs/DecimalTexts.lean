import Surd.Proofs.NumberGrammar

/-! Decimal texts read back. What is written for an integer holds a sign and ASCII digits only, so that
it is a text of the integer for the readers as well, and the digits give the integer again. Integers of
the ranges of the library have far fewer digits than are read. -/

namespace Surd
namespace Text

theorem digit?_of_ascii {c : Char} (ascii : c.isDigit = true) : digit? c = some (c.toNat - 48) := by
  have range := Char.isDigit_iff_toNat.mp ascii
  have small : c.toNat < 128 := by
    have last : '9'.toNat = 57 := rfl
    omega
  rw [digit?, if_pos small, if_pos ascii]

theorem isDigit_of_ascii {c : Char} (ascii : c.isDigit = true) : isDigit c = true := by
  rw [isDigit, digit?_of_ascii ascii]
  rfl

private theorem digitsValue_of_ascii {digits : List Char} (ascii : ∀ c ∈ digits, c.isDigit = true) :
    digitsValue digits = Nat.ofDigitChars 10 digits 0 := by
  have folded : ∀ before, digits.foldl (fun value c => 10 * value + (digit? c).getD 0) before =
      Nat.ofDigitChars 10 digits before := by
    induction digits with
    | nil =>
      intro before
      rw [Nat.ofDigitChars_nil]
      rfl
    | cons c rest ih =>
      intro before
      rw [List.foldl_cons, digit?_of_ascii (ascii c List.mem_cons_self), Nat.ofDigitChars_cons,
        ih fun d member => ascii d (List.mem_cons_of_mem c member)]
      rfl
  exact folded 0

theorem ascii_of_mem_toDigits {n : Nat} {c : Char} (member : c ∈ Nat.toDigits 10 n) : c.isDigit = true :=
  Nat.isDigit_of_mem_toDigits (by decide) (by decide) member

theorem exists_cons_toDigits (n : Nat) : ∃ first others, Nat.toDigits 10 n = first :: others ∧ first.isDigit = true := by
  obtain ⟨first, others, digits⟩ := List.exists_cons_of_ne_nil (Nat.toDigits_ne_nil (n := n) (b := 10))
  exact ⟨first, others, digits, ascii_of_mem_toDigits (digits ▸ List.mem_cons_self)⟩

theorem digitsValue_toDigits (n : Nat) : digitsValue (Nat.toDigits 10 n) = n := by
  rw [digitsValue_of_ascii fun _ => ascii_of_mem_toDigits, Nat.ofDigitChars_ten_toDigits]

theorem length_toDigits_le_iff {n limit : Nat} (positive : 0 < limit) :
    (Nat.toDigits 10 n).length ≤ limit ↔ n < Nat.pow 10 limit :=
  Nat.length_toDigits_le_iff (by decide) positive

theorem length_toDigits_mono {m n : Nat} (le : m ≤ n) : (Nat.toDigits 10 m).length ≤ (Nat.toDigits 10 n).length := by
  have positive : 0 < (Nat.toDigits 10 n).length := List.length_pos_of_ne_nil Nat.toDigits_ne_nil
  rw [length_toDigits_le_iff positive]
  exact Nat.lt_of_le_of_lt le ((length_toDigits_le_iff positive).mp (Nat.le_refl _))

theorem length_toDigits_pow {limit : Nat} (positive : 0 < limit) :
    (Nat.toDigits 10 (Nat.pow 10 limit)).length = limit + 1 := by
  have many : ¬(Nat.toDigits 10 (Nat.pow 10 limit)).length ≤ limit := by
    rw [length_toDigits_le_iff positive]
    exact Nat.lt_irrefl _
  have most : (Nat.toDigits 10 (Nat.pow 10 limit)).length ≤ limit + 1 := by
    rw [length_toDigits_le_iff (Nat.succ_pos limit)]
    exact Nat.pow_lt_pow_right (by decide) (Nat.lt_succ_self limit)
  omega

theorem toList_nat (n : Nat) : (toString n).toList = Nat.toDigits 10 n := Nat.toList_repr

theorem toList_int (n : Int) : (toString n).toList = (if n < 0 then ['-'] else []) ++ Nat.toDigits 10 n.natAbs := by
  cases n with
  | ofNat n => exact toList_nat n
  | negSucc n =>
    change ("-" ++ (n + 1).repr).toList = _
    rw [String.toList_append, Nat.toList_repr, if_pos (Int.negSucc_lt_zero n)]
    rfl

theorem head?_int_append {n : Int} (nonneg : 0 ≤ n) (rest : String) :
    ∃ c, (toString n ++ rest).toList.head? = some c ∧ c ≠ '-' := by
  obtain ⟨first, others, digits, ascii⟩ := exists_cons_toDigits n.natAbs
  refine ⟨first, ?_, ?_⟩
  · rw [String.toList_append, toList_int, if_neg (Int.not_lt.mpr nonneg), digits]
    rfl
  · rintro rfl
    cases ascii

/-- The characters of numbers and of the bar between two of them. -/
def isPlain (c : Char) : Bool := c.isDigit || c == '-' || c == '/'

theorem not_isBlank_of_plain {c : Char} (plain : isPlain c = true) : isBlank c = false := by
  have known : ∀ n < 58, isPlain (Char.ofNat n) = true → isBlank (Char.ofNat n) = false := by decide
  have small : c.toNat < 58 := by
    simp only [isPlain, Bool.or_eq_true, beq_iff_eq] at plain
    rcases plain with (ascii | rfl) | rfl
    · exact Nat.lt_succ_of_le (Char.isDigit_iff_toNat.mp ascii).2
    · decide
    · decide
  rw [← Char.ofNat_toNat c] at plain ⊢
  exact known c.toNat small plain

theorem trimmed_of_plain {text : List Char} (plain : ∀ c ∈ text, isPlain c = true) : Trimmed text where
  head c first := not_isBlank_of_plain (plain c (List.mem_of_mem_head? first))
  last c final := not_isBlank_of_plain (plain c (List.mem_of_mem_getLast? final))

theorem plain_int (n : Int) : ∀ c ∈ (toString n).toList, isPlain c = true := by
  intro c member
  rw [toList_int, List.mem_append] at member
  rcases member with sign | digit
  · split at sign
    · rw [List.mem_singleton.mp sign]
      rfl
    · cases sign
  · rw [isPlain, ascii_of_mem_toDigits digit]
    rfl

theorem not_mem_int {c : Char} (other : isPlain c = false) (n : Int) : c ∉ (toString n).toList := by
  intro member
  rw [plain_int n c member] at other
  cases other

/-- The number that a text of ASCII digits spells. -/
def decimal? (text : List Char) : Option Nat :=
  if !text.isEmpty && text.all Char.isDigit then some (digitsValue text) else none

theorem decimal?_nat (n : Nat) : decimal? (toString n).toList = some n := by
  have ascii : (!(Nat.toDigits 10 n).isEmpty && (Nat.toDigits 10 n).all Char.isDigit) = true := by
    rw [Bool.and_eq_true, Bool.not_eq_true', List.isEmpty_eq_false_iff, List.all_eq_true]
    exact ⟨Nat.toDigits_ne_nil, fun _ => ascii_of_mem_toDigits⟩
  rw [toList_nat, decimal?, if_pos ascii, digitsValue_toDigits]

private theorem not_isMargin_of_plain {c : Char} (plain : isPlain c = true) : isMargin c = false := by
  have blank := not_isBlank_of_plain plain
  refine Bool.eq_false_iff.mpr fun margin => ?_
  have widened : isBlank c = true := by
    simp only [isMargin, isBlank, Bool.or_eq_true, Bool.and_eq_true, decide_eq_true_eq, beq_iff_eq] at margin ⊢
    omega
  rw [blank] at widened
  cases widened

private theorem dropMargins_of_plain {text : List Char} (plain : ∀ c ∈ text, isPlain c = true) : text.dropWhile isMargin = text := by
  cases text with
  | nil => rfl
  | cons c rest =>
    refine List.dropWhile_cons_of_neg ?_
    rw [not_isMargin_of_plain (plain c List.mem_cons_self)]
    exact Bool.false_ne_true

private theorem grouped_of_digits {digits : List Char} (each : ∀ c ∈ digits, isDigit c = true) :
    grouped isDigit digits = (digits, []) := by
  induction digits with
  | nil => rfl
  | cons c rest ih =>
    obtain ⟨first, others⟩ := List.forall_mem_cons.mp each
    cases rest with
    | nil => rw [grouped, if_pos first]
    | cons d rest => rw [grouped, if_pos first, ih others]

end Text

namespace Numeral
open Text

theorem clean_of_plain {text : List Char} (plain : ∀ c ∈ text, isPlain c = true) : clean text = text := by
  rw [clean_eq_filter, strip_of_trimmed (trimmed_of_plain plain), List.filter_eq_self]
  intro c member
  rw [decide_eq_true_eq]
  intro grouping
  have proper := plain c member
  rcases List.mem_pair.mp grouping with rfl | rfl
  · cases proper
  · cases proper

/-- An integer as its own text is read. -/
def printed (n : Int) : Signed := ⟨decide (n < 0), Nat.toDigits 10 n.natAbs⟩

theorem spells_printed (n : Int) : (printed n).Spells (toString n).toList := by
  refine ⟨⟨_, ?_, toList_int n⟩, Nat.toDigits_ne_nil, fun c member => isDigit_of_ascii (ascii_of_mem_toDigits member)⟩
  by_cases negative : n < 0
  · rw [if_pos negative, printed, decide_eq_true negative]
    exact List.mem_cons_self
  · rw [if_neg negative, printed, decide_eq_false negative]
    exact List.mem_cons_self

theorem amount_printed (n : Int) : (printed n).amount = n := by
  simp only [Signed.amount, ← digitsValue_eq_ofDigits, printed, digitsValue_toDigits, decide_eq_true_eq]
  split
  next negative => omega
  next positive => omega

theorem length_printed_le {n : Int} (short : hasWritableLength n = true) : (printed n).digits.length ≤ digitLimit :=
  (length_toDigits_le_iff (by decide)).mpr (of_decide_eq_true short)

theorem integer?_printed (n : Int) : integer? (clean (toString n).toList) = some (printed n) := by
  rw [clean_of_plain (plain_int n)]
  exact integer?_eq_some_iff.mpr ⟨_, [], (List.append_nil _).symm, spells_printed n, .inl rfl⟩

theorem readWord_toString (label : String) {n : Nat} (word : n ≤ wordMax) : readWord label (toString n) = .ok n := by
  have short : hasWritableLength n = true := by
    refine writable_of_small ?_
    simp only [wordMax] at word
    omega
  exact readWord_eq_ok_iff.mpr ⟨_, integer?_printed n, length_printed_le short, amount_printed n, word⟩

/-- An integer that is not too long is read from its own text. -/
theorem readCount?_toString {n : Int} (short : hasWritableLength n = true) : readCount? (toString n) = some n := by
  have plain := plain_int n
  have turned : ∀ c ∈ (toString n).toList.reverse, isPlain c = true := fun c member => plain c (List.mem_reverse.mp member)
  obtain ⟨⟨sign, signed, whole⟩, given, digits⟩ := spells_printed n
  obtain ⟨first, others, shape⟩ := List.exists_cons_of_ne_nil given
  have front : ∀ c ∈ (printed n).digits.head?, isDigit c = true := by
    rw [shape]
    rintro c ⟨⟩
    exact digits first (shape ▸ List.mem_cons_self)
  have taken : takeGrouped (printed n).digits = (first :: others, []) := by
    rw [shape, takeGrouped, if_pos (digits first (shape ▸ List.mem_cons_self)), grouped_of_digits (shape ▸ digits)]
  have value : (printed n).value = .ok n := Signed.value_eq_ok_iff.mpr ⟨length_printed_le short, amount_printed n⟩
  have read : readInteger (toString n) = .ok n := by
    rw [readInteger, dropMargins_of_plain plain, dropMargins_of_plain turned, List.reverse_reverse, whole]
    simp only [takeSign_append signed front, taken]
    rw [← shape]
    exact value
  rw [readCount?, read]
  rfl

/-- A part alone is read as a rational over one. -/
theorem readRational_toString {n : Int} (fits : FitsPart n) : readRational (toString n) = .ok (n, 1) :=
  readRational_eq_ok_iff.mpr ⟨_, none, rational?_of_integer? (integer?_printed n),
    length_printed_le (writable_of_fitsPart fits), (by rintro _ ⟨⟩), amount_printed n, rfl, by decide, fits, by decide⟩

/-- Two integers with a bar between them, as a fraction is typed. -/
def quotientText (numer denom : Int) : String := toString numer ++ "/" ++ toString denom

theorem rational?_quotient (numer denom : Int) :
    rational? (clean (quotientText numer denom).toList) = some (printed numer, some (printed denom)) := by
  have letters : (quotientText numer denom).toList = (toString numer).toList ++ '/' :: (toString denom).toList := by
    rw [quotientText, String.toList_append, String.toList_append, List.append_assoc]
    rfl
  have plain : ∀ c ∈ (quotientText numer denom).toList, isPlain c = true := by
    intro c member
    rw [letters, List.mem_append, List.mem_cons] at member
    rcases member with above | rfl | below
    · exact plain_int numer c above
    · rfl
    · exact plain_int denom c below
  rw [clean_of_plain plain, letters]
  refine rational?_eq_some_iff.mpr ⟨[], _, [], _, [], ?_, .nil, spells_printed numer, .nil,
    .present .nil (spells_printed denom), .nil⟩
  simp only [List.nil_append, List.append_nil]

/-- Two parts are read back from their text, as they are. -/
theorem readRational_quotient {numer denom : Int} (fitsNumer : FitsPart numer) (fitsDenom : FitsPart denom)
    (nonzero : denom ≠ 0) : readRational (quotientText numer denom) = .ok (numer, denom) := by
  refine readRational_eq_ok_iff.mpr ⟨_, _, rational?_quotient numer denom, length_printed_le (writable_of_fitsPart fitsNumer),
    ?_, amount_printed numer, amount_printed denom, nonzero, fitsNumer, fitsDenom⟩
  rintro _ ⟨⟩
  exact length_printed_le (writable_of_fitsPart fitsDenom)

end Numeral
end Surd
