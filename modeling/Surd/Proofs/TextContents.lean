import Surd.Value.Text

/-! Which characters a text does not hold. No control character is in the text of a value: quotes
give such characters a number or a short name, and all else that is written prints. -/

namespace Surd
namespace Text

/-- A text in which a character does not occur. -/
def Lacks (c : Char) (text : String) : Prop := c ∉ text.toList

instance (c : Char) (text : String) : Decidable (Lacks c text) := inferInstanceAs (Decidable (c ∉ text.toList))

variable {c : Char}

theorem lacks_empty : Lacks c "" := List.not_mem_nil

theorem lacks_append {first second : String} :
    Lacks c (first ++ second) ↔ Lacks c first ∧ Lacks c second := by
  simp only [Lacks, String.toList_append, List.mem_append, not_or]

/-- A text that is put into another one stands there as it is. -/
theorem lacks_toString {text : String} : Lacks c (toString text) ↔ Lacks c text := Iff.rfl

theorem lacks_ofList {text : List Char} : Lacks c (String.ofList text) ↔ c ∉ text := by
  rw [Lacks, String.toList_ofList]

theorem lacks_join {texts : List String} : Lacks c (String.join texts) ↔ ∀ text ∈ texts, Lacks c text := by
  simp only [Lacks, String.toList_join, List.mem_flatMap, not_exists, not_and]

theorem Lacks.intercalate {mark : String} {texts : List String} (between : Lacks c mark)
    (each : ∀ text ∈ texts, Lacks c text) : Lacks c (mark.intercalate texts) := by
  induction texts with
  | nil => exact lacks_empty
  | cons first rest ih =>
    have others := ih fun text member => each text (List.mem_cons_of_mem first member)
    cases rest with
    | nil => simpa only [String.intercalate_singleton] using each first List.mem_cons_self
    | cons second rest =>
      rw [String.intercalate_cons_cons, lacks_append, lacks_append]
      exact ⟨⟨each first List.mem_cons_self, between⟩, others⟩

theorem Lacks.pushn {text : String} {filler : Char} (lacks : Lacks c text) (other : c ≠ filler) (n : Nat) :
    Lacks c (text.pushn filler n) := by
  rw [String.pushn_eq_repeat_push]
  induction n with
  | zero => exact lacks
  | succ n ih =>
    rw [Nat.repeat, Lacks, String.toList_push, List.mem_append, List.mem_singleton, not_or]
    exact ⟨ih, other⟩

/-- The characters before the first one that prints. -/
def Control (c : Char) : Prop := c.toNat < 32

theorem control_lineEnd : Control '\n' := by
  change (10 : Nat) < 32
  decide

namespace Control

theorem ne {d : Char} (control : Control c) (prints : 32 ≤ d.toNat) : c ≠ d := by
  rintro rfl
  exact absurd control (Nat.not_lt.mpr prints)

theorem lacks {text : List Char} (control : Control c)
    (prints : (text.all fun d => decide (32 ≤ d.toNat)) = true) : Lacks c (String.ofList text) := by
  rw [lacks_ofList]
  intro member
  exact control.ne (of_decide_eq_true (List.all_eq_true.mp prints c member)) rfl

private theorem not_printable (control : Control c) : isPrintable c = false := by
  have known : ∀ n < 32, isPrintable (Char.ofNat n) = false := by decide +kernel
  simpa only [Char.ofNat_toNat] using known c.toNat control

theorem lacks_singleton {d : Char} (control : Control c) (prints : 32 ≤ d.toNat) : Lacks c d.toString := by
  change c ∉ d.toString.toList
  rw [Char.toString_eq_singleton, String.toList_singleton, List.mem_singleton]
  exact control.ne prints

private theorem digitChar_prints (n : Nat) : 32 ≤ (Nat.digitChar n).toNat := by
  rcases Nat.lt_or_ge n 16 with digit | beyond
  · have known : ∀ n < 16, 32 ≤ (Nat.digitChar n).toNat := by decide
    exact known n digit
  · have star : Nat.digitChar n = '*' := by
      unfold Nat.digitChar
      repeat rw [if_neg (by omega)]
    rw [star]
    decide

theorem lacks_toDigits (control : Control c) {base : Nat} (proper : 1 < base) (n : Nat) :
    c ∉ Nat.toDigits base n := by
  induction n using Nat.strongRecOn with
  | ind n ih =>
    rw [Nat.toDigits_eq_if proper]
    split
    · rw [List.mem_singleton]
      exact control.ne (digitChar_prints n)
    next large =>
      rw [List.mem_append, List.mem_singleton, not_or]
      have shrinks : n / base < n := Nat.div_lt_self (by omega) proper
      exact ⟨ih (n / base) shrinks, control.ne (digitChar_prints _)⟩

theorem lacks_nat (control : Control c) (n : Nat) : Lacks c (toString n) := by
  change c ∉ n.repr.toList
  rw [Nat.toList_repr]
  exact control.lacks_toDigits (by decide) n

theorem lacks_int (control : Control c) (n : Int) : Lacks c (toString n) := by
  cases n with
  | ofNat n => exact control.lacks_nat n
  | negSucc n => exact lacks_append.mpr ⟨control.lacks rfl, control.lacks_nat (n + 1)⟩

private theorem lacks_hexadecimal (control : Control c) (width n : Nat) : Lacks c (hexadecimal width n) := by
  refine lacks_append.mpr ⟨lacks_empty.pushn (control.ne (by decide)) _, ?_⟩
  exact lacks_ofList.mpr (control.lacks_toDigits (by decide) n)

private theorem lacks_quotedChar (control : Control c) {quote : Char} (prints : 32 ≤ quote.toNat) (d : Char) :
    Lacks c (quotedChar quote d) := by
  unfold quotedChar
  split
  · next marked =>
    refine lacks_append.mpr ⟨control.lacks rfl, ?_⟩
    rcases marked with rfl | rfl
    · exact control.lacks_singleton prints
    · exact control.lacks_singleton (by decide)
  · split
    · exact control.lacks rfl
    · split
      · exact control.lacks rfl
      · split
        · exact control.lacks rfl
        · split
          · next printable =>
            rw [Lacks, Char.toString_eq_singleton, String.toList_singleton, List.mem_singleton]
            rintro rfl
            rw [control.not_printable] at printable
            cases printable
          · split
            · exact lacks_append.mpr ⟨control.lacks rfl, control.lacks_hexadecimal 2 _⟩
            · split
              · exact lacks_append.mpr ⟨control.lacks rfl, control.lacks_hexadecimal 4 _⟩
              · exact lacks_append.mpr ⟨control.lacks rfl, control.lacks_hexadecimal 8 _⟩

private theorem quoteFor_prints (text : List Char) : 32 ≤ (quoteFor text).toNat := by
  unfold quoteFor
  split <;> decide

/-- A quoted text stands on one line, whatever the text is. -/
theorem lacks_quoted (control : Control c) (text : String) : Lacks c (quoted text) := by
  have quote := control.lacks_singleton (quoteFor_prints text.toList)
  refine lacks_append.mpr ⟨lacks_append.mpr ⟨quote, lacks_join.mpr ?_⟩, quote⟩
  intro piece member
  obtain ⟨d, -, rfl⟩ := List.mem_map.mp member
  exact control.lacks_quotedChar (quoteFor_prints text.toList) d

theorem lacks_rational (control : Control c) (r : Rat) : Lacks c (rationalText r) := by
  unfold rationalText
  split
  · exact control.lacks_int r.num
  · exact lacks_append.mpr ⟨lacks_append.mpr ⟨control.lacks_int r.num, control.lacks rfl⟩, control.lacks_nat r.den⟩

private theorem lacks_numbers (control : Control c) (numbers : List Nat) :
    Lacks c (", ".intercalate (numbers.map toString)) := by
  refine Lacks.intercalate (control.lacks rfl) fun text member => ?_
  obtain ⟨n, -, rfl⟩ := List.mem_map.mp member
  exact control.lacks_nat n

private theorem lacks_offset (control : Control c) (minutes : Int) : Lacks c (Moment.offsetText minutes) := by
  unfold Moment.offsetText
  split
  · exact control.lacks rfl
  · simp only [lacks_append]
    refine ⟨⟨control.lacks rfl, ?_⟩, control.lacks rfl⟩
    split
    · exact lacks_append.mpr ⟨control.lacks rfl, control.lacks_int _⟩
    · simp only [lacks_append]
      exact ⟨⟨⟨control.lacks rfl, control.lacks_int _⟩, control.lacks rfl⟩, control.lacks_int _⟩

theorem lacks_moment (control : Control c) (moment : Moment) : Lacks c moment.text := by
  cases moment with
  | date day =>
    change Lacks c ("datetime.date(" ++ ", ".intercalate (List.map toString _) ++ ")")
    simp only [lacks_append]
    exact ⟨⟨control.lacks rfl, control.lacks_numbers _⟩, control.lacks rfl⟩
  | time clock =>
    change Lacks c ("datetime.time(" ++ ", ".intercalate (List.map toString _) ++ ")")
    simp only [lacks_append]
    exact ⟨⟨control.lacks rfl, control.lacks_numbers _⟩, control.lacks rfl⟩
  | instant day clock offset =>
    cases offset with
    | none =>
      change Lacks c ("datetime.datetime(" ++ ", ".intercalate (List.map toString _) ++ "" ++ ")")
      simp only [lacks_append]
      exact ⟨⟨⟨control.lacks rfl, control.lacks_numbers _⟩, lacks_empty⟩, control.lacks rfl⟩
    | some minutes =>
      change Lacks c ("datetime.datetime(" ++ ", ".intercalate (List.map toString _) ++
        (", tzinfo=" ++ Moment.offsetText minutes) ++ ")")
      simp only [lacks_append]
      exact ⟨⟨⟨control.lacks rfl, control.lacks_numbers _⟩, control.lacks rfl, control.lacks_offset minutes⟩,
        control.lacks rfl⟩

private theorem lacks_decimal (control : Control c) (decimal : Binary64.Decimal) :
    Lacks c (decimal.text Binary64.layout) := by
  have digits : Lacks c (Binary64.trimmed (toString decimal.digits)) := by
    rw [Binary64.trimmed, lacks_ofList, List.mem_reverse]
    intro member
    exact control.lacks_nat decimal.digits (List.mem_reverse.mp ((List.dropWhile_sublist _).subset member))
  have zero : c ≠ '0' := control.ne (by decide)
  simp only [Binary64.Decimal.text]
  split
  · split
    · simp only [lacks_append]
      exact ⟨⟨control.lacks rfl, lacks_empty.pushn zero _⟩, digits⟩
    · split
      · exact lacks_append.mpr ⟨digits.pushn zero _, control.lacks rfl⟩
      · simp only [lacks_append, lacks_ofList]
        exact ⟨⟨fun member => digits (List.mem_of_mem_take member), control.lacks rfl⟩,
          fun member => digits (List.mem_of_mem_drop member)⟩
  · simp only [lacks_append, lacks_ofList]
    refine ⟨⟨⟨⟨fun member => digits (List.mem_of_mem_take member), ?_⟩, control.lacks rfl⟩, ?_⟩,
      lacks_append.mpr ⟨lacks_empty.pushn zero _, control.lacks_nat _⟩⟩
    · split
      · exact lacks_empty
      · exact lacks_append.mpr ⟨control.lacks rfl, lacks_ofList.mpr fun member => digits (List.mem_of_mem_drop member)⟩
    · split
      · exact control.lacks rfl
      · exact control.lacks rfl

theorem lacks_double (control : Control c) (x : Binary64) : Lacks c x.text := by
  cases x with
  | nan => exact control.lacks rfl
  | infinite negative =>
    cases negative with
    | true => exact control.lacks rfl
    | false => exact control.lacks rfl
  | finite negative mantissa exponent =>
    refine lacks_append.mpr ⟨?_, ?_⟩
    · cases negative with
      | true => exact control.lacks rfl
      | false => exact lacks_empty
    · split
      · exact lacks_append.mpr ⟨control.lacks rfl, control.lacks rfl⟩
      · exact control.lacks_decimal _

mutual

theorem lacks_written (control : Control c) : ∀ value : Value, Lacks c value.written
  | .null => control.lacks rfl
  | .bool true => control.lacks rfl
  | .bool false => control.lacks rfl
  | .int n => control.lacks_int n
  | .fraction r => by
    simp only [Value.written, lacks_append]
    exact ⟨⟨⟨⟨control.lacks rfl, control.lacks_int r.num⟩, control.lacks rfl⟩, control.lacks_nat r.den⟩,
      control.lacks rfl⟩
  | .float x => control.lacks_double x
  | .text s => control.lacks_quoted s
  | .moment m => control.lacks_moment m
  | .list items => by
    simp only [Value.written, lacks_append]
    exact ⟨⟨control.lacks rfl, .intercalate (control.lacks rfl) (control.lacks_writtenItems items)⟩,
      control.lacks rfl⟩
  | .table entries => by
    simp only [Value.written, lacks_append]
    exact ⟨⟨control.lacks rfl, .intercalate (control.lacks rfl) (control.lacks_writtenEntries entries)⟩,
      control.lacks rfl⟩

private theorem lacks_writtenItems (control : Control c) :
    ∀ items : List Value, ∀ text ∈ Value.writtenItems items, Lacks c text
  | [] => fun _ member => absurd member List.not_mem_nil
  | item :: rest => by
    intro text member
    rcases List.mem_cons.mp member with rfl | later
    · exact control.lacks_written item
    · exact control.lacks_writtenItems rest text later

private theorem lacks_writtenEntries (control : Control c) :
    ∀ entries : List (String × Value), ∀ text ∈ Value.writtenEntries entries, Lacks c text
  | [] => fun _ member => absurd member List.not_mem_nil
  | (name, value) :: rest => by
    intro text member
    rcases List.mem_cons.mp member with rfl | later
    · simp only [lacks_append]
      exact ⟨⟨control.lacks_quoted name, control.lacks rfl⟩, control.lacks_written value⟩
    · exact control.lacks_writtenEntries rest text later

end

end Control
end Text
end Surd
