import Surd.Command
import Surd.Proofs.CodeRemoval
import Surd.Proofs.FaultTexts

/-! What commands answer and what they read. A command sees the settings of its context and nothing
else of it. Its answer is tidy, whatever its operand: numbers and layouts hold no escape character,
and the colours are whole codes. Only a picture is as tidy as the library draws it. The faults of a
command show no text of the operand as it is. -/

namespace Surd
open Text

variable {c : Char}

namespace Numeral

theorem value_spares (number : Signed) : Fault.Spared c number.value := by
  unfold Signed.value
  split
  · exact Fault.lacks_of_no_text rfl
  · exact trivial

theorem readWord_spares {label : String} (printed : Lacks c label) (text : String) :
    Fault.Spared c (readWord label text) := by
  unfold readWord
  split
  · exact Fault.lacks_of_one_text rfl printed
  · next number _ =>
    refine (value_spares number).bind fun v _ => ?_
    split
    · exact trivial
    · exact Fault.lacks_of_one_text rfl printed

theorem checkPart_spares (n : Int) : Fault.Spared c (checkPart n) := by
  unfold checkPart
  split
  · exact trivial
  · exact Fault.lacks_of_no_text rfl

private theorem readRational_spares (text : String) : Fault.Spared c (readRational text) := by
  unfold readRational
  split
  · exact Fault.lacks_of_no_text rfl
  · next first second _ =>
    have denominator : Fault.Spared c ((second.map Signed.value).getD (.ok 1)) := by
      cases second with
      | none => exact trivial
      | some number => exact value_spares number
    refine (value_spares first).bind fun numer _ => denominator.bind fun denom _ => ?_
    split
    · exact Fault.lacks_of_no_text rfl
    · exact (checkPart_spares numer).bind fun _ _ => (checkPart_spares denom).bind fun _ _ => trivial

end Numeral

theorem checkWord_spares {label : String} (printed : Lacks c label) (n : Int) :
    Fault.Spared c (checkWord label n) := by
  unfold checkWord
  split
  · exact trivial
  · exact (Fault.lacks_of_one_text rfl printed).showing [n]

namespace PrimeTable

private theorem undivided_spares (limit n : Nat) (entries : List Int) : Fault.Spared c (undivided limit n entries) := by
  induction entries with
  | nil => exact trivial
  | cons p rest ih =>
    unfold undivided
    split
    · exact trivial
    · split
      · exact Fault.lacks_of_no_text rfl
      · split
        · exact trivial
        · exact ih

theorem isPrime_spares (control : Control c) (table : PrimeTable) (n : Int) : Fault.Spared c (table.isPrime n) := by
  refine (checkWord_spares (control.lacks rfl) n).bind fun v _ => ?_
  split
  · exact trivial
  · exact undivided_spares _ _ _

private theorem trialDivide_spares (control : Control c) (entries : List Int) (remaining : Int) (limit : Nat) :
    Fault.Spared c (trialDivide entries remaining limit) := by
  induction entries generalizing remaining limit with
  | nil => exact trivial
  | cons p rest ih =>
    simp only [trialDivide]
    split
    · exact trivial
    · split
      · exact Fault.lacks_of_no_text rfl
      · split
        · exact ih remaining limit
        · split
          · exact trivial
          · have root : Fault.Spared c (floorRoot? (divideOut p remaining).2) :=
              (checkWord_spares (control.lacks rfl) _).map fun _ _ => trivial
            exact root.bind fun next _ => (ih _ next).bind fun _ _ => trivial

theorem factors_spares (control : Control c) (table : PrimeTable) (n : Int) : Fault.Spared c (table.factors n) := by
  refine (checkWord_spares (control.lacks rfl) n).bind fun v _ => ?_
  split
  · exact Fault.lacks_of_no_text rfl
  · exact trialDivide_spares control _ _ _

end PrimeTable

namespace Rational32

theorem checkPart_spares (n : Int) : Fault.Spared c (checkPart n) := by
  unfold checkPart
  split
  · exact trivial
  · exact Fault.Lacks.showing (Fault.lacks_of_no_text rfl) [n]

private theorem ofParts_spares (numer denom : Int) : Fault.Spared c (ofParts numer denom) := by
  refine (checkPart_spares numer).bind fun _ _ => (checkPart_spares denom).bind fun _ _ => ?_
  split
  · exact Fault.lacks_of_no_text rfl
  · dsimp only
    split
    · exact trivial
    · exact Fault.lacks_of_no_text rfl

/-- Both ways to split a word look it up among the full table's factors. -/
private theorem split_spares (control : Control c) {split : List Factor → SquareSplit} {n : Int} :
    Fault.Spared c (if n = 0 ∨ n = 1 then .ok ⟨n, 1⟩ else (PrimeTable.full.factors n).map split) := by
  split
  · exact trivial
  · exact (PrimeTable.factors_spares control _ n).map fun _ _ => trivial

theorem sqrt_spares (control : Control c) (r : Rational32) : Fault.Spared c r.sqrt := by
  unfold sqrt
  split
  · exact Fault.lacks_of_no_text rfl
  · refine Ends.bind (split_spares control) fun below _ => ?_
    dsimp only
    split
    · exact trivial
    · refine Ends.bind (split_spares control) fun above _ => ?_
      split
      · exact trivial
      · exact trivial

end Rational32

namespace Listing
open Ansi

theorem mem_of_mem_rows {α : Type} {length : Nat} {items row : List α} {item : α}
    (inside : row ∈ rows length items) (member : item ∈ row) : item ∈ items := by
  induction items using rows.induct length with
  | case1 =>
    rw [rows] at inside
    cases inside
  | case2 first rest zero =>
    rw [rows, if_pos zero] at inside
    cases inside
  | case3 first rest positive ih =>
    rw [rows, if_neg positive] at inside
    rcases List.mem_cons.mp inside with rfl | later
    · exact (List.cons_subset_cons first (List.take_subset _ rest)) member
    · exact List.mem_cons_of_mem first (List.mem_of_mem_drop (ih later))

theorem lacks_factorization (factors : List Factor) : Lacks escape (factorization factors) := by
  unfold factorization product
  split
  · decide
  · refine Lacks.intercalate (by decide) fun text member => ?_
    obtain ⟨factor, -, rfl⟩ := List.mem_map.mp member
    unfold factorText powerText
    split
    · simp only [lacks_append]
      exact ⟨⟨control_escape.lacks_int _, by decide⟩, control_escape.lacks_nat _⟩
    · exact control_escape.lacks_int _

theorem lacks_table (numbers : List Int) (perRow : Nat) : Lacks escape (table numbers perRow) := by
  unfold table
  split
  · exact lacks_empty
  · refine Lacks.intercalate (by decide) fun line lineMember => ?_
    obtain ⟨row, inside, rfl⟩ := List.mem_map.mp lineMember
    refine Lacks.intercalate (by decide) fun cell cellMember => ?_
    obtain ⟨text, member, rfl⟩ := List.mem_map.mp cellMember
    obtain ⟨n, -, rfl⟩ := List.mem_map.mp (mem_of_mem_rows inside member)
    exact lacks_append.mpr ⟨lacks_empty.pushn (by decide) _, control_escape.lacks_int n⟩

end Listing

namespace SquareRoot
open Ansi

theorem lacks_text (root : SquareRoot) : Lacks escape root.text := by
  unfold text
  split
  · decide
  · split
    · exact control_escape.lacks_rational _
    · split
      · simp only [lacks_append]
        exact ⟨⟨by decide, control_escape.lacks_int _⟩, by decide⟩
      · simp only [lacks_append]
        exact ⟨⟨⟨control_escape.lacks_rational _, by decide⟩, control_escape.lacks_int _⟩, by decide⟩

private theorem lacks_centred {text : String} (lacks : Lacks escape text) (width : Nat) :
    Lacks escape (centred width text) := by
  refine Lacks.pushn ?_ (by decide) _
  exact lacks_append.mpr ⟨lacks_empty.pushn (by decide) _, lacks⟩

private theorem lacks_stacked {above below : String} (upper : Lacks escape above) (lower : Lacks escape below) :
    Lacks escape (stacked above below) := by
  simp only [stacked, lacks_append]
  exact ⟨⟨⟨⟨lacks_centred upper _, by decide⟩, lacks_empty.pushn (by decide) _⟩, by decide⟩,
    lacks_centred lower _⟩

private theorem lacks_radical (factor root : Int) : Lacks escape (radical factor root) := by
  unfold radical
  simp only [lacks_append]
  refine ⟨⟨?_, by decide⟩, control_escape.lacks_int root⟩
  split
  · exact lacks_empty
  · exact lacks_append.mpr ⟨control_escape.lacks_int factor, by decide⟩

theorem lacks_drawing (root : SquareRoot) : Lacks escape root.drawing := by
  simp only [drawing]
  split
  · decide
  · split
    · split
      · exact lacks_stacked (control_escape.lacks_int _) (control_escape.lacks_nat _)
      · exact control_escape.lacks_rational _
    · split
      · exact lacks_radical _ _
      · exact lacks_stacked (lacks_radical _ _) (control_escape.lacks_nat _)

end SquareRoot

namespace CommandLine.Command
open Ansi

/-- An answer with one of the two exit codes that an answer can have. Its text is tidy if pictures hold
no escape character. -/
structure Proper (draw : SquareRoot → String) (result : Result) : Prop where
  code : result.code = 0 ∨ result.code = 1
  tidy : (∀ root, Lacks escape (draw root)) → Tidy result.text

section
variable {draw : SquareRoot → String}

theorem Proper.plain {text : String} (tidy : Tidy text) : Proper draw (Command.plain text) := ⟨.inl rfl, fun _ => tidy⟩

theorem testPrime_ends (control : Control c) (n : String) : Ends (Fault.Lacks c) (Proper draw) (testPrime n) := by
  unfold testPrime
  refine (Numeral.readWord_spares (control.lacks rfl) n).bind fun v _ => ?_
  refine (PrimeTable.isPrime_spares control _ v).bind fun prime _ => ?_
  have verdict : Tidy (if prime then green ++ "prime" else yellow ++ "not prime") := by
    cases prime with
    | true => exact (tidy_code 32).append (.of_lacks (control_escape.lacks rfl))
    | false => exact (tidy_code 33).append (.of_lacks (control_escape.lacks rfl))
  have opening : Lacks escape s!"{v} is " := by
    simp only [lacks_append, lacks_toString, control_escape.lacks_nat, true_and]
    exact control_escape.lacks rfl
  exact .plain (((Tidy.of_lacks opening).append verdict).append (tidy_code 0))

theorem showFactors_ends (control : Control c) (n : String) : Ends (Fault.Lacks c) (Proper draw) (showFactors n) := by
  unfold showFactors
  refine (Numeral.readWord_spares (control.lacks rfl) n).bind fun v _ => ?_
  refine (PrimeTable.factors_spares control _ v).bind fun factors _ => ?_
  have opening : Lacks escape s!"{v} = " := by
    simp only [lacks_append, lacks_toString, control_escape.lacks_nat, true_and]
    exact control_escape.lacks rfl
  exact .plain (.of_lacks (lacks_append.mpr ⟨opening, Listing.lacks_factorization factors⟩))

theorem showFloorRoot_ends (control : Control c) (n : String) : Ends (Fault.Lacks c) (Proper draw) (showFloorRoot n) := by
  unfold showFloorRoot
  refine (Numeral.readWord_spares (control.lacks rfl) n).bind fun v _ => ?_
  apply Proper.plain
  apply Tidy.of_lacks
  simp (disch := decide) only [lacks_append, lacks_toString, control_escape.lacks_nat, control_escape.lacks, and_self]

private theorem rowLength_spares (context : Context) (perRow : Option (Given Int)) :
    Fault.Spared c (rowLength context perRow) := by
  unfold rowLength
  split
  · exact trivial
  · exact trivial
  · exact Fault.lacks_of_no_text rfl

theorem listPrimes_ends (control : Control c) (context : Context) (n : String) (perRow : Option (Given Int)) :
    Ends (Fault.Lacks c) (Proper draw) (listPrimes context n perRow) := by
  unfold listPrimes
  refine (Numeral.readWord_spares (control.lacks rfl) n).bind fun bound _ => ?_
  dsimp only
  split
  · exact Fault.lacks_of_no_text rfl
  · refine (rowLength_spares context perRow).bind fun length _ => ?_
    split
    · exact Fault.lacks_of_no_text rfl
    · refine ⟨.inl rfl, fun _ => .of_lacks ?_⟩
      dsimp only
      split
      · simp (disch := decide) only [lacks_append, lacks_toString, control_escape.lacks_nat, control_escape.lacks, and_self]
      · exact Listing.lacks_table _ _

theorem showSquareRoot_ends (control : Control c) (context : Context) (r : String) (pretty : Bool) :
    Ends (Fault.Lacks c) (Proper draw) (showSquareRoot draw context r pretty) := by
  unfold showSquareRoot
  refine (Numeral.readRational_spares r).bind fun parts _ => ?_
  refine (Rational32.ofParts_spares parts.1 parts.2).bind fun fraction _ => ?_
  refine (Rational32.sqrt_spares control fraction).bind fun root _ => ?_
  have name : Lacks escape s!"sqrt({rationalText fraction.val})" := by
    simp (disch := decide) only [lacks_append, lacks_toString, control_escape.lacks_rational, control_escape.lacks, and_self]
  cases root with
  | none =>
    have ending : Lacks escape " overflows the 32-bit representation" := control_escape.lacks rfl
    have line := ((tidy_code 33).append (.of_lacks name)).append (.of_lacks ending)
    exact ⟨.inr rfl, fun _ => line.append (tidy_code 0)⟩
  | some root =>
    refine ⟨.inl rfl, fun drawn => .of_lacks ?_⟩
    dsimp only
    split
    · exact drawn root
    · simp (disch := decide) only [lacks_append, lacks_toString, name, root.lacks_text, control_escape.lacks, and_self]

theorem execute_ends (control : Control c) (context : Context) (command : Command) :
    Ends (Fault.Lacks c) (Proper draw) (command.execute draw context) := by
  cases command with
  | primes n perRow => exact listPrimes_ends control context n perRow
  | isPrime n => exact testPrime_ends control n
  | factor n => exact showFactors_ends control n
  | floorRoot n => exact showFloorRoot_ends control n
  | squareRoot r pretty => exact showSquareRoot_ends control context r pretty

end

theorem execute_congr {first second : Context} (same : first.settings = second.settings) (draw : SquareRoot → String)
    (command : Command) : command.execute draw first = command.execute draw second := by
  obtain ⟨profile, settings, debug, color⟩ := first
  cases same
  cases command with
  | primes n perRow => rfl
  | isPrime n => rfl
  | factor n => rfl
  | floorRoot n => rfl
  | squareRoot r pretty => rfl

end CommandLine.Command
end Surd
