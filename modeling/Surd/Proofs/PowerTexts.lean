import Surd.Proofs.CommandRuns
import Surd.Proofs.ExactOperands
import Surd.Proofs.TextCuts
import Surd.Proofs.TrialDivision

/-! Factorizations read back from their texts. No power holds the first character of the separator, and no number
holds the mark of an exponent, so that each is found just where it was put. The text of the empty product is that of the
power of one, which is no power of a larger number. -/

namespace Surd
namespace Listing
open Text

def productSign : String := " × "

/-- Reads a base alone, or with an exponent above one. -/
def power? (text : List Char) : Option Factor :=
  match cutAt '^' text with
  | [base] => (decimal? base).map fun p : Nat => ⟨p, 1⟩
  | [base, exponent] => do
    let p ← decimal? base
    let count ← decimal? exponent
    if 2 ≤ count then some ⟨p, count⟩ else none
  | _ => none

/-- Reads the pieces of a product, each by itself. -/
def powers (text : String) : List (Option Factor) := (cutBetween productSign.toList text.toList).map power?

/-- The numbers that stand in the text of a power. -/
def numerals (factor : Factor) : List String :=
  if 1 < factor.count then [toString factor.base, toString factor.count] else [toString factor.base]

theorem factorText_eq (factor : Factor) : factorText factor = "^".intercalate (numerals factor) := by
  rw [factorText, powerText, numerals]
  by_cases repeated : 1 < factor.count
  · rw [decide_eq_true repeated, if_pos rfl, if_pos repeated, String.intercalate_cons_cons, String.intercalate_singleton]
  · rw [decide_eq_false repeated, if_neg Bool.false_ne_true, if_neg repeated, String.intercalate_singleton]

theorem not_mem_numerals {c : Char} (other : isPlain c = false) (factor : Factor) :
    ∀ text ∈ numerals factor, c ∉ text.toList := by
  have base := not_mem_int other factor.base
  unfold numerals
  split
  · exact List.forall_mem_cons.mpr ⟨base, List.forall_mem_singleton.mpr (not_mem_int other factor.count)⟩
  · exact List.forall_mem_singleton.mpr base

private theorem blank_not_mem_factorText (factor : Factor) : ' ' ∉ (factorText factor).toList := by
  rw [factorText_eq]
  exact Lacks.intercalate (by decide) (not_mem_numerals (by decide) factor)

private theorem cutAt_factorText (factor : Factor) : cutAt '^' (factorText factor).toList = (numerals factor).map String.toList := by
  have given : numerals factor ≠ [] := by
    unfold numerals
    split
    · exact List.cons_ne_nil _ _
    · exact List.cons_ne_nil _ _
  rw [factorText_eq]
  exact cutAt_intercalate given (not_mem_numerals (by decide) factor) rfl

theorem power?_factorText {factor : Factor} (nonneg : 0 ≤ factor.base) (positive : 1 ≤ factor.count) :
    power? (factorText factor).toList = some factor := by
  obtain ⟨base, count⟩ := factor
  lift base to Nat using nonneg
  have base? : decimal? (toString (base : Int)).toList = some base := decimal?_nat base
  rw [power?, cutAt_factorText, numerals]
  dsimp only at positive ⊢
  by_cases repeated : 1 < count
  · rw [if_pos repeated]
    simp only [List.map_cons, List.map_nil, base?, decimal?_nat, bind, Option.bind, if_pos (show 2 ≤ count from repeated)]
  · rw [if_neg repeated, Nat.le_antisymm (Nat.not_lt.mp repeated) positive]
    simp only [List.map_cons, List.map_nil, base?, Option.map_some]

section
variable {factors first second : List Factor}

theorem powers_factorization (given : factors ≠ []) (proper : ∀ factor ∈ factors, 0 ≤ factor.base ∧ 1 ≤ factor.count) :
    powers (factorization factors) = factors.map some := by
  have parts : factors.map factorText ≠ [] := fun none => given (List.map_eq_nil_iff.mp none)
  have whole : ∀ text ∈ factors.map factorText, ' ' ∉ text.toList := by
    intro text member
    obtain ⟨factor, -, rfl⟩ := List.mem_map.mp member
    exact blank_not_mem_factorText factor
  have cut : cutBetween productSign.toList (productSign.intercalate (factors.map factorText)).toList = _ :=
    cutBetween_intercalate parts whole rfl
  rw [factorization, product, if_neg (by rwa [List.isEmpty_iff]), powers]
  refine (congrArg (List.map power?) cut).trans ?_
  rw [List.map_map, List.map_map]
  exact List.map_congr_left fun factor member => power?_factorText (proper factor member).1 (proper factor member).2

/-- The powers that stand in a text: one itself, where there are none. -/
def spelled : List Factor → List Factor
  | [] => [⟨1, 1⟩]
  | factors => factors

theorem powers_spelled (proper : ∀ factor ∈ factors, 2 ≤ factor.base ∧ 1 ≤ factor.count) :
    powers (factorization factors) = (spelled factors).map some := by
  cases factors with
  | nil =>
    have same : factorization [] = factorization [⟨1, 1⟩] := rfl
    rw [same]
    exact powers_factorization (List.cons_ne_nil _ _) (by decide)
  | cons factor rest =>
    refine powers_factorization (List.cons_ne_nil factor rest) fun factor member => ?_
    have bounds := proper factor member
    omega

theorem spelled_injective (firstLarge : ∀ factor ∈ first, 2 ≤ factor.base) (secondLarge : ∀ factor ∈ second, 2 ≤ factor.base)
    (same : spelled first = spelled second) : first = second := by
  have one : ∀ factors : List Factor, (∀ factor ∈ factors, 2 ≤ factor.base) → factors ≠ [⟨1, 1⟩] := by
    rintro _ large rfl
    exact absurd (large _ List.mem_cons_self) (by decide)
  cases first with
  | nil =>
    cases second with
    | nil => rfl
    | cons factor rest => exact absurd same.symm (one _ secondLarge)
  | cons factor rest =>
    cases second with
    | nil => exact absurd same (one _ firstLarge)
    | cons other others => exact same

theorem factorization_injective (firstProper : ∀ factor ∈ first, 2 ≤ factor.base ∧ 1 ≤ factor.count)
    (secondProper : ∀ factor ∈ second, 2 ≤ factor.base ∧ 1 ≤ factor.count) (same : factorization first = factorization second) :
    first = second := by
  have spelt : (spelled first).map some = (spelled second).map some := by
    rw [← powers_spelled firstProper, same, powers_spelled secondProper]
  exact spelled_injective (fun factor member => (firstProper factor member).1) (fun factor member => (secondProper factor member).1)
    (List.map_injective_iff.mpr (Option.some_injective Factor) spelt)

end
end Listing

private theorem exactIn_of_mem_primeFactorization {n : Nat} {factor : Factor} (member : factor ∈ primeFactorization n) :
    factor.ExactIn n := by
  obtain ⟨p, inside, rfl⟩ := List.mem_map.mp member
  have divisor := Nat.mem_primeFactors.mp ((Finset.mem_sort _).mp inside)
  exact ⟨p, divisor.1, divisor.2.1, rfl⟩

private theorem CommandLine.Command.showFactors_eq {text : String} {n : Nat} (read : Numeral.readWord "number" text = .ok n)
    (above : 2 ≤ n) (word : n ≤ wordMax) :
    showFactors text = .ok (plain (s!"{n} = " ++ Listing.factorization (primeFactorization n))) := by
  unfold showFactors
  simp only [read, bind, Except.bind, PrimeTable.full_factors_eq above word]

namespace Session
open CommandLine (Request)
open Calculator (factorPairs factorizationText isWritablePower)
open Ansi

/-- The factorization that a run prints, behind the number. -/
theorem Reaches.prints_factorization {environment : Environment} {call : Call} {tree : FileTree} {request : Request}
    {settings : Settings} (reaches : Reaches environment call tree request settings) {text : String} {n : Nat}
    (asked : request.command = .factor text) (read : Numeral.readWord "number" text = .ok n) (above : 2 ≤ n)
    (word : n ≤ wordMax) (context : Context) :
    strip (run environment call tree context).transcript.stdout =
      s!"{n} = " ++ Listing.factorization (primeFactorization n) ++ "\n" := by
  have known : answer environment call settings request = .ok (CommandLine.Command.plain
      (s!"{n} = " ++ Listing.factorization (primeFactorization n))) := by
    rw [answer, asked]
    exact CommandLine.Command.showFactors_eq read above word
  have bare : Text.Lacks escape (s!"{n} = " ++ Listing.factorization (primeFactorization n)) :=
    Text.lacks_append.mpr ⟨Text.lacks_append.mpr ⟨control_escape.lacks_nat n, by decide⟩, Listing.lacks_factorization _⟩
  rw [reaches.prints known (.of_lacks bare) context, CommandLine.Command.plain, strip_of_lacks bare]

/-- A list of powers has its text as long as none of them holds a number of too many digits, and lists of
powers above one with the same text are the same list. What the command that factors a word prints behind
the number is read as the powers of primes, in ascending order, whose product is the word. -/
theorem factorization_readBack :
    (∀ factors, (∀ factor ∈ factors, isWritablePower factor) →
        factorizationText (factorPairs factors) = .ok (Listing.factorization factors)) ∧
      (∀ factors, (∃ factor ∈ factors, ¬isWritablePower factor) →
        factorizationText (factorPairs factors) = .error .tooLongToWrite) ∧
      (∀ first second : List Factor, (∀ factor ∈ first, 2 ≤ factor.base ∧ 1 ≤ factor.count) →
        (∀ factor ∈ second, 2 ≤ factor.base ∧ 1 ≤ factor.count) →
        Listing.factorization first = Listing.factorization second → first = second) ∧
      (∀ n ≤ wordMax, CommandLine.request ["factor", toString n] = .ok ⟨none, none, false, false, .factor (toString n)⟩ ∧
        Numeral.readWord "number" (toString n) = .ok n) ∧
      ∀ (environment : Environment) (call : Call) (tree : FileTree) (request : Request) (settings : Settings) (text : String)
        (n : Nat), Reaches environment call tree request settings → request.command = .factor text →
        Numeral.readWord "number" text = .ok n → 2 ≤ n → ∀ context, ∃ (body : String) (factors : List Factor),
          strip (run environment call tree context).transcript.stdout = s!"{n} = " ++ body ++ "\n" ∧
          Listing.powers body = factors.map some ∧
          (∀ factor ∈ factors, ∃ p : Nat, factor.base = p ∧ p.Prime) ∧ (∀ factor ∈ factors, 1 ≤ factor.count) ∧
          (factors.map Factor.base).Pairwise (· < ·) ∧ (factors.map Factor.value).prod = n := by
  refine ⟨?_, ?_, fun first second => Listing.factorization_injective, ?_, ?_⟩
  · intro factors written
    rw [Calculator.factorizationText_eq, if_pos (List.all_eq_true.mpr written)]
  · rintro factors ⟨factor, member, unwritten⟩
    rw [Calculator.factorizationText_eq, if_neg fun written => unwritten (List.all_eq_true.mp written factor member)]
  · intro n word
    have operand := CommandLine.isOperand_int (Int.natCast_nonneg n)
    have same : toString (n : Int) = toString n := rfl
    rw [same] at operand
    exact ⟨CommandLine.request_operand .factor operand, Numeral.readWord_toString "number" word⟩
  · intro environment call tree request settings text n reaches asked read above context
    have word := Numeral.le_wordMax_of_readWord read
    have decomposition := (PrimeTable.full_factors_decompose above word).2
    have primes : ∀ factor ∈ primeFactorization n, ∃ p : Nat, factor.base = p ∧ p.Prime := by
      intro factor member
      obtain ⟨p, prime, -, rfl⟩ := exactIn_of_mem_primeFactorization member
      exact ⟨p, rfl, prime⟩
    have proper : ∀ factor ∈ primeFactorization n, 0 ≤ factor.base ∧ 1 ≤ factor.count := by
      intro factor member
      obtain ⟨p, base, -⟩ := primes factor member
      exact ⟨by omega, decomposition.count_pos factor member⟩
    have given : primeFactorization n ≠ [] := decomposition.ne_nil
    exact ⟨_, _, reaches.prints_factorization asked read above word context, Listing.powers_factorization given proper, primes,
      decomposition.count_pos, decomposition.ascending, decomposition.prod_value⟩

/-- A number with and without exponents, and two powers whose digits are the same. -/
theorem factorization_readBack_mixed_exponents :
    let call : Call := ⟨["factor", "360"], true, false, true, none⟩
    (∃ (body : String) (factors : List Factor),
      strip (run surroundings call nested .fresh).transcript.stdout = s!"{360} = " ++ body ++ "\n" ∧
      Listing.powers body = factors.map some ∧ (factors.map Factor.value).prod = 360) ∧
      Listing.factorization [⟨2, 3⟩] ≠ Listing.factorization [⟨23, 1⟩] := by
  intro call
  obtain ⟨-, -, injective, words, reads⟩ := factorization_readBack
  have reaches : Reaches surroundings call nested ⟨none, none, false, false, .factor "360"⟩ .standard :=
    ⟨CommandLine.request_operand .factor (by decide), rfl, rfl, rfl⟩
  constructor
  · obtain ⟨body, factors, printed, read, -, -, -, product⟩ :=
      reads surroundings call nested _ .standard "360" 360 reaches rfl (words 360 (by decide)).2 (by decide) .fresh
    exact ⟨body, factors, printed, read, product⟩
  · intro same
    cases injective [⟨2, 3⟩] [⟨23, 1⟩] (by decide) (by decide) same

end Session
end Surd
