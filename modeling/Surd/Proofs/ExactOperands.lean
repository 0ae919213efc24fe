import Surd.Calculator
import Surd.Proofs.RootRange

/-! Operands that are integers or fractions. Such values stand in the order of the numbers that they denote, and
the calculator does with them what the library does with these numbers: its looks at kinds find nothing to refuse. -/

namespace Surd

namespace Extended
variable {a b : Rat}

theorem order?_finite (a b : Rat) :
    order? (.finite a) (.finite b) = some (if a < b then .lt else if b < a then .gt else .eq) := rfl

private theorem order?_finite_eq_iff : order? (.finite a) (.finite b) = some .eq ↔ a = b := by
  rw [order?_finite, Option.some.injEq]
  constructor
  · intro equal
    split at equal
    · cases equal
    next above =>
      split at equal
      · cases equal
      next below => exact le_antisymm (not_lt.mp below) (not_lt.mp above)
  · rintro rfl
    rw [if_neg (lt_irrefl a), if_neg (lt_irrefl a)]

private theorem order?_finite_lt_iff : order? (.finite a) (.finite b) = some .lt ↔ a < b := by
  rw [order?_finite, Option.some.injEq]
  constructor
  · intro below
    split at below
    next less => exact less
    next =>
      split at below
      · cases below
      · cases below
  · intro less
    rw [if_pos less]

end Extended

theorem Value.denotes_int (n : Int) : (Value.int n).Denotes n := .inr ⟨n, rfl, rfl⟩

theorem Value.denotes_fraction (r : Rat) : (Value.fraction r).Denotes r := .inl rfl

namespace Value.Denotes

section
variable {v : Value} {a : Rat} (denotes : v.Denotes a)
include denotes

private theorem extended : v.extended? = some (.finite a) := by
  rcases denotes with rfl | ⟨n, rfl, rfl⟩
  · rfl
  · rfl

theorem toRat : v.toRat = .ok a := by
  rcases denotes with rfl | ⟨n, rfl, rfl⟩
  · rfl
  · rfl

theorem rational : v.rational? = some a := by
  rcases denotes with rfl | ⟨n, rfl, rfl⟩
  · rfl
  · rfl

end

section
variable {v w : Value} {a b : Rat} (first : v.Denotes a) (second : w.Denotes b)
include first second

theorem numericOrder : v.numericOrder? w = Extended.order? (.finite a) (.finite b) := by
  rw [numericOrder?, first.extended, second.extended]
  rfl

theorem order : v.order w = .ok (v.numericOrder? w) := by
  rcases first with rfl | ⟨n, rfl, rfl⟩
  · rcases second with rfl | ⟨m, rfl, rfl⟩
    · rfl
    · rfl
  · rcases second with rfl | ⟨m, rfl, rfl⟩
    · rfl
    · rfl

theorem sameNumber : v.sameNumber w = decide (a = b) := by
  rw [Bool.eq_iff_iff, Value.sameNumber, first.numericOrder second, beq_iff_eq, Extended.order?_finite_eq_iff,
    decide_eq_true_iff]

theorem isBelow : v.isBelow? w = .ok (decide (a < b)) := by
  rw [isBelow?, first.order second, first.numericOrder second, Except.map, Except.ok.injEq, Bool.eq_iff_iff, beq_iff_eq,
    Extended.order?_finite_lt_iff, decide_eq_true_iff]

end
end Value.Denotes

theorem Value.isBelow?_int (a b : Int) : (Value.int a).isBelow? (.int b) = .ok (decide (a < b)) := by
  rw [(denotes_int a).isBelow (denotes_int b), decide_eq_decide.mpr Int.cast_lt]

namespace Calculator
open Value

/-- Integers make a fraction of the calculator as parts make one, though there they are checked twice. -/
theorem fraction_int (numer denom : Int) :
    fraction (.int numer) (.int denom) = (Rational32.ofParts numer denom).map fun r => .fraction r.val := by
  simp only [fraction, toPart, Rational32.ofParts, bind, Except.bind]
  cases top : Rational32.checkPart numer with
  | error fault => rfl
  | ok _ =>
    cases bottom : Rational32.checkPart denom with
    | error fault => rfl
    | ok _ =>
      simp only [Except.map, top, bottom]

/-- A checked operation never fails on integers and fractions. -/
theorem checked_eq (operator : Rational32.Operator) {v w : Value} {a b : Rat} (left : v.Denotes a) (right : w.Denotes b) :
    checked operator v w = .ok (narrow (operator.apply a b)) := by
  have zero : w.equalsInteger 0 = decide (b = 0) := right.sameNumber (denotes_int 0)
  by_cases none : operator = .div ∧ b = 0
  · obtain ⟨rfl, rfl⟩ := none
    rw [checked, zero]
    rfl
  · have noticed : ¬(decide (operator = .div) && w.equalsInteger 0) = true := by
      simpa only [zero, Bool.and_eq_true, decide_eq_true_eq] using none
    have divided : ¬(decide (operator = .div) && decide (b = 0)) = true := by
      simpa only [Bool.and_eq_true, decide_eq_true_eq] using none
    rw [checked, if_neg noticed, left.toRat, right.toRat]
    exact if_neg divided

/-- Texts that fail alike come together unless one of them fails. -/
theorem mapM_guarded {α : Type} (allowed : α → Bool) (text : α → String) (fault : Fault) (items : List α) :
    (items.mapM fun item => if allowed item then Except.ok (text item) else .error fault) =
      if items.all allowed then .ok (items.map text) else .error fault := by
  induction items with
  | nil => rfl
  | cons item rest ih =>
    rw [List.mapM_cons, ih, List.all_cons]
    cases allowed item with
    | false => rfl
    | true =>
      rw [Bool.true_and]
      cases rest.all allowed with
      | false => rfl
      | true => rfl

theorem shownText_int (n : Int) :
    shownText (.int n) = if hasWritableLength n then .ok (toString n) else .error .tooLongToWrite := rfl

/-- Tells that what is written of a power can be written. -/
def isWritablePower (factor : Factor) : Bool :=
  hasWritableLength factor.base && (!decide (1 < factor.count) || hasWritableLength factor.count)

private theorem factorText_pair (factor : Factor) :
    factorText (.list [.int factor.base, natural factor.count]) =
      if isWritablePower factor then .ok (Listing.factorText factor) else .error .tooLongToWrite := by
  have repeated : (Value.int 1).isBelow? (.int factor.count) = .ok (decide (1 < factor.count)) := by
    rw [isBelow?_int, decide_eq_decide.mpr (Nat.one_lt_cast (α := Int))]
  have parts : pairOf (.list [.int factor.base, natural factor.count]) = .ok (.int factor.base, natural factor.count) := rfl
  rw [factorText, parts, isWritablePower, Listing.factorText]
  simp only [bind, Except.bind, natural, repeated, shownText_int]
  cases hasWritableLength factor.base with
  | false => rfl
  | true =>
    cases decide (1 < factor.count) with
    | false => rfl
    | true =>
      cases hasWritableLength factor.count with
      | false => rfl
      | true => rfl

theorem factorizationText_eq (factors : List Factor) :
    factorizationText (factorPairs factors) =
      if factors.all isWritablePower then .ok (Listing.factorization factors) else .error .tooLongToWrite := by
  have texts : (factors.map fun factor => .list [.int factor.base, natural factor.count]).mapM factorText =
      if factors.all isWritablePower then .ok (factors.map Listing.factorText) else .error .tooLongToWrite := by
    have each : (factorText ∘ fun factor => .list [.int factor.base, natural factor.count]) =
        fun factor : Factor => if isWritablePower factor then .ok (Listing.factorText factor) else .error .tooLongToWrite :=
      funext factorText_pair
    rw [List.mapM_map, each, mapM_guarded]
  rw [factorPairs, factorizationText, toItems]
  simp only [bind, Except.bind, texts]
  cases factors.all isWritablePower with
  | false => rfl
  | true => rfl

theorem tableText_eq (numbers : List Int) {perRow : Int} (positive : 1 ≤ perRow) :
    tableText (.list (numbers.map .int)) (.int perRow) =
      if numbers.all hasWritableLength then .ok (Listing.table numbers perRow.toNat) else .error .tooLongToWrite := by
  have rows : (Value.int perRow).isBelow? (.int 1) = .ok false := by
    rw [isBelow?_int, decide_eq_false (Int.not_lt.mpr positive)]
  have texts : (numbers.map Value.int).mapM cellText =
      if numbers.all hasWritableLength then .ok (numbers.map toString) else .error .tooLongToWrite := by
    have each : cellText ∘ Value.int = fun n => if hasWritableLength n then .ok (toString n) else .error .tooLongToWrite := by
      funext n
      have cell : cellText (.int n) = shownText (.int n) := rfl
      rw [Function.comp, cell, shownText_int]
    rw [List.mapM_map, each, mapM_guarded]
  unfold tableText
  rw [rows]
  cases last : numbers.getLast? with
  | none =>
    rw [List.getLast?_eq_none_iff.mp last]
    rfl
  | some n =>
    have given : (Value.list (numbers.map .int)).truth = true := by
      cases numbers with
      | nil => cases last
      | cons first rest => rfl
    simp only [bind, Except.bind, given, toItems, toInteger, integer?, texts, List.getLast?_map, last, Listing.table,
      Option.map_some, Option.getD_some, shownText_int]
    cases writable : hasWritableLength n with
    | true =>
      cases numbers.all hasWritableLength with
      | false => rfl
      | true => rfl
    | false =>
      have kept : numbers.all hasWritableLength = false := by
        refine Bool.eq_false_iff.mpr fun each => ?_
        rw [List.all_eq_true.mp each n (List.mem_of_getLast? last)] at writable
        cases writable
      rw [kept]
      rfl

end Calculator
end Surd
