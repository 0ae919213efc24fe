import Surd.Proofs.FaultTexts
import Surd.Proofs.TrialDivision

/-! Trial division over any table, as a loop that nothing bounds. Its rules say what one entry does to
what remains; a course of them is finite as soon as no entry is a unit, since each division then makes what
remains smaller and never zero. What the course keeps is that the factors found and what remains multiply to
the number, and that the signs of the entries are the only way to leave the words. -/

namespace Surd.PrimeTable

/-- Division by one entry: how often it goes on, as long as it leaves no remainder, and what is left. -/
inductive DividesOut (p : Int) : Int → Nat → Int → Prop where
  | spared {n : Int} : ¬p ∣ n → DividesOut p n 0 n
  | again {n rest : Int} {count : Nat} : p ∣ n → DividesOut p (n / p) count rest → DividesOut p n (count + 1) rest

namespace DividesOut
variable {p n rest : Int} {count : Nat}

/-- A unit divides for ever, and zero is divided for ever. -/
theorem proper (divided : DividesOut p n count rest) : p.natAbs ≠ 1 ∧ n ≠ 0 := by
  induction divided with
  | spared undivided =>
    refine ⟨fun unit => undivided (Int.natAbs_dvd.mp ?_), ?_⟩
    · rw [unit]
      exact one_dvd _
    · rintro rfl
      exact undivided (dvd_zero p)
  | again divides _ ih =>
    refine ⟨ih.1, ?_⟩
    rintro rfl
    exact ih.2 (Int.zero_ediv p)

theorem product (divided : DividesOut p n count rest) : n = p ^ count * rest ∧ ¬p ∣ rest := by
  induction divided with
  | spared undivided => exact ⟨by rw [pow_zero, one_mul], undivided⟩
  | @again n rest count divides _ ih =>
    refine ⟨?_, ih.2⟩
    calc n = p * (n / p) := (Int.mul_ediv_cancel' divides).symm
      _ = p * (p ^ count * rest) := by rw [← ih.1]
      _ = p ^ (count + 1) * rest := by rw [pow_succ', mul_assoc]

private theorem rest_dvd (divided : DividesOut p n count rest) : rest ∣ n :=
  ⟨p ^ count, by rw [divided.product.1, mul_comm]⟩

/-- A division that comes to an end is the one that the guard lets through. -/
theorem divideOut_eq (divided : DividesOut p n count rest) : divideOut p n = (count, rest) := by
  induction divided with
  | spared undivided =>
    rw [divideOut, dif_neg]
    exact fun again => undivided again.2.2
  | @again n rest count divides after ih =>
    have nonzero : n ≠ 0 := (DividesOut.again divides after).proper.2
    have large : 2 ≤ p.natAbs := by
      have unit := after.proper.1
      have zero : p ≠ 0 := fun zero => nonzero (zero_dvd_iff.mp (zero ▸ divides))
      omega
    rw [divideOut, dif_pos ⟨large, nonzero, divides⟩, ih]

end DividesOut

private theorem dividesOut_divideOut {p n : Int} (unit : p.natAbs ≠ 1) (nonzero : n ≠ 0) :
    DividesOut p n (divideOut p n).1 (divideOut p n).2 := by
  fun_induction divideOut p n with
  | case1 n again rest ih =>
    refine .again again.2.2 (ih fun zero => nonzero ?_)
    rw [← Int.mul_ediv_cancel' again.2.2, zero, mul_zero]
  | case2 n stopped =>
    apply DividesOut.spared
    intro divides
    have zero : p ≠ 0 := fun zero => nonzero (zero_dvd_iff.mp (zero ▸ divides))
    exact stopped ⟨by omega, nonzero, divides⟩

/-- How division goes over the entries to come, with what remains and its limit, and what it answers. -/
inductive Division : List Int → Int → Nat → Except Fault (List Factor) → Prop where
  | exhausted {n : Int} {limit : Nat} : Division [] n limit (.ok [⟨n, 1⟩])
  | passed {p n : Int} {row : List Int} {limit : Nat} : (limit : Int) < p → Division (p :: row) n limit (.ok [⟨n, 1⟩])
  | zero {n : Int} {row : List Int} {limit : Nat} : Division (0 :: row) n limit (.error .zeroModulus)
  | spared {p n : Int} {row : List Int} {limit : Nat} {answer : Except Fault (List Factor)} : p ≤ limit → p ≠ 0 →
      ¬p ∣ n → Division row n limit answer → Division (p :: row) n limit answer
  | whole {p n : Int} {row : List Int} {limit count : Nat} : p ≤ limit → p ≠ 0 → DividesOut p n (count + 1) 1 →
      Division (p :: row) n limit (.ok [⟨p, count + 1⟩])
  | refused {p n rest : Int} {row : List Int} {limit count : Nat} {fault : Fault} : p ≤ limit → p ≠ 0 →
      DividesOut p n (count + 1) rest → rest ≠ 1 → floorRoot? rest = .error fault → Division (p :: row) n limit (.error fault)
  | further {p n rest : Int} {row : List Int} {limit count next : Nat} {answer : Except Fault (List Factor)} : p ≤ limit →
      p ≠ 0 → DividesOut p n (count + 1) rest → rest ≠ 1 → floorRoot? rest = .ok next → Division row rest next answer →
      Division (p :: row) n limit (answer.map fun others => ⟨p, count + 1⟩ :: others)

theorem trialDivide_cons {p n rest : Int} {limit count : Nat} (row : List Int) (within : p ≤ limit) (nonzero : p ≠ 0)
    (divided : divideOut p n = (count, rest)) :
    trialDivide (p :: row) n limit =
      if count = 0 then trialDivide row n limit
      else if rest = 1 then .ok [⟨p, count⟩]
      else floorRoot? rest >>= fun next => (trialDivide row rest next).map fun others => ⟨p, count⟩ :: others := by
  rw [trialDivide, if_neg (by omega), if_neg nonzero, divided]
  rfl

/-- Wherever the loop comes to an end, the table gives its answer. -/
theorem Division.eq_trialDivide {row : List Int} {n : Int} {limit : Nat} {answer : Except Fault (List Factor)}
    (division : Division row n limit answer) : answer = trialDivide row n limit := by
  induction division with
  | exhausted => rfl
  | passed beyond => rw [trialDivide, if_pos beyond]
  | zero => rw [trialDivide, if_neg (by omega), if_pos rfl]
  | spared within nonzero undivided _ ih =>
    rw [trialDivide_cons _ within nonzero (DividesOut.spared undivided).divideOut_eq, if_pos rfl, ih]
  | whole within nonzero out =>
    rw [trialDivide_cons _ within nonzero out.divideOut_eq, if_neg (Nat.succ_ne_zero _), if_pos rfl]
  | refused within nonzero out more fails =>
    rw [trialDivide_cons _ within nonzero out.divideOut_eq, if_neg (Nat.succ_ne_zero _), if_neg more, fails]
    rfl
  | further within nonzero out more root _ ih =>
    rw [trialDivide_cons _ within nonzero out.divideOut_eq, if_neg (Nat.succ_ne_zero _), if_neg more, root, ih]
    rfl

/-- Without a unit among the entries the loop comes to an end. -/
theorem division_trialDivide {row : List Int} (units : ∀ p ∈ row, p.natAbs ≠ 1) {n : Int} (nonzero : n ≠ 0) (limit : Nat) :
    Division row n limit (trialDivide row n limit) := by
  induction row generalizing n limit with
  | nil => exact .exhausted
  | cons p row ih =>
    obtain ⟨unit, others⟩ := List.forall_mem_cons.mp units
    have out := dividesOut_divideOut unit nonzero
    rcases Int.lt_or_le limit p with beyond | within
    · rw [trialDivide, if_pos beyond]
      exact .passed beyond
    rcases eq_or_ne p 0 with rfl | proper
    · rw [trialDivide, if_neg (by omega), if_pos rfl]
      exact .zero
    cases divided : divideOut p n with
    | mk count rest =>
      rw [divided] at out
      rw [trialDivide_cons row within proper divided]
      cases out with
      | spared undivided => exact .spared within proper undivided (ih others nonzero limit)
      | @again _ _ count divides after =>
        have out := DividesOut.again divides after
        rw [if_neg (Nat.succ_ne_zero _)]
        split
        next all => exact .whole within proper (all ▸ out)
        next more =>
          have remains : rest ≠ 0 := by
            rintro rfl
            exact nonzero (by rw [out.product.1, mul_zero])
          cases root : floorRoot? rest with
          | error fault => exact .refused within proper out more root
          | ok next => exact .further within proper out more root (ih others remains next)

/-- A number as factors of which all but the last are entries of a row, in the order of the row. -/
structure Factored (row : List Int) (n : Int) (factors : List Factor) : Prop where
  nonempty : factors ≠ []
  count_pos : ∀ factor ∈ factors, 1 ≤ factor.count
  product : (factors.map Factor.value).prod = n
  base_dvd : ∀ factor ∈ factors, factor.base ∣ n
  inner : ∀ factor ∈ factors.dropLast, factor.base ∈ row
  ordered : ((factors.map Factor.base).filter (· ∈ row)).Sublist row

namespace Factored
variable {p n rest : Int} {row : List Int} {count : Nat} {factors : List Factor}

/-- What remains at the end is the last factor. -/
theorem last (row : List Int) (n : Int) : Factored row n [⟨n, 1⟩] where
  nonempty := List.cons_ne_nil _ _
  count_pos := by simp
  product := by simp [Factor.value]
  base_dvd := by simp
  inner := by simp
  ordered := by
    by_cases member : n ∈ row
    · simp [member]
    · simp [member]

/-- An entry that does not divide the number is the base of none of its factors. -/
theorem filter_bases (factored : Factored row n factors) (undivided : ¬p ∣ n) :
    (factors.map Factor.base).filter (· ∈ p :: row) = (factors.map Factor.base).filter (· ∈ row) := by
  apply List.filter_congr
  intro base member
  obtain ⟨factor, inside, rfl⟩ := List.mem_map.mp member
  have other : factor.base ≠ p := fun same => undivided (same ▸ factored.base_dvd factor inside)
  simp only [List.mem_cons, other, false_or]

theorem spared (factored : Factored row n factors) (undivided : ¬p ∣ n) : Factored (p :: row) n factors where
  nonempty := factored.nonempty
  count_pos := factored.count_pos
  product := factored.product
  base_dvd := factored.base_dvd
  inner := fun factor member => List.mem_cons_of_mem p (factored.inner factor member)
  ordered := by
    rw [factored.filter_bases undivided]
    exact factored.ordered.cons p

theorem whole (row : List Int) (p : Int) (count : Nat) : Factored (p :: row) (p ^ (count + 1)) [⟨p, count + 1⟩] where
  nonempty := List.cons_ne_nil _ _
  count_pos := by simp
  product := by simp [Factor.value]
  base_dvd := by simp [pow_succ]
  inner := by simp
  ordered := by simp

theorem further (factored : Factored row rest factors) (undivided : ¬p ∣ rest) (count : Nat) :
    Factored (p :: row) (p ^ (count + 1) * rest) (⟨p, count + 1⟩ :: factors) where
  nonempty := List.cons_ne_nil _ _
  count_pos := List.forall_mem_cons.mpr ⟨Nat.succ_pos count, factored.count_pos⟩
  product := by
    rw [List.map_cons, List.prod_cons, factored.product]
    rfl
  base_dvd := by
    refine List.forall_mem_cons.mpr ⟨(dvd_pow_self p (Nat.succ_ne_zero count)).mul_right rest, fun factor member => ?_⟩
    exact (factored.base_dvd factor member).mul_left _
  inner := by
    rw [List.dropLast_cons_of_ne_nil factored.nonempty]
    refine List.forall_mem_cons.mpr ⟨List.mem_cons_self, fun factor member => ?_⟩
    exact List.mem_cons_of_mem p (factored.inner factor member)
  ordered := by
    have first : decide (p ∈ p :: row) = true := decide_eq_true List.mem_cons_self
    rw [List.map_cons, List.filter_cons, if_pos first, factored.filter_bases undivided]
    exact factored.ordered.cons_cons p

end Factored

/-- What stops a division: an entry that is zero, or what remains behind a negative one. -/
def Stopped (row : List Int) (fault : Fault) : Prop :=
  fault = .zeroModulus ∧ 0 ∈ row ∨
    (∃ rest < 0, fault = .outsideWord "sqrt_floor argument" rest) ∧ ∃ p ∈ row, p < 0

theorem Stopped.later {row : List Int} {fault : Fault} (p : Int) (stopped : Stopped row fault) : Stopped (p :: row) fault := by
  rcases stopped with ⟨zero, member⟩ | ⟨outside, q, member, negative⟩
  · exact .inl ⟨zero, List.mem_cons_of_mem p member⟩
  · exact .inr ⟨outside, q, List.mem_cons_of_mem p member, negative⟩

/-- A positive word keeps its sign behind a positive entry. -/
private theorem DividesOut.neg_of_neg {p n rest : Int} {count : Nat} (out : DividesOut p n count rest) (positive : 0 < n)
    (negative : rest < 0) : p < 0 := by
  by_contra nonneg
  have power : 0 ≤ p ^ count := pow_nonneg (Int.not_lt.mp nonneg) count
  have product := mul_nonpos_of_nonneg_of_nonpos power negative.le
  rw [← out.product.1] at product
  omega

/-- What a division of a word comes to. Wherever it goes on, what remains is a word again, for its limit
could be taken. -/
theorem Division.ends {row : List Int} {n : Int} {limit : Nat} {answer : Except Fault (List Factor)}
    (division : Division row n limit answer) (positive : 0 < n) (word : n ≤ wordMax) :
    Ends (Stopped row) (Factored row n) answer := by
  induction division with
  | exhausted => exact .last _ _
  | passed => exact .last _ _
  | zero => exact .inl ⟨rfl, List.mem_cons_self⟩
  | @spared p n row limit answer within nonzero undivided _ ih =>
    exact (ih positive word).mono (fun _ => .later p) fun _ factored => factored.spared undivided
  | @whole p n row limit count within nonzero out =>
    have power : n = p ^ (count + 1) := by rw [out.product.1, mul_one]
    rw [power]
    exact .whole row p count
  | @refused p n rest row limit count fault within nonzero out more fails =>
    have small := Int.le_of_dvd positive out.rest_dvd
    rcases floorRoot?_cases rest with ⟨-, -, root⟩ | ⟨outside, refusal⟩
    · cases fails.symm.trans root
    · have negative : rest < 0 := by omega
      have size : rest.natAbs ≤ n.natAbs := Int.natAbs_le_of_dvd_ne_zero out.rest_dvd positive.ne'
      have writable : hasWritableLength rest = true := by
        simp only [wordMax] at word
        exact writable_of_small (by omega)
      rw [Fault.showing_of_writable (by rw [List.all_cons, writable]; rfl)] at refusal
      cases fails.symm.trans refusal
      exact .inr ⟨⟨rest, negative, rfl⟩, p, List.mem_cons_self, out.neg_of_neg positive negative⟩
  | @further p n rest row limit count next answer within nonzero out more root _ ih =>
    rcases floorRoot?_cases rest with ⟨nonneg, small, -⟩ | ⟨-, refusal⟩
    · have remains : rest ≠ 0 := by
        rintro rfl
        rw [out.product.1, mul_zero] at positive
        exact absurd positive (Int.lt_irrefl 0)
      have after := (ih (by omega) small).mono (fun _ => Stopped.later p) fun _ factored => factored
      rw [out.product.1]
      exact after.map fun _ factored => factored.further out.product.2 count
    · cases root.symm.trans refusal

/-- A table of any ascending integers without a unit divides every word above one in finitely many steps.
It answers with factors that multiply to the word, all but the last from the table and in its order, unless
it stops at an entry that is zero or with a negative number behind a negative entry. -/
theorem factors_any_entries {entries : List Int} {bound : Option Int} {table : PrimeTable}
    (accepted : ofList? entries bound = .ok table) (units : ∀ p ∈ entries, p ≠ 1 ∧ p ≠ -1) {n : Nat} (above : 2 ≤ n)
    (word : n ≤ wordMax) :
    (∀ answer, Division entries n (floorRoot n) answer ↔ answer = table.factors n) ∧
      (∀ factors, table.factors n = .ok factors →
        (∀ factor ∈ factors, 1 ≤ factor.count) ∧ (factors.map Factor.value).prod = n ∧
          (∀ factor ∈ factors.dropLast, factor.base ∈ entries) ∧
          ((factors.map Factor.base).filter (· ∈ entries)).Pairwise (· < ·)) ∧
      (∀ fault, table.factors n = .error fault →
        fault.kind = .zeroDivision ∧ 0 ∈ entries ∨ fault.kind = .outOfRange ∧ ∃ p ∈ entries, p < 0) ∧
      ((∀ p ∈ entries, 2 ≤ p) → ∃ factors, table.factors n = .ok factors) := by
  have row := toList_entries accepted
  have ascending := row ▸ table.ascending
  have proper : ∀ p ∈ entries, p.natAbs ≠ 1 := fun p member unit => by
    have := units p member
    omega
  have answers : table.factors n = trialDivide entries n (floorRoot n) := row ▸ table.factors_eq_trialDivide above word
  have division := division_trialDivide proper (show (n : Int) ≠ 0 by omega) (floorRoot n)
  have ends := division.ends (by omega) (by omega)
  rw [← answers] at division ends
  have stopped : ∀ fault, table.factors n = .error fault →
      fault.kind = .zeroDivision ∧ 0 ∈ entries ∨ fault.kind = .outOfRange ∧ ∃ p ∈ entries, p < 0 := by
    intro fault failed
    rcases ends.fault failed with ⟨rfl, zero⟩ | ⟨⟨rest, -, rfl⟩, negative⟩
    · exact .inl ⟨rfl, zero⟩
    · exact .inr ⟨rfl, negative⟩
  refine ⟨fun answer => ⟨fun ended => answers ▸ ended.eq_trialDivide, fun same => same ▸ division⟩, ?_, stopped, ?_⟩
  · intro factors answered
    have factored := ends.answer answered
    exact ⟨factored.count_pos, factored.product, factored.inner, ascending.sublist factored.ordered⟩
  · intro large
    cases answered : table.factors n with
    | ok factors => exact ⟨factors, rfl⟩
    | error fault =>
      rcases stopped fault answered with ⟨-, zero⟩ | ⟨-, p, member, negative⟩
      · exact absurd (large 0 zero) (by decide)
      · exact absurd (large p member) (by omega)

/-- A negative entry that divides an even number of times changes no sign. -/
theorem factors_any_entries_negative :
    ∃ table, ofList? [-3, 2, 5] (some 10) = .ok table ∧ table.factors 18 = .ok [⟨-3, 2⟩, ⟨2, 1⟩] := by
  obtain ⟨table, accepted⟩ : ∃ table, ofList? [-3, 2, 5] (some 10) = .ok table := ⟨_, rfl⟩
  have ends := (@factors_any_entries _ _ _ accepted (by decide) 18 (by decide) (by decide)).1
  have out : DividesOut (-3) 18 2 2 := .again (by decide) (.again (by decide) (.spared (by decide)))
  have root : floorRoot? 2 = .ok 1 := by
    have word : 2 ≤ wordMax := by decide
    have one : 1 = Nat.sqrt 2 := Nat.eq_sqrt.mpr ⟨by decide, by decide⟩
    rw [one, ← floorRoot_eq_sqrt word]
    exact floorRoot?_eq_ok word
  have division : Division [-3, 2, 5] (18 : Nat) (floorRoot 18) (.ok [⟨-3, 2⟩, ⟨2, 1⟩]) :=
    .further (by omega) (by decide) out (by decide) root (.passed (by decide))
  exact ⟨table, accepted, ((ends _).mp division).symm⟩

end Surd.PrimeTable
