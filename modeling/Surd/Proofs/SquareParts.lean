import Mathlib.Data.Nat.Squarefree
import Surd.Proofs.TrialDivision
import Surd.SquareSplit

/-! A number as a square times a square-free number, read off its prime exponents. The
quotient of an exponent by two goes to the square and its remainder to the root; over a
root the exponent is rounded up instead. -/

namespace Surd

/-- The number whose exponents are those of the given one, each put through a rule. -/
def reweigh (power : Nat → Nat) (n : Nat) : Nat := ∏ p ∈ n.primeFactors, p ^ power (n.factorization p)

/-- The product of the primes that occur an odd number of times. -/
def oddPart (n : Nat) : Nat := ∏ p ∈ n.primeFactors with n.factorization p % 2 = 1, p

/-- The number whose square divides the given one and leaves a square-free quotient. -/
def squarePart (n : Nat) : Nat := if n = 0 then 0 else reweigh (fun count => count / 2) n

/-- The number whose square is the given one times its odd part. -/
def coveringPart (n : Nat) : Nat := reweigh (fun count => (count + 1) / 2) n

theorem reweigh_ne_zero (power : Nat → Nat) (n : Nat) : reweigh power n ≠ 0 :=
  Finset.prod_ne_zero_iff.mpr fun _ member => pow_ne_zero _ (Nat.prime_of_mem_primeFactors member).ne_zero

theorem factorization_reweigh {power : Nat → Nat} (zero : power 0 = 0) (n q : Nat) :
    (reweigh power n).factorization q = power (n.factorization q) := by
  have exponents : reweigh power n = (n.factorization.mapRange power zero).prod (· ^ ·) := by
    rw [Finsupp.prod_mapRange_index (fun p => Nat.pow_zero p)]
    rfl
  have primes : ∀ p ∈ (n.factorization.mapRange power zero).support, p.Prime := fun p member =>
    Nat.prime_of_mem_primeFactors (Finsupp.support_mapRange member)
  rw [exponents, Nat.prod_pow_factorization_eq_self primes, Finsupp.mapRange_apply]

theorem oddPart_eq_reweigh (n : Nat) : oddPart n = reweigh (fun count => count % 2) n := by
  unfold oddPart reweigh
  rw [Finset.prod_filter]
  apply Finset.prod_congr rfl
  intro p _
  dsimp only
  split
  next odd => rw [odd, Nat.pow_one]
  next even => rw [show n.factorization p % 2 = 0 by omega, Nat.pow_zero]

theorem oddPart_ne_zero (n : Nat) : oddPart n ≠ 0 := oddPart_eq_reweigh n ▸ reweigh_ne_zero _ n

theorem factorization_oddPart (n q : Nat) : (oddPart n).factorization q = n.factorization q % 2 := by
  rw [oddPart_eq_reweigh, factorization_reweigh (Nat.zero_mod 2)]

theorem oddPart_zero : oddPart 0 = 1 := by simp [oddPart]

theorem oddPart_one : oddPart 1 = 1 := by simp [oddPart]

theorem squarefree_oddPart (n : Nat) : Squarefree (oddPart n) := by
  apply Nat.squarefree_of_factorization_le_one (oddPart_ne_zero n)
  intro p
  rw [factorization_oddPart]
  omega

theorem squarePart_ne_zero {n : Nat} (nonzero : n ≠ 0) : squarePart n ≠ 0 := by
  rw [squarePart, if_neg nonzero]
  exact reweigh_ne_zero _ n

theorem factorization_squarePart (n q : Nat) : (squarePart n).factorization q = n.factorization q / 2 := by
  unfold squarePart
  split
  next zero => simp [zero]
  next => exact factorization_reweigh (Nat.zero_div 2) n q

theorem factorization_coveringPart (n q : Nat) : (coveringPart n).factorization q = (n.factorization q + 1) / 2 :=
  factorization_reweigh rfl n q

theorem squarePart_mul_oddPart (n : Nat) : squarePart n * squarePart n * oddPart n = n := by
  rcases Nat.eq_zero_or_pos n with rfl | positive
  · simp [squarePart]
  · have nonzero := squarePart_ne_zero positive.ne'
    apply Nat.eq_of_factorization_eq (mul_ne_zero (mul_ne_zero nonzero nonzero) (oddPart_ne_zero n)) positive.ne'
    intro p
    rw [Nat.factorization_mul (mul_ne_zero nonzero nonzero) (oddPart_ne_zero n), Nat.factorization_mul nonzero nonzero]
    simp only [Finsupp.add_apply, factorization_squarePart, factorization_oddPart]
    omega

theorem mul_oddPart {n : Nat} (nonzero : n ≠ 0) : n * oddPart n = coveringPart n * coveringPart n := by
  have covering : coveringPart n ≠ 0 := reweigh_ne_zero _ n
  apply Nat.eq_of_factorization_eq (mul_ne_zero nonzero (oddPart_ne_zero n)) (mul_ne_zero covering covering)
  intro p
  rw [Nat.factorization_mul nonzero (oddPart_ne_zero n), Nat.factorization_mul covering covering]
  simp only [Finsupp.add_apply, factorization_coveringPart, factorization_oddPart]
  omega

theorem coveringPart_dvd {n : Nat} (nonzero : n ≠ 0) : coveringPart n ∣ n := by
  have covering : coveringPart n ≠ 0 := reweigh_ne_zero _ n
  rw [← Nat.factorization_le_iff_dvd covering nonzero]
  intro p
  rw [factorization_coveringPart]
  omega

theorem oddPart_dvd {n : Nat} (nonzero : n ≠ 0) : oddPart n ∣ n := by
  rw [← Nat.factorization_le_iff_dvd (oddPart_ne_zero n) nonzero]
  intro p
  rw [factorization_oddPart]
  omega

/-- Square-free roots of equal products are equal: each prime exponent of the product tells by
its parity whether the root has the prime. -/
theorem square_mul_unique {a b s t : Nat} (nonzeroA : a ≠ 0) (nonzeroB : b ≠ 0) (freeS : Squarefree s)
    (freeT : Squarefree t) (same : a * a * s = b * b * t) : a = b ∧ s = t := by
  have roots : s = t := by
    apply Nat.eq_of_factorization_eq freeS.ne_zero freeT.ne_zero
    intro p
    have exponents := congrArg (fun n : Nat => n.factorization p) same
    simp only [Nat.factorization_mul (mul_ne_zero nonzeroA nonzeroA) freeS.ne_zero, Nat.factorization_mul nonzeroA nonzeroA,
      Nat.factorization_mul (mul_ne_zero nonzeroB nonzeroB) freeT.ne_zero, Nat.factorization_mul nonzeroB nonzeroB,
      Finsupp.add_apply] at exponents
    have small := freeS.natFactorization_le_one p
    have smallT := freeT.natFactorization_le_one p
    omega
  subst roots
  have squares := Nat.eq_of_mul_eq_mul_right (Nat.pos_of_ne_zero freeS.ne_zero) same
  exact ⟨Nat.mul_self_inj.mp squares, rfl⟩

/-- A square-free factor without a common prime leaves the square as it is and joins the root. -/
theorem parts_mul_oddPart {m d : Nat} (coprime : Nat.Coprime m d) (nonzero : d ≠ 0) :
    squarePart (m * oddPart d) = squarePart m ∧ oddPart (m * oddPart d) = oddPart m * oddPart d := by
  rcases Nat.eq_zero_or_pos m with rfl | positive
  · have one : d = 1 := (Nat.coprime_zero_left d).mp coprime
    rw [one, oddPart_one, Nat.mul_one, Nat.mul_one]
    exact ⟨rfl, rfl⟩
  · have coprimeOdd : (oddPart m).Coprime (oddPart d) :=
      (coprime.coprime_dvd_left (oddPart_dvd positive.ne')).coprime_dvd_right (oddPart_dvd nonzero)
    have product : m * oddPart d ≠ 0 := mul_ne_zero positive.ne' (oddPart_ne_zero d)
    apply square_mul_unique (squarePart_ne_zero product) (squarePart_ne_zero positive.ne') (squarefree_oddPart _)
    · exact (Nat.squarefree_mul coprimeOdd).mpr ⟨squarefree_oddPart m, squarefree_oddPart d⟩
    · rw [squarePart_mul_oddPart, ← Nat.mul_assoc, squarePart_mul_oddPart]

theorem squarePart_dvd (n : Nat) : squarePart n * squarePart n ∣ n :=
  ⟨oddPart n, (squarePart_mul_oddPart n).symm⟩

theorem squarePart_le (n : Nat) : squarePart n ≤ n := by
  rcases Nat.eq_zero_or_pos n with rfl | positive
  · exact Nat.le_refl _
  · exact (Nat.le_mul_self _).trans (Nat.le_of_dvd positive (squarePart_dvd n))

theorem oddPart_mul_self {n : Nat} (nonzero : n ≠ 0) : oddPart (n * n) = 1 := by
  have product : n * n ≠ 0 := mul_ne_zero nonzero nonzero
  refine (square_mul_unique (squarePart_ne_zero product) nonzero (squarefree_oddPart _) squarefree_one ?_).2
  rw [squarePart_mul_oddPart, Nat.mul_one]

/-- The covering part has the odd part once more than the square part. -/
private theorem coveringPart_eq_mul {n : Nat} (nonzero : n ≠ 0) : coveringPart n = squarePart n * oddPart n := by
  apply Nat.mul_self_inj.mp
  calc coveringPart n * coveringPart n = n * oddPart n := (mul_oddPart nonzero).symm
    _ = squarePart n * squarePart n * oddPart n * oddPart n := by rw [squarePart_mul_oddPart]
    _ = squarePart n * oddPart n * (squarePart n * oddPart n) := by
      rw [Nat.mul_mul_mul_comm, Nat.mul_assoc (squarePart n * squarePart n)]

theorem squarePart_eq_sqrt {n : Nat} (one : oddPart n = 1) : squarePart n = Nat.sqrt n := by
  have square := squarePart_mul_oddPart n
  rw [one, Nat.mul_one] at square
  rw [← Nat.sqrt_eq (squarePart n), square]

/-- Nothing is left beside the square exactly of squares. -/
theorem oddPart_eq_one_iff {n : Nat} : oddPart n = 1 ↔ Nat.sqrt n * Nat.sqrt n = n := by
  constructor
  · intro one
    have square := squarePart_mul_oddPart n
    rwa [one, Nat.mul_one, squarePart_eq_sqrt one] at square
  · intro square
    rcases Nat.eq_zero_or_pos n with rfl | positive
    · exact oddPart_zero
    · have nonzero : Nat.sqrt n ≠ 0 := (Nat.sqrt_pos.mpr positive).ne'
      rw [← square]
      exact oddPart_mul_self nonzero

namespace SquareSplit

private theorem product_cons (power : Nat → Nat) (factor : Factor) (rest : List Factor) :
    product power (factor :: rest) = factor.base ^ power factor.count * product power rest := rfl

theorem product_primeFactorization (power : Nat → Nat) (n : Nat) :
    product power (primeFactorization n) = reweigh power n := by
  have row : (n.primeFactors.sort.map fun p => p ^ power (n.factorization p)).prod = reweigh power n := by
    rw [← List.prod_toFinset _ (Finset.sort_nodup _ _), Finset.sort_toFinset, reweigh]
  unfold product primeFactorization
  rw [← row, ← List.prod_eq_foldr, List.map_map, Nat.cast_list_prod, List.map_map]
  apply congrArg List.prod
  apply List.map_congr_left
  intro p _
  exact (Nat.cast_pow p _).symm

theorem oddRoot_eq_product (factors : List Factor) :
    oddRoot factors = product (fun count => count % 2) factors := by
  induction factors with
  | nil => rfl
  | cons factor rest ih =>
    rw [product_cons, ← ih]
    unfold oddRoot
    rw [List.filter_cons]
    rcases Nat.mod_two_eq_zero_or_one factor.count with even | odd
    · simp only [even, Nat.zero_ne_one, beq_iff_eq, if_false, pow_zero, Int.one_mul]
    · simp only [odd, beq_self_eq_true, if_true, List.map_cons, List.foldr_cons, pow_one]

theorem oddRoot_primeFactorization (n : Nat) : oddRoot (primeFactorization n) = oddPart n := by
  rw [oddRoot_eq_product, product_primeFactorization, oddPart_eq_reweigh]

theorem timesRoot_eq {n : Nat} (word : n ≤ wordMax) : timesRoot n = .ok ⟨squarePart n, oddPart n⟩ := by
  unfold timesRoot
  split
  next small =>
    rcases small with zero | one
    · obtain rfl : n = 0 := by omega
      simp [squarePart, oddPart]
    · obtain rfl : n = 1 := by omega
      simp [squarePart, reweigh, oddPart]
  next large =>
    rw [PrimeTable.full_factors_eq (by omega) word]
    simp only [Except.map, product_primeFactorization, oddRoot_primeFactorization]
    rw [squarePart, if_neg (by omega)]

theorem overRoot_eq {n : Nat} (positive : 0 < n) (word : n ≤ wordMax) :
    overRoot n = .ok ⟨coveringPart n, oddPart n⟩ := by
  unfold overRoot
  split
  next small =>
    obtain rfl : n = 1 := by omega
    simp [coveringPart, reweigh, oddPart]
  next large =>
    rw [PrimeTable.full_factors_eq (by omega) word]
    simp only [Except.map, product_primeFactorization, oddRoot_primeFactorization]
    rfl

/-- Both splits of a word come from its square part and its odd part, zero included. -/
theorem overRoot_eq_mul {n : Nat} (word : n ≤ wordMax) :
    overRoot n = .ok ⟨squarePart n * oddPart n, oddPart n⟩ := by
  rcases Nat.eq_zero_or_pos n with rfl | positive
  · rw [oddPart_zero]
    rfl
  · rw [overRoot_eq positive word, coveringPart_eq_mul positive.ne', Nat.cast_mul]

/-- The two splits of a word agree: they have one root, square-free and positive, and the square over the
root is the square before it times the root. The root is one exactly of squares, whose floor root
then is both squares. -/
theorem splits_agree {n : Nat} (word : n ≤ wordMax) :
    ∃ first second : SquareSplit, timesRoot n = .ok first ∧ overRoot n = .ok second ∧
      (first.square * first.square * first.root = n ∧ Squarefree first.root ∧ 0 < first.root) ∧
      (n * second.root = second.square * second.square ∧ Squarefree second.root ∧ 0 < second.root) ∧
      second.root = first.root ∧ second.square = first.square * first.root ∧
      ∃ root : Nat, floorRoot? n = .ok root ∧ (first.root = 1 ↔ root * root = n) ∧
        (first.root = 1 → first.square = root ∧ second.square = root) := by
  have free : Squarefree (oddPart n : Int) := Int.squarefree_natCast.mpr (squarefree_oddPart n)
  have positive : (0 : Int) < oddPart n := Int.natCast_pos.mpr (Nat.pos_of_ne_zero (oddPart_ne_zero n))
  have product : (squarePart n * squarePart n * oddPart n : Int) = n := by exact_mod_cast squarePart_mul_oddPart n
  have root : floorRoot? n = .ok (Nat.sqrt n) := by rw [floorRoot?_eq_ok word, floorRoot_eq_sqrt word]
  refine ⟨_, _, timesRoot_eq word, overRoot_eq_mul word, ⟨product, free, positive⟩, ⟨?_, free, positive⟩, rfl, rfl,
    Nat.sqrt n, root, ?_, ?_⟩
  · rw [← product]
    ring
  · rw [← oddPart_eq_one_iff]
    exact Nat.cast_eq_one
  · intro one
    have same := squarePart_eq_sqrt (Nat.cast_eq_one.mp one)
    change (oddPart n : Int) = 1 at one
    refine ⟨congrArg Nat.cast same, ?_⟩
    change (squarePart n * oddPart n : Int) = Nat.sqrt n
    rw [one, same, Int.mul_one]

theorem splits_agree_mixed_exponents : timesRoot 72 = .ok ⟨6, 2⟩ ∧ overRoot 72 = .ok ⟨12, 2⟩ := by
  obtain ⟨first, second, before, behind, -, -, root, square, -⟩ := @splits_agree 72 (by decide)
  have parts : squarePart 72 = 6 ∧ oddPart 72 = 2 :=
    square_mul_unique (squarePart_ne_zero (by decide)) (by decide) (squarefree_oddPart 72) Nat.prime_two.squarefree
      (squarePart_mul_oddPart 72)
  have known : timesRoot 72 = .ok ⟨6, 2⟩ := by
    have split := @timesRoot_eq 72 (by decide)
    rwa [parts.1, parts.2] at split
  cases before.symm.trans known
  have same : second = ⟨12, 2⟩ := by
    cases second
    exact congr (congrArg SquareSplit.mk square) root
  exact ⟨before, same ▸ behind⟩

end SquareSplit
end Surd
