import Zicket.Foundation.MultilinearFolds
import Zicket.Verifier.Trace

/-! The columns of committed polynomials: the coefficients are the rows, and the rows that the
relations hold for are all but the last four. -/

namespace Zicket.Verifier

open Host Foundation Polynomial

variable {n i : ℕ} {u v : ℕ → Fr} {P : Fr[X]}

section Extensions

def extended (u : Fin n → Fr) (j : ℕ) : Fr := if less : j < n then u ⟨j, less⟩ else 0

theorem extended_lt (u : Fin n → Fr) (j : Fin n) : extended u j = u j := dif_pos j.isLt

theorem multilinearValue_congr (same : ∀ j < n, u j = v j) (P : Fr[X]) :
    multilinearValue u n P = multilinearValue v n P := by
  refine Finset.sum_congr rfl fun i _ => congrArg (· * P.coeff i) ?_
  refine Finset.prod_congr rfl fun j mem => ?_
  rw [same j (Finset.mem_range.mp mem)]

theorem multilinearValue_degree (P : Fr[X]) :
    HasDegree 1 fun u : Fin n → Fr => multilinearValue (extended u) n P := by
  refine HasDegree.sum fun i _ => ?_
  have weight := HasDegree.prod_affine Finset.univ
    (fun j : Fin n => if i.testBit j then (0 : Fr) else 1)
    (fun j : Fin n => if i.testBit j then (1 : Fr) else -1)
  have term := weight.mul (HasDegree.const (n := n) (P.coeff i))
  refine term.congr fun u => congrArg (· * P.coeff i) ?_
  rw [rowWeight, Finset.prod_range]
  refine Finset.prod_congr rfl fun j _ => ?_
  rw [extended_lt]
  split
  · rw [zero_add, one_mul]
  · rw [neg_one_mul, ← sub_eq_add_neg]

/-- The polynomials that are opened: those of the key, of the prover, and of the shifts. -/
noncomputable def tracePolynomial (key column : ℕ → Fr[X]) (i : ℕ) : Fr[X] :=
  if i < 27 then key i
  else if i < numberUnshifted then column (i - 27)
  else (column (i - numberUnshifted)).divX

noncomputable def traceColumns (key column : ℕ → Fr[X]) (n : ℕ) : Columns n where
  column wire u := multilinearValue (extended u) n (tracePolynomial key column wire.ctorIdx)
  multilinear _ := multilinearValue_degree _

end Extensions

section Corners

def corner (n i : ℕ) (j : Fin n) : Fr := if i.testBit j then 1 else 0

theorem eq_of_testBit {k : ℕ} (first : i < 2 ^ n) (second : k < 2 ^ n)
    (same : ∀ j < n, i.testBit j = k.testBit j) : i = k := by
  refine Nat.eq_of_testBit_eq fun j => ?_
  by_cases less : j < n
  · exact same j less
  · have beyond : 2 ^ n ≤ 2 ^ j := Nat.pow_le_pow_right two_pos (not_lt.mp less)
    rw [Nat.testBit_lt_two_pow (first.trans_le beyond),
      Nat.testBit_lt_two_pow (second.trans_le beyond)]

theorem corner_mem_cube : corner n i ∈ cube n :=
  Fintype.mem_piFinset.mpr fun j => by
    rw [corner]
    split <;> simp

theorem corner_injOn : Set.InjOn (corner n) (Finset.range (2 ^ n)) := by
  intro i first k second same
  refine eq_of_testBit (Finset.mem_range.mp first) (Finset.mem_range.mp second) fun j less => ?_
  have bit := congrFun same ⟨j, less⟩
  simp only [corner] at bit
  cases left : i.testBit j <;> cases right : k.testBit j <;> simp [left, right] at bit ⊢

theorem cube_eq_image : cube n = (Finset.range (2 ^ n)).image (corner n) := by
  refine (Finset.eq_of_subset_of_card_le (fun z mem => ?_) ?_).symm
  · obtain ⟨i, -, rfl⟩ := Finset.mem_image.mp mem
    exact corner_mem_cube
  · rw [Finset.card_image_of_injOn corner_injOn, Finset.card_range, cube, Fintype.card_piFinset]
    simp

theorem rowWeight_corner {k : ℕ} (first : i < 2 ^ n) (second : k < 2 ^ n) :
    rowWeight (extended (corner n i)) n k = if k = i then 1 else 0 := by
  rw [rowWeight, Finset.prod_range]
  by_cases same : k = i
  · rw [if_pos same, same]
    refine Finset.prod_eq_one fun j _ => ?_
    rw [extended_lt, corner]
    split <;> simp
  · rw [if_neg same]
    obtain ⟨j, less, differs⟩ : ∃ j < n, k.testBit j ≠ i.testBit j := by
      by_contra none
      push Not at none
      exact same (eq_of_testBit second first none)
    refine Finset.prod_eq_zero (Finset.mem_univ ⟨j, less⟩) ?_
    rw [extended_lt, corner]
    cases left : k.testBit j <;> cases right : i.testBit j <;> simp [left, right] at differs ⊢

theorem multilinearValue_corner (less : i < 2 ^ n) (P : Fr[X]) :
    multilinearValue (extended (corner n i)) n P = P.coeff i := by
  rw [multilinearValue, Finset.sum_eq_single_of_mem i (Finset.mem_range.mpr less)]
  · rw [rowWeight_corner less less, if_pos rfl, one_mul]
  · intro k mem differs
    rw [rowWeight_corner less (Finset.mem_range.mp mem), if_neg differs, zero_mul]

theorem two_pow_eq (enough : 2 ≤ n) : 2 ^ n = 4 * 2 ^ (n - 2) := by
  rw [show (4 : ℕ) = 2 ^ 2 from rfl, ← pow_add, Nat.add_sub_cancel' enough]

/-- The last four rows have ones in all bits but the first two. -/
theorem lastRows_corner (less : i < 2 ^ n) : lastRows (corner n i) = 0 ↔ i < 2 ^ n - 4 := by
  have product : lastRows (corner n i) = 0 ↔ ∃ j : Fin n, 2 ≤ j.val ∧ i.testBit j = false := by
    rw [lastRows, Finset.prod_eq_zero_iff]
    refine exists_congr fun j => ?_
    rw [Finset.mem_filter, corner]
    cases i.testBit j <;> simp
  rw [product]
  constructor
  · rintro ⟨j, later, zero⟩
    by_contra large
    have enough : 2 ≤ n := later.trans j.isLt.le
    have four := two_pow_eq enough
    have quotient : i / 2 ^ 2 = 2 ^ (n - 2) - 1 := by
      have positive := Nat.two_pow_pos (n - 2)
      omega
    have bit : (i / 2 ^ 2).testBit (j - 2) = i.testBit j := by
      rw [Nat.testBit_div_two_pow, Nat.sub_add_cancel later]
    rw [quotient, Nat.testBit_two_pow_sub_one, zero, decide_eq_false_iff_not] at bit
    exact bit (by have := j.isLt; omega)
  · intro small
    by_contra ones
    push Not at ones
    have enough : 2 ≤ n := by
      by_contra few
      interval_cases n <;> omega
    have four := two_pow_eq enough
    have quotient : i / 2 ^ 2 = 2 ^ (n - 2) - 1 := by
      have positive := Nat.two_pow_pos (n - 2)
      refine eq_of_testBit (n := n - 2) (by omega) (by omega) fun j within => ?_
      have bit := ones ⟨j + 2, by omega⟩ (Nat.le_add_left 2 j)
      rw [Nat.testBit_div_two_pow, Nat.testBit_two_pow_sub_one, decide_eq_true within]
      simpa using bit
    omega

theorem enabledRows_eq : enabledRows n = (Finset.range (2 ^ n - 4)).image (corner n) := by
  ext z
  rw [enabledRows, Finset.mem_filter, cube_eq_image, Finset.mem_image, Finset.mem_image]
  constructor
  · rintro ⟨⟨i, mem, rfl⟩, off⟩
    exact ⟨i, Finset.mem_range.mpr ((lastRows_corner (Finset.mem_range.mp mem)).mp off), rfl⟩
  · rintro ⟨i, mem, rfl⟩
    have small := Finset.mem_range.mp mem
    have less : i < 2 ^ n := by omega
    exact ⟨⟨i, Finset.mem_range.mpr less, rfl⟩, (lastRows_corner less).mpr small⟩

theorem forall_enabledRows {Q : (Fin n → Fr) → Prop} :
    (∀ z ∈ enabledRows n, Q z) ↔ ∀ i < 2 ^ n - 4, Q (corner n i) := by
  simp [enabledRows_eq]

theorem sum_enabledRows (f : (Fin n → Fr) → Fr) :
    ∑ z ∈ enabledRows n, f z = ∑ i ∈ Finset.range (2 ^ n - 4), f (corner n i) := by
  rw [enabledRows_eq]
  refine Finset.sum_image (corner_injOn.mono fun i mem => ?_)
  have small := Finset.mem_range.mp mem
  exact Finset.mem_coe.mpr (Finset.mem_range.mpr (by omega))

end Corners

section Rows

variable {key column : ℕ → Fr[X]}

noncomputable def rowValue (key column : ℕ → Fr[X]) (i : ℕ) (wire : Wire) : Fr :=
  (tracePolynomial key column wire.ctorIdx).coeff i

theorem traceColumns_corner (less : i < 2 ^ n) :
    ((traceColumns key column n).column · (corner n i)) = rowValue key column i :=
  funext fun _ => multilinearValue_corner less _

end Rows

end Zicket.Verifier
