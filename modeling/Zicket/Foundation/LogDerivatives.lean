import Mathlib.Tactic.LinearCombination
import Zicket.Foundation.BatchOpening

/-! Sums of weighted inverses of shifted values. A value whose weights do not cancel leaves a sum
other than zero, for all shifts but few. -/

namespace Zicket.Foundation

open Polynomial

variable {F : Type} [Field F] [DecidableEq F] {ι : Type} {s : Finset ι} {value weight : ι → F}
  {v : F}

/-- The weights of a value together. -/
def residue (s : Finset ι) (value weight : ι → F) (v : F) : F := ∑ i ∈ s with value i = v, weight i

noncomputable def clearedSum (s : Finset ι) (value weight : ι → F) : F[X] :=
  ∑ v ∈ s.image value, C (residue s value weight v) * ∏ w ∈ (s.image value).erase v, (X + C w)

theorem natDegree_clearedSum_le : (clearedSum s value weight).natDegree ≤ s.card := by
  refine natDegree_sum_le_of_forall_le _ _ fun v mem => (natDegree_C_mul_le _ _).trans ?_
  refine (natDegree_prod_le _ _).trans ((Finset.sum_le_card_nsmul _ _ 1 fun w _ => ?_).trans ?_)
  · exact (natDegree_X_add_C w).le
  · rw [smul_eq_mul, mul_one]
    exact (Finset.card_erase_le).trans Finset.card_image_le

theorem eval_clearedSum {γ : F} (nonzero : ∀ i ∈ s, γ + value i ≠ 0) :
    (clearedSum s value weight).eval γ =
      (∏ w ∈ s.image value, (γ + w)) * ∑ i ∈ s, weight i * (γ + value i)⁻¹ := by
  have grouped : ∑ i ∈ s, weight i * (γ + value i)⁻¹ =
      ∑ v ∈ s.image value, residue s value weight v * (γ + v)⁻¹ := by
    rw [← Finset.sum_fiberwise_of_maps_to (g := value) (t := s.image value)
      fun i mem => Finset.mem_image_of_mem value mem]
    refine Finset.sum_congr rfl fun v _ => ?_
    rw [residue, Finset.sum_mul]
    refine Finset.sum_congr rfl fun i mem => ?_
    rw [(Finset.mem_filter.mp mem).2]
  rw [grouped, Finset.mul_sum, clearedSum, eval_finsetSum]
  refine Finset.sum_congr rfl fun v mem => ?_
  obtain ⟨i, inside, rfl⟩ := Finset.mem_image.mp mem
  have inverse := mul_inv_cancel₀ (nonzero i inside)
  rw [eval_mul, eval_C, eval_prod, ← Finset.mul_prod_erase _ _ mem]
  simp only [eval_add, eval_X, eval_C]
  linear_combination -(residue s value weight (value i) *
    ∏ w ∈ (s.image value).erase (value i), (γ + w)) * inverse

theorem clearedSum_ne_zero (pole : residue s value weight v ≠ 0) :
    clearedSum s value weight ≠ 0 := by
  have inside : v ∈ s.image value := by
    by_contra outside
    refine pole (Finset.sum_eq_zero fun i mem => absurd ?_ outside)
    obtain ⟨member, rfl⟩ := Finset.mem_filter.mp mem
    exact Finset.mem_image_of_mem value member
  intro zero
  have root := congrArg (eval (-v)) zero
  rw [clearedSum, eval_finsetSum, Finset.sum_eq_single_of_mem v inside, eval_zero, eval_mul, eval_C,
    eval_prod] at root
  · refine (mul_ne_zero pole (Finset.prod_ne_zero_iff.mpr fun w mem => ?_)) root
    rw [eval_add, eval_X, eval_C, neg_add_eq_sub]
    exact sub_ne_zero.mpr (Finset.ne_of_mem_erase mem)
  · intro w mem differs
    have factor : v ∈ (s.image value).erase w := Finset.mem_erase.mpr ⟨differs.symm, inside⟩
    rw [eval_mul, eval_prod, Finset.prod_eq_zero factor, mul_zero]
    rw [eval_add, eval_X, eval_C, neg_add_cancel]

theorem card_hidden_poles_le (pole : residue s value weight v ≠ 0) (passed : Finset F)
    (nonzero : ∀ γ ∈ passed, ∀ i ∈ s, γ + value i ≠ 0)
    (vanishes : ∀ γ ∈ passed, ∑ i ∈ s, weight i * (γ + value i)⁻¹ = 0) :
    passed.card ≤ s.card := by
  refine card_roots_le (clearedSum_ne_zero pole) natDegree_clearedSum_le passed fun γ mem => ?_
  rw [eval_clearedSum (nonzero γ mem), vanishes γ mem, mul_zero]

end Zicket.Foundation
