import Mathlib.Data.Nat.Bitwise
import Zicket.Foundation.DegreeBounds
import Zicket.Foundation.Folding

/-! The folds of a polynomial one after the other. What is left of a polynomial after `n` folds is
the multilinear function through its first `2 ^ n` coefficients, at the challenges of the folds, and
behind it the same for the coefficients that follow. -/

namespace Zicket.Foundation

open Polynomial

variable {F : Type} [Field F] {u : ℕ → F} {A P Q : F[X]} {n : ℕ}

/-- The weight of the row `i`, whose bits are its coordinates. -/
def rowWeight (u : ℕ → F) (n i : ℕ) : F :=
  ∏ j ∈ Finset.range n, if i.testBit j then u j else 1 - u j

def multilinearValue (u : ℕ → F) (n : ℕ) (P : F[X]) : F :=
  ∑ i ∈ Finset.range (2 ^ n), rowWeight u n i * P.coeff i

noncomputable def foldMany (u : ℕ → F) : ℕ → F[X] → F[X]
  | 0, P => P
  | n + 1, P => fold (u n) (foldMany u n P)

theorem coeff_fold (c : F) (A : F[X]) (k : ℕ) :
    (fold c A).coeff k = (1 - c) * A.coeff (2 * k) + c * A.coeff (2 * k + 1) := by
  rw [fold, coeff_add, coeff_C_mul, coeff_C_mul, coeff_contract two_ne_zero,
    coeff_contract two_ne_zero, coeff_divX, Nat.mul_comm]

theorem rowWeight_succ_low {i : ℕ} (low : i < 2 ^ n) :
    rowWeight u (n + 1) i = rowWeight u n i * (1 - u n) := by
  rw [rowWeight, Finset.prod_range_succ, Nat.testBit_lt_two_pow low]
  rfl

theorem rowWeight_succ_high {i : ℕ} (low : i < 2 ^ n) :
    rowWeight u (n + 1) (2 ^ n + i) = rowWeight u n i * u n := by
  rw [rowWeight, Finset.prod_range_succ, Nat.testBit_two_pow_add_eq, Nat.testBit_lt_two_pow low]
  refine congrArg₂ _ (Finset.prod_congr rfl fun j mem => ?_) rfl
  rw [Nat.testBit_two_pow_add_gt (Finset.mem_range.mp mem)]

theorem coeff_foldMany (u : ℕ → F) (n : ℕ) (P : F[X]) (k : ℕ) : (foldMany u n P).coeff k =
    ∑ i ∈ Finset.range (2 ^ n), rowWeight u n i * P.coeff (2 ^ n * k + i) := by
  induction n generalizing k with
  | zero => simp [foldMany, rowWeight]
  | succ n ih =>
    have double : 2 ^ (n + 1) = 2 ^ n + 2 ^ n := by rw [pow_succ, Nat.mul_two]
    rw [foldMany, coeff_fold, ih, ih, double, Finset.sum_range_add, Finset.mul_sum, Finset.mul_sum]
    refine congrArg₂ _ (Finset.sum_congr rfl fun i mem => ?_) (Finset.sum_congr rfl fun i mem => ?_)
    · have index : 2 ^ n * (2 * k) + i = (2 ^ n + 2 ^ n) * k + i := by ring
      rw [rowWeight_succ_low (Finset.mem_range.mp mem), index]
      ring
    · have index : 2 ^ n * (2 * k + 1) + i = (2 ^ n + 2 ^ n) * k + (2 ^ n + i) := by ring
      rw [rowWeight_succ_high (Finset.mem_range.mp mem), index]
      ring

theorem coeff_foldMany_zero (u : ℕ → F) (n : ℕ) (P : F[X]) :
    (foldMany u n P).coeff 0 = multilinearValue u n P := by
  simp only [coeff_foldMany, Nat.mul_zero, Nat.zero_add, multilinearValue]

theorem isFold_foldMany (u : ℕ → F) (P : F[X]) (j : ℕ) :
    IsFold (u j) (foldMany u j P) (foldMany u (j + 1) P) := isFold_fold _ _

/-- A polynomial with as many coefficients as there are rows folds to the multilinear function. -/
theorem foldMany_eq_C (two : (2 : F) ≠ 0) (small : P.natDegree < 2 ^ n) :
    foldMany u n P = C (multilinearValue u n P) := by
  have constant := natDegree_folds_eq_zero two (A := (foldMany u · P)) (u := u) small
    fun j _ => isFold_foldMany u P j
  rw [eq_C_of_natDegree_eq_zero constant, coeff_foldMany_zero]

theorem IsFold.eq_fold (two : (2 : F) ≠ 0) {c : F} {B : F[X]} (isFold : IsFold c A B) :
    B = fold c A := by
  have same : C 2 * X * B.comp (X ^ 2) = C 2 * X * (fold c A).comp (X ^ 2) :=
    isFold.trans (isFold_fold c A).symm
  have factor : (C 2 * X : F[X]) ≠ 0 := mul_ne_zero (C_ne_zero.mpr two) X_ne_zero
  have squares := mul_left_cancel₀ factor same
  rw [← expand_eq_comp_X_pow, ← expand_eq_comp_X_pow] at squares
  exact expand_injective two_pos squares

theorem natDegree_foldMany_le (two : (2 : F) ≠ 0) (u : ℕ → F) (n : ℕ) (P : F[X]) :
    (foldMany u n P).natDegree ≤ P.natDegree := by
  induction n with
  | zero => exact le_rfl
  | succ n ih =>
    have halved := (isFold_foldMany u P n).natDegree_le two
    omega

section Linear

theorem multilinearValue_add : multilinearValue u n (P + Q) =
    multilinearValue u n P + multilinearValue u n Q := by
  simp only [multilinearValue, coeff_add, mul_add, Finset.sum_add_distrib]

theorem multilinearValue_smul (c : F) :
    multilinearValue u n (c • P) = c * multilinearValue u n P := by
  simp only [multilinearValue, coeff_smul, smul_eq_mul, Finset.mul_sum, mul_left_comm]

theorem multilinearValue_sum {ι : Type} (s : Finset ι) (P : ι → F[X]) :
    multilinearValue u n (∑ i ∈ s, P i) = ∑ i ∈ s, multilinearValue u n (P i) := by
  simp only [multilinearValue, finsetSum_coeff, Finset.mul_sum]
  exact Finset.sum_comm

end Linear

section Defects

/-- What `B` misses to be the fold of `U + S / X`, without the denominators. -/
noncomputable def foldDefect (c : F) (U S B : F[X]) : F[X] :=
  2 • (X ^ 2 * B.comp (X ^ 2)) -
    (C (1 - c) * X * (X * (U + U.comp (-X)) + S - S.comp (-X)) +
      C c * (X * (U - U.comp (-X)) + S + S.comp (-X)))

variable {c r : F} {U S B : F[X]}

theorem eval_foldDefect : (foldDefect c U S B).eval r = 2 * r ^ 2 * B.eval (r ^ 2) -
    ((1 - c) * r * (r * (U.eval r + U.eval (-r)) + S.eval r - S.eval (-r)) +
      c * (r * (U.eval r - U.eval (-r)) + S.eval r + S.eval (-r))) := by
  simp only [foldDefect, eval_sub, eval_add, eval_mul, eval_C, eval_X, eval_pow, eval_comp, eval_neg,
    nsmul_eq_mul, Nat.cast_ofNat, eval_ofNat, mul_assoc]

theorem eval_foldDefect_eq_zero {b v a : F} (nonzero : r ≠ 0) (distance : r * (1 - c) + c ≠ 0)
    (next : B.eval (r ^ 2) = b) (positive : U.eval r + r⁻¹ * S.eval r = v)
    (negative : U.eval (-r) - r⁻¹ * S.eval (-r) = a)
    (value : v = (r * b * 2 - a * (r * (1 - c) - c)) * (r * (1 - c) + c)⁻¹) :
    (foldDefect c U S B).eval r = 0 := by
  have cleared : v * (r * (1 - c) + c) = r * b * 2 - a * (r * (1 - c) - c) := by
    rw [value, inv_mul_cancel_right₀ distance]
  have left : r * v = r * U.eval r + S.eval r := by
    rw [← positive, mul_add, mul_inv_cancel_left₀ nonzero]
  have right : r * a = r * U.eval (-r) - S.eval (-r) := by
    rw [← negative, mul_sub, mul_inv_cancel_left₀ nonzero]
  rw [eval_foldDefect, next]
  linear_combination -r * cleared + (r * (1 - c) + c) * left + (r * (1 - c) - c) * right

/-- What misses nothing is a fold; the value of `S` at zero does not enter it. -/
theorem isFold_of_foldDefect (zero : foldDefect c U S B = 0) : IsFold c (U + S.divX) B := by
  have start : c * (2 * S.coeff 0) = 0 := by
    have value := congrArg (eval 0) zero
    simp only [eval_foldDefect, eval_zero, neg_zero, ← coeff_zero_eq_eval_zero] at value
    linear_combination -value
  have parts := divX_mul_X_add S
  have opposite := congrArg (fun P : F[X] => P.comp (-X)) parts
  simp only [add_comp, mul_comp, X_comp, C_comp] at opposite
  have constant : C c * (C 2 * C (S.coeff 0)) = 0 := by
    rw [← C_mul, ← C_mul, start, C_0]
  have scaled : X * (C 2 * X * B.comp (X ^ 2)) = X * (C (1 - c) * X *
      (U + S.divX + (U + S.divX).comp (-X)) + C c * (U + S.divX - (U + S.divX).comp (-X))) := by
    have two : (C 2 : F[X]) = 2 := map_ofNat C 2
    rw [foldDefect, nsmul_eq_mul, Nat.cast_ofNat] at zero
    rw [two] at constant ⊢
    rw [add_comp]
    linear_combination zero + constant - (C (1 - c) * X + C c) * parts +
      (C (1 - c) * X - C c) * opposite
  exact mul_left_cancel₀ X_ne_zero scaled

theorem natDegree_foldDefect_le {d : ℕ} (first : U.natDegree ≤ d) (second : S.natDegree ≤ d)
    (next : B.natDegree ≤ d) : (foldDefect c U S B).natDegree ≤ 2 * d + 2 := by
  have opposite {P : F[X]} (bound : P.natDegree ≤ d) : (P.comp (-X)).natDegree ≤ d := by
    rwa [natDegree_comp, natDegree_neg, natDegree_X, mul_one]
  have square : (B.comp (X ^ 2)).natDegree ≤ 2 * d := by
    rw [natDegree_comp, natDegree_X_pow]
    omega
  have double : (X ^ 2 * B.comp (X ^ 2)).natDegree ≤ 2 + 2 * d :=
    natDegree_mul_le.trans (Nat.add_le_add (natDegree_X_pow_le 2) square)
  have sides (P : F[X]) (bound : P.natDegree ≤ d) : (X * P).natDegree ≤ d + 1 :=
    natDegree_mul_le.trans (by rw [natDegree_X]; omega)
  have even : (X * (U + U.comp (-X)) + S - S.comp (-X)).natDegree ≤ d + 1 := by
    refine (natDegree_sub_le _ _).trans (max_le ((natDegree_add_le _ _).trans (max_le ?_ ?_)) ?_)
    · exact sides _ ((natDegree_add_le _ _).trans (max_le first (opposite first)))
    · omega
    · exact (opposite second).trans (Nat.le_succ d)
  have odd : (X * (U - U.comp (-X)) + S + S.comp (-X)).natDegree ≤ d + 1 := by
    refine (natDegree_add_le _ _).trans (max_le ((natDegree_add_le _ _).trans (max_le ?_ ?_)) ?_)
    · exact sides _ ((natDegree_sub_le _ _).trans (max_le first (opposite first)))
    · omega
    · exact (opposite second).trans (Nat.le_succ d)
  have weight : (C (1 - c) * X : F[X]).natDegree ≤ 1 :=
    (natDegree_C_mul_le _ _).trans natDegree_X_le
  rw [foldDefect]
  refine (natDegree_sub_le _ _).trans (max_le ?_ ((natDegree_add_le _ _).trans (max_le ?_ ?_)))
  · exact (natDegree_smul_le _ _).trans (by omega)
  · exact natDegree_mul_le.trans (by omega)
  · exact (natDegree_C_mul_le _ _).trans (by omega)

theorem multilinearValue_of_isFold (two : (2 : F) ≠ 0) {A : ℕ → F[X]} {value : F}
    (folds : ∀ j < n, IsFold (u j) (A j) (A (j + 1))) (last : A n = C value) :
    multilinearValue u n (A 0) = value := by
  have chain : ∀ j ≤ n, A j = foldMany u j (A 0) := by
    intro j le
    induction j with
    | zero => rfl
    | succ j ih =>
      rw [(folds j (by omega)).eq_fold two, ih (by omega)]
      rfl
  rw [← coeff_foldMany_zero, ← chain n le_rfl, last, coeff_C_zero]

end Defects

end Zicket.Foundation
