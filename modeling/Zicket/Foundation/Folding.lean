import Mathlib.Algebra.Polynomial.Expand
import Mathlib.Tactic.FieldSimp
import Mathlib.Tactic.LinearCombination

/-! Folds of a univariate polynomial: the even and the odd part, weighted by a challenge, as
polynomials of the square. A fold halves the degree, and its value at a square gives back the
value of the polynomial at the root from the value at the opposite root. -/

namespace Zicket.Foundation

open Polynomial

variable {F : Type} [Field F] {u x : F} {A B : F[X]}

/-- `B(X²) = (1 - u)(A(X) + A(-X))/2 + u(A(X) - A(-X))/(2X)`, without the denominators. -/
def IsFold (u : F) (A B : F[X]) : Prop :=
  C 2 * X * B.comp (X ^ 2) =
    C (1 - u) * X * (A + A.comp (-X)) + C u * (A - A.comp (-X))

theorem IsFold.eval_sq (fold : IsFold u A B) (x : F) : 2 * x * B.eval (x ^ 2) =
    (1 - u) * x * (A.eval x + A.eval (-x)) + u * (A.eval x - A.eval (-x)) := by
  simpa [eval_comp] using congrArg (Polynomial.eval x) fold

/-- The value at a point, from the fold at its square and the value at the opposite point. -/
theorem IsFold.eval_eq (fold : IsFold u A B) (nonzero : x * (1 - u) + u ≠ 0) :
    (x * B.eval (x ^ 2) * 2 - A.eval (-x) * (x * (1 - u) - u)) * (x * (1 - u) + u)⁻¹ =
      A.eval x := by
  rw [mul_inv_eq_iff_eq_mul₀ nonzero]
  linear_combination fold.eval_sq x

theorem IsFold.natDegree_le (two : (2 : F) ≠ 0) (fold : IsFold u A B) :
    2 * B.natDegree ≤ A.natDegree := by
  by_cases zero : B = 0
  · simp [zero]
  · have nonzero : B.comp (X ^ 2) ≠ 0 := by
      intro vanishes
      rcases comp_eq_zero_iff.mp vanishes with none | ⟨_, constant⟩
      · exact zero none
      · have := congrArg Polynomial.natDegree constant
        simp at this
    have left : (C 2 * X * B.comp (X ^ 2)).natDegree = 1 + 2 * B.natDegree := by
      rw [natDegree_mul (by simp [two, X_ne_zero]) nonzero, natDegree_C_mul_X 2 two, natDegree_comp,
        natDegree_X_pow, Nat.mul_comm]
    have opposite : (A.comp (-X)).natDegree ≤ A.natDegree := by
      rw [natDegree_comp, natDegree_neg, natDegree_X, Nat.mul_one]
    have sum := (natDegree_add_le A (A.comp (-X))).trans (max_le le_rfl opposite)
    have difference := (natDegree_sub_le A (A.comp (-X))).trans (max_le le_rfl opposite)
    have even : (C (1 - u) * X * (A + A.comp (-X))).natDegree ≤ 1 + A.natDegree :=
      natDegree_mul_le.trans (Nat.add_le_add ((natDegree_C_mul_le _ _).trans natDegree_X_le) sum)
    have odd : (C u * (A - A.comp (-X))).natDegree ≤ 1 + A.natDegree :=
      (natDegree_C_mul_le _ _).trans (difference.trans (by omega))
    have right := (natDegree_add_le _ _).trans (max_le even odd)
    rw [← fold, left] at right
    omega

/-- After as many folds as the degree has bits, a constant is left. -/
theorem natDegree_folds_eq_zero (two : (2 : F) ≠ 0) {A : ℕ → F[X]} {u : ℕ → F} {n : ℕ}
    (small : (A 0).natDegree < 2 ^ n) (folds : ∀ j < n, IsFold (u j) (A j) (A (j + 1))) :
    (A n).natDegree = 0 := by
  have halved : ∀ j ≤ n, 2 ^ j * (A j).natDegree ≤ (A 0).natDegree := by
    intro j le
    induction j with
    | zero => simp
    | succ j ih =>
      have step := (folds j (by omega)).natDegree_le two
      calc 2 ^ (j + 1) * (A (j + 1)).natDegree
          = 2 ^ j * (2 * (A (j + 1)).natDegree) := by ring
        _ ≤ 2 ^ j * (A j).natDegree := Nat.mul_le_mul_left _ step
        _ ≤ (A 0).natDegree := ih (by omega)
  by_contra positive
  have large := Nat.mul_le_mul_left (2 ^ n) (Nat.pos_of_ne_zero positive)
  have bound := halved n le_rfl
  omega

noncomputable def fold (u : F) (A : F[X]) : F[X] :=
  C (1 - u) * contract 2 A + C u * contract 2 A.divX

theorem expand_contract_add (A : F[X]) :
    expand F 2 (contract 2 A) + X * expand F 2 (contract 2 A.divX) = A := by
  ext n
  cases n with
  | zero => simp [coeff_expand, coeff_contract]
  | succ n =>
    rw [coeff_add, coeff_X_mul, coeff_expand (by norm_num), coeff_expand (by norm_num)]
    by_cases even : 2 ∣ n + 1
    · rw [if_pos even, if_neg (by omega), coeff_contract (by norm_num),
        Nat.div_mul_cancel even, add_zero]
    · rw [if_neg even, if_pos (by omega), coeff_contract (by norm_num),
        Nat.div_mul_cancel (by omega), coeff_divX, zero_add]

theorem isFold_fold (u : F) (A : F[X]) : IsFold u A (fold u A) := by
  have parts := expand_contract_add A
  have opposite := congrArg (fun P : F[X] => P.comp (-X)) parts
  simp only [expand_eq_comp_X_pow, add_comp, mul_comp, X_comp, comp_assoc, X_pow_comp, even_two,
    Even.neg_pow] at parts opposite
  have two : (C 2 : F[X]) = 2 := map_ofNat C 2
  rw [IsFold, fold, add_comp, mul_comp, mul_comp, C_comp, C_comp, two]
  linear_combination (C (1 - u) * X + C u) * parts + (C (1 - u) * X - C u) * opposite

end Zicket.Foundation
