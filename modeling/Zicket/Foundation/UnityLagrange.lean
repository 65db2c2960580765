import Mathlib.LinearAlgebra.Lagrange
import Mathlib.RingTheory.RootsOfUnity.PrimitiveRoots

/-! The Lagrange polynomials on the powers of a primitive root of unity, and their values outside
these powers: one scale for all, and one denominator for each. -/

namespace Zicket.Foundation

open Polynomial

variable {F : Type} [Field F] {g r : F} {n i : ℕ}

theorem injOn_pow_of_isPrimitiveRoot (primitive : IsPrimitiveRoot g n) :
    Set.InjOn (fun i : ℕ => g ^ i) (Finset.range n) := by
  intro a ha b hb same
  exact primitive.pow_inj (Finset.mem_range.mp ha) (Finset.mem_range.mp hb) same

theorem nodal_powers (positive : 0 < n) (primitive : IsPrimitiveRoot g n) :
    Lagrange.nodal (Finset.range n) (fun i => g ^ i) = X ^ n - 1 := by
  have less : degree (1 : F[X]) < degree ((X : F[X]) ^ n) := by
    rw [degree_one, degree_X_pow]
    exact_mod_cast positive
  refine eq_of_degree_le_of_eval_index_eq (Finset.range n)
    (injOn_pow_of_isPrimitiveRoot primitive) ?_ ?_ ?_ fun i mem => ?_
  · rw [Lagrange.degree_nodal]
  · rw [Lagrange.degree_nodal, degree_sub_eq_left_of_degree_lt less, degree_X_pow,
      Finset.card_range]
  · rw [Lagrange.nodal_monic.leadingCoeff, leadingCoeff_sub_of_degree_lt less,
      (monic_X_pow n).leadingCoeff]
  · rw [Lagrange.eval_nodal_at_node mem]
    simp [← pow_mul, Nat.mul_comm i n, pow_mul g n i, primitive.pow_eq_one]

theorem pow_ne_one_of_not_power (positive : 0 < n) (primitive : IsPrimitiveRoot g n)
    (outside : ∀ i < n, r ≠ g ^ i) : r ^ n - 1 ≠ 0 := by
  have value := Lagrange.eval_nodal_not_at_node (fun i mem => outside i (Finset.mem_range.mp mem))
  simpa [nodal_powers positive primitive] using value

/-- The value of a Lagrange polynomial, with the inverse root in the denominator. -/
theorem eval_basis_powers (positive : 0 < n) (primitive : IsPrimitiveRoot g n)
    (outside : ∀ i < n, r ≠ g ^ i) (less : i < n) :
    (Lagrange.basis (Finset.range n) (fun i => g ^ i) i).eval r =
      (r ^ n - 1) * (n : F)⁻¹ * (g⁻¹ ^ i * r - 1)⁻¹ := by
  have mem : i ∈ Finset.range n := Finset.mem_range.mpr less
  have root : g ≠ 0 := primitive.ne_zero positive.ne'
  have power : (g ^ i) ^ n = 1 := by
    rw [← pow_mul, Nat.mul_comm, pow_mul, primitive.pow_eq_one, one_pow]
  have weight : Lagrange.nodalWeight (Finset.range n) (fun i => g ^ i) i =
      (n : F)⁻¹ * g ^ i := by
    rw [Lagrange.nodalWeight_eq_eval_derivative_nodal mem, nodal_powers positive primitive]
    have before : (g ^ i) ^ (n - 1) = (g ^ i)⁻¹ := by
      refine eq_inv_of_mul_eq_one_left ?_
      rw [← pow_succ, Nat.sub_add_cancel positive, power]
    simp [derivative_X_pow, before, mul_comm]
  have denominator : r - g ^ i = g ^ i * (g⁻¹ ^ i * r - 1) := by
    rw [mul_sub, ← mul_assoc, ← mul_pow, mul_inv_cancel₀ root, one_pow, one_mul, mul_one]
  rw [Lagrange.eval_basis_not_at_node mem (outside i less), nodal_powers positive primitive,
    weight, denominator, mul_inv, eval_sub, eval_pow, eval_X, eval_one, mul_assoc, mul_assoc, mul_inv_cancel_left₀ (pow_ne_zero i root)]

end Zicket.Foundation
