import Mathlib.Tactic.FieldSimp
import Mathlib.Tactic.LinearCombination
import Zicket.Foundation.UnityLagrange

/-! A sum over the powers of a primitive root, shown by a polynomial that walks through the partial
sums: the start, the steps and the end are put into one identity modulo `X ^ n - 1`, with no
challenge between them. The end is bound to the sum but for the value at the start, which the
identity leaves free. -/

namespace Zicket.Foundation

open Polynomial

variable {F : Type} [Field F] {g s : F} {n : ℕ} {A V : F[X]}

/-- What `X ^ n - 1` has to divide. -/
noncomputable def sumNumerator (g : F) (n : ℕ) (A V : F[X]) (s : F) : F[X] :=
  Lagrange.basis (Finset.range n) (fun i => g ^ i) 0 * A +
    (X - C g⁻¹) * (A.comp (C g * X) - A - V) +
    Lagrange.basis (Finset.range n) (fun i => g ^ i) (n - 1) * (A - C s)

noncomputable def sumIdentity (g : F) (n : ℕ) (A V T : F[X]) (s : F) : F[X] :=
  sumNumerator g n A V s - (X ^ n - 1) * T

theorem eval_sumIdentity (g : F) (n : ℕ) (A V T : F[X]) (s r : F) :
    (sumIdentity g n A V T s).eval r =
      (Lagrange.basis (Finset.range n) (fun i => g ^ i) 0).eval r * A.eval r +
        (r - g⁻¹) * (A.eval (g * r) - A.eval r - V.eval r) +
        (Lagrange.basis (Finset.range n) (fun i => g ^ i) (n - 1)).eval r * (A.eval r - s) -
        (r ^ n - 1) * T.eval r := by
  simp only [sumIdentity, sumNumerator, eval_sub, eval_add, eval_mul, eval_X, eval_C, eval_pow,
    eval_one, eval_comp]

structure IsRunningSum (g : F) (n : ℕ) (A V : F[X]) (s : F) : Prop where
  start : A.eval 1 + (1 - g⁻¹) * (A.eval g - A.eval 1 - V.eval 1) = 0
  step (i : ℕ) : 0 < i → i < n - 1 → A.eval (g ^ (i + 1)) = A.eval (g ^ i) + V.eval (g ^ i)
  stop : A.eval (g ^ (n - 1)) = s

section Degrees

theorem natDegree_pow_sub_one_le (n : ℕ) : (X ^ n - 1 : F[X]).natDegree ≤ n := by
  rw [← C_1, natDegree_X_pow_sub_C]

theorem natDegree_basis_power_le (primitive : IsPrimitiveRoot g n) {i : ℕ} (less : i < n) :
    (Lagrange.basis (Finset.range n) (fun i => g ^ i) i).natDegree ≤ n - 1 := by
  have degree := Lagrange.degree_basis (injOn_pow_of_isPrimitiveRoot primitive)
    (Finset.mem_range.mpr less)
  rw [Finset.card_range] at degree
  exact natDegree_le_of_degree_le degree.le

theorem natDegree_sumNumerator_le (primitive : IsPrimitiveRoot g n) (positive : 0 < n) {d : ℕ}
    (walked : A.natDegree ≤ d) (added : V.natDegree ≤ d + (n - 1)) :
    (sumNumerator g n A V s).natDegree ≤ d + n := by
  have start := natDegree_basis_power_le primitive positive
  have stop := natDegree_basis_power_le primitive (Nat.sub_one_lt_of_lt positive)
  have further : (A.comp (C g * X)).natDegree ≤ d := by
    refine natDegree_comp_le.trans ?_
    calc A.natDegree * (C g * X : F[X]).natDegree ≤ A.natDegree * 1 :=
          Nat.mul_le_mul_left _ ((natDegree_C_mul_le _ _).trans natDegree_X_le)
      _ ≤ d := by omega
  have inner : (A.comp (C g * X) - A - V).natDegree ≤ d + (n - 1) := by
    refine (natDegree_sub_le _ _).trans (max_le ((natDegree_sub_le _ _).trans ?_) added)
    exact (max_le further walked).trans (Nat.le_add_right _ _)
  have outer : (X - C g⁻¹ : F[X]).natDegree ≤ 1 := (natDegree_X_sub_C _).le
  have tail : (A - C s).natDegree ≤ d := (natDegree_sub_le _ _).trans (max_le walked (by simp))
  rw [sumNumerator]
  refine (natDegree_add_le _ _).trans (max_le ((natDegree_add_le _ _).trans (max_le ?_ ?_)) ?_)
  · exact natDegree_mul_le.trans (by omega)
  · exact natDegree_mul_le.trans (by omega)
  · exact natDegree_mul_le.trans (by omega)

theorem natDegree_sumIdentity_le (primitive : IsPrimitiveRoot g n) (positive : 0 < n) {d : ℕ}
    {T : F[X]} (walked : A.natDegree ≤ d) (added : V.natDegree ≤ d + (n - 1))
    (divided : T.natDegree ≤ d) : (sumIdentity g n A V T s).natDegree ≤ d + n := by
  have vanishing := natDegree_pow_sub_one_le (F := F) n
  rw [sumIdentity]
  refine (natDegree_sub_le _ _).trans (max_le ?_ (natDegree_mul_le.trans (by omega)))
  exact natDegree_sumNumerator_le primitive positive walked added

end Degrees

variable (primitive : IsPrimitiveRoot g n) (two : 2 ≤ n)
include primitive two

omit two in
theorem eval_basis_power {i k : ℕ} (left : i < n) (right : k < n) :
    (Lagrange.basis (Finset.range n) (fun i => g ^ i) k).eval (g ^ i) = if i = k then 1 else 0 := by
  by_cases same : i = k
  · subst same
    rw [if_pos rfl, Lagrange.eval_basis_self (injOn_pow_of_isPrimitiveRoot primitive)
      (Finset.mem_range.mpr left)]
  · rw [if_neg same, Lagrange.eval_basis_of_ne (fun equal => same equal.symm)
      (Finset.mem_range.mpr left)]

theorem pow_sub_one_eq_inv : g ^ (n - 1) = g⁻¹ := by
  refine eq_inv_of_mul_eq_one_left ?_
  rw [← pow_succ, Nat.sub_add_cancel (by omega), primitive.pow_eq_one]

theorem eval_sumNumerator {i : ℕ} (less : i < n) : (sumNumerator g n A V s).eval (g ^ i) =
    (if i = 0 then A.eval (g ^ i) else 0) +
      (g ^ i - g⁻¹) * (A.eval (g ^ (i + 1)) - A.eval (g ^ i) - V.eval (g ^ i)) +
      if i = n - 1 then A.eval (g ^ i) - s else 0 := by
  have next : eval (g ^ i) (A.comp (C g * X)) = A.eval (g ^ (i + 1)) := by
    rw [eval_comp, eval_mul, eval_C, eval_X, pow_succ']
  rw [sumNumerator, eval_add, eval_add, eval_mul, eval_mul, eval_mul, eval_sub, eval_sub, eval_sub,
    eval_sub, eval_X, eval_C, eval_C, next, eval_basis_power primitive less (by omega),
    eval_basis_power primitive less (by omega), ite_mul, one_mul, zero_mul, ite_mul, one_mul,
    zero_mul]

/-- The identity holds for some quotient exactly when the polynomial walks through the sums. -/
theorem isRunningSum_iff : IsRunningSum g n A V s ↔
    ∀ i < n, (sumNumerator g n A V s).eval (g ^ i) = 0 := by
  have inverse := pow_sub_one_eq_inv primitive two
  constructor
  · intro walk i less
    rw [eval_sumNumerator primitive two less]
    by_cases first : i = 0
    · subst first
      have start := walk.start
      rw [if_pos rfl, if_neg (by omega), pow_zero, zero_add, pow_one, add_zero, start]
    · by_cases last : i = n - 1
      · rw [if_neg first, if_pos last, last, inverse, sub_self, zero_mul, zero_add, zero_add,
          ← inverse, walk.stop, sub_self]
      · rw [if_neg first, if_neg last, walk.step i (by omega) (by omega)]
        ring
  · intro vanishes
    refine ⟨?_, fun i positive inside => ?_, ?_⟩
    · have start := vanishes 0 (by omega)
      rw [eval_sumNumerator primitive two (by omega), if_pos rfl, if_neg (by omega), pow_zero,
        zero_add, pow_one, add_zero] at start
      exact start
    · have step := vanishes i (by omega)
      rw [eval_sumNumerator primitive two (by omega), if_neg (by omega), if_neg (by omega), zero_add,
        add_zero, ← inverse] at step
      have apart : g ^ i - g ^ (n - 1) ≠ 0 := by
        intro same
        have equal := primitive.pow_inj (by omega) (by omega) (sub_eq_zero.mp same)
        omega
      linear_combination (mul_eq_zero.mp step).resolve_left apart
    · have stop := vanishes (n - 1) (by omega)
      rw [eval_sumNumerator primitive two (by omega), if_neg (by omega), if_pos rfl, inverse,
        sub_self, zero_mul, zero_add, zero_add, ← inverse] at stop
      exact sub_eq_zero.mp stop

/-- The end of a walk is the sum, less what its start puts in. -/
theorem IsRunningSum.eq_sum (walk : IsRunningSum g n A V s) :
    s = ∑ i ∈ Finset.range (n - 1), V.eval (g ^ i) - A.eval 1 * (g - 1)⁻¹ := by
  have root : g ≠ 0 := primitive.ne_zero (by omega)
  have apart : g - 1 ≠ 0 := sub_ne_zero.mpr (primitive.ne_one (by omega))
  have first : A.eval (g ^ 1) = ∑ i ∈ Finset.range 1, V.eval (g ^ i) - A.eval 1 * (g - 1)⁻¹ := by
    have start := walk.start
    field_simp at start
    rw [Finset.sum_range_one, pow_zero, pow_one]
    field_simp
    linear_combination start
  have partial' : ∀ k, k < n - 1 → A.eval (g ^ (k + 1)) =
      ∑ i ∈ Finset.range (k + 1), V.eval (g ^ i) - A.eval 1 * (g - 1)⁻¹ := by
    intro k less
    induction k with
    | zero => exact first
    | succ k ih =>
      rw [walk.step (k + 1) (Nat.succ_pos k) less, ih (by omega), Finset.sum_range_succ _ (k + 1)]
      ring
  have last := partial' (n - 2) (by omega)
  have index : n - 2 + 1 = n - 1 := by omega
  rw [index, walk.stop] at last
  exact last

/-- Whatever the end, some polynomial walks to it: only its start is not a partial sum. -/
theorem exists_isRunningSum (V : F[X]) (s : F) :
    ∃ A : F[X], A.degree < n ∧ IsRunningSum g n A V s := by
  have root : g ≠ 0 := primitive.ne_zero (by omega)
  have injective := injOn_pow_of_isPrimitiveRoot primitive
  let rest (i : ℕ) : F := s - ∑ j ∈ Finset.Ico i (n - 1), V.eval (g ^ j)
  let value (i : ℕ) : F := if i = 0 then (1 - g) * (rest 1 - V.eval 1) else rest i
  have read (i : ℕ) (less : i < n) :
      (Lagrange.interpolate (Finset.range n) (fun i => g ^ i) value).eval (g ^ i) = value i :=
    Lagrange.eval_interpolate_at_node value injective (Finset.mem_range.mpr less)
  refine ⟨Lagrange.interpolate (Finset.range n) (fun i => g ^ i) value, ?_, ?_, ?_, ?_⟩
  · have degree := Lagrange.degree_interpolate_lt value injective
    rwa [Finset.card_range] at degree
  · have zero := read 0 (by omega)
    have one := read 1 (by omega)
    rw [pow_zero] at zero
    rw [pow_one] at one
    simp only [value, if_true, one_ne_zero, if_false] at zero one
    rw [zero, one]
    field_simp
    ring
  · intro i positive inside
    rw [read _ (by omega), read i (by omega)]
    simp only [value, Nat.succ_ne_zero, positive.ne', if_false, rest]
    rw [Finset.sum_eq_sum_Ico_succ_bot inside]
    ring
  · rw [read _ (by omega)]
    simp only [value, rest, Finset.Ico_self, Finset.sum_empty, sub_zero]
    rw [if_neg (by omega)]

theorem pow_sub_one_dvd {P : F[X]} (vanishes : ∀ i < n, P.eval (g ^ i) = 0) : X ^ n - 1 ∣ P := by
  rw [← nodal_powers (by omega) primitive, Lagrange.nodal_eq]
  refine Finset.prod_dvd_of_coprime (fun i hi k hk other => ?_) fun i mem => ?_
  · refine isCoprime_X_sub_C_of_isUnit_sub (sub_ne_zero.mpr fun same => other ?_).isUnit
    exact injOn_pow_of_isPrimitiveRoot primitive hi hk same
  · exact dvd_iff_isRoot.mpr (vanishes i (Finset.mem_range.mp mem))

theorem exists_sumIdentity_eq_zero (V : F[X]) (s : F) {d : ℕ} (enough : n - 1 ≤ d)
    (added : V.natDegree ≤ d + (n - 1)) :
    ∃ A T : F[X], A.natDegree ≤ d ∧ T.natDegree ≤ d ∧ IsRunningSum g n A V s ∧
      sumIdentity g n A V T s = 0 := by
  obtain ⟨A, degree, walk⟩ := exists_isRunningSum primitive two V s
  obtain ⟨T, quotient⟩ := pow_sub_one_dvd primitive two ((isRunningSum_iff primitive two).mp walk)
  have size : n - 1 + 1 = n := by omega
  rw [← size] at degree
  have walked : A.natDegree ≤ d := (natDegree_le_of_degree_le
    (Order.lt_succ_iff.mp (by exact_mod_cast degree))).trans enough
  refine ⟨A, T, walked, ?_, walk, by rw [sumIdentity, quotient, sub_self]⟩
  by_cases zero : T = 0
  · rw [zero, natDegree_zero]
    exact Nat.zero_le d
  · have bound := natDegree_sumNumerator_le primitive (by omega) walked added (s := s)
    rw [quotient, ← C_1, (monic_X_pow_sub_C (1 : F) (by omega)).natDegree_mul' zero,
      natDegree_X_pow_sub_C] at bound
    omega

theorem isRunningSum_of_sumIdentity {T : F[X]} (identity : sumIdentity g n A V T s = 0) :
    IsRunningSum g n A V s := by
  refine (isRunningSum_iff primitive two).mpr fun i _ => ?_
  rw [sub_eq_zero.mp identity, eval_mul, eval_sub, eval_pow, eval_X, eval_one, ← pow_mul, Nat.mul_comm, pow_mul,
    primitive.pow_eq_one, one_pow, sub_self, zero_mul]

end Zicket.Foundation
