import Mathlib.Tactic.LinearCombination
import Zicket.Foundation.RandomPoints

/-! Cells with a value and a label, and the product of their fingerprints at two challenges. Cells
that differ have the same product for few challenges only. A column that runs through the partial
products shows that two products are the same up to a factor. -/

namespace Zicket.Foundation

open Polynomial

variable {F : Type} [Field F] {cells A B : Multiset (F × F)} {β γ : F}

section Products

def fingerprint (β γ : F) (cell : F × F) : F := cell.1 + cell.2 * β + γ

def cellProduct (β γ : F) (cells : Multiset (F × F)) : F := (cells.map (fingerprint β γ)).prod

@[simp] theorem cellProduct_zero : cellProduct β γ 0 = 1 := by
  simp [cellProduct]

@[simp] theorem cellProduct_cons (cell : F × F) : cellProduct β γ (cell ::ₘ cells) =
    fingerprint β γ cell * cellProduct β γ cells := by
  simp [cellProduct]

@[simp] theorem cellProduct_add :
    cellProduct β γ (A + B) = cellProduct β γ A * cellProduct β γ B := by
  simp [cellProduct]

theorem cellProduct_sum {ι : Type} (s : Finset ι) (cells : ι → Multiset (F × F)) :
    cellProduct β γ (∑ i ∈ s, cells i) = ∏ i ∈ s, cellProduct β γ (cells i) := by
  classical
  induction s using Finset.induction_on with
  | empty => exact cellProduct_zero
  | insert i s fresh ih =>
    rw [Finset.sum_insert fresh, Finset.prod_insert fresh, cellProduct_add, ih]

/-- The fingerprints as polynomials in the second challenge over those in the first. -/
noncomputable def cellRoot (cell : F × F) : F[X] := -(C cell.1 + C cell.2 * X)

theorem cellRoot_injective : Function.Injective (cellRoot (F := F)) := by
  rintro ⟨v, l⟩ ⟨w, m⟩ same
  have parts := neg_injective same
  have value := congrArg (coeff · 0) parts
  have label := congrArg (coeff · 1) parts
  simp only [coeff_add, coeff_C_mul, coeff_C_zero, coeff_X_zero, mul_zero, add_zero] at value
  simp only [coeff_add, coeff_C_succ, coeff_C_mul, coeff_X_one, mul_one, zero_add] at label
  exact Prod.ext value label

noncomputable def cellPolynomial (cells : Multiset (F × F)) : MvPolynomial (Fin 2) F :=
  (cells.map fun cell : F × F =>
    MvPolynomial.C cell.1 + MvPolynomial.C cell.2 * MvPolynomial.X 0 + MvPolynomial.X 1).prod

theorem eval_cellPolynomial (u : Fin 2 → F) :
    MvPolynomial.eval u (cellPolynomial cells) = cellProduct (u 0) (u 1) cells := by
  rw [cellPolynomial, map_multiset_prod, Multiset.map_map, cellProduct]
  refine congrArg Multiset.prod (Multiset.map_congr rfl fun cell _ => ?_)
  simp [fingerprint]

theorem totalDegree_cellPolynomial_le : (cellPolynomial cells).totalDegree ≤ cells.card := by
  refine (MvPolynomial.totalDegree_multiset_prod _).trans ?_
  rw [Multiset.map_map]
  refine (Multiset.sum_le_card_nsmul _ 1 fun degree mem => ?_).trans (by simp)
  obtain ⟨cell, -, rfl⟩ := Multiset.mem_map.mp mem
  have label :
      (MvPolynomial.C cell.2 * MvPolynomial.X 0 : MvPolynomial (Fin 2) F).totalDegree ≤ 1 :=
    (MvPolynomial.totalDegree_mul _ _).trans (by simp)
  have value := MvPolynomial.totalDegree_add (MvPolynomial.C cell.1)
    (MvPolynomial.C cell.2 * MvPolynomial.X 0 : MvPolynomial (Fin 2) F)
  refine (MvPolynomial.totalDegree_add _ _).trans (max_le (value.trans (max_le ?_ label)) ?_)
  · simp
  · simp

/-- The factors are prime, so the product fixes the cells. -/
theorem cellPolynomial_injective : Function.Injective (cellPolynomial (F := F)) := by
  intro A B same
  let challenges : Fin 2 → F[X][X] := ![C X, X]
  have nested (cells : Multiset (F × F)) :
      MvPolynomial.eval₂Hom (C.comp C) challenges (cellPolynomial cells) =
        ((cells.map cellRoot).map fun root => (X - C root : F[X][X])).prod := by
    rw [cellPolynomial, map_multiset_prod, Multiset.map_map, Multiset.map_map]
    refine congrArg Multiset.prod (Multiset.map_congr rfl fun cell _ => ?_)
    simp only [Function.comp_apply, map_add, map_mul, MvPolynomial.coe_eval₂Hom,
      MvPolynomial.eval₂_add, MvPolynomial.eval₂_mul, MvPolynomial.eval₂_C, MvPolynomial.eval₂_X,
      RingHom.comp_apply, challenges, Matrix.cons_val_zero, Matrix.cons_val_one, cellRoot, map_neg,
      sub_neg_eq_add]
    rw [add_comm]
  have products := congrArg (MvPolynomial.eval₂Hom (C.comp C) challenges) same
  rw [nested, nested] at products
  have roots := congrArg Polynomial.roots products
  rw [roots_multiset_prod_X_sub_C, roots_multiset_prod_X_sub_C] at roots
  exact Multiset.map_injective cellRoot_injective roots

variable [Fintype F] [DecidableEq F]

theorem card_sameProduct_le (differs : A ≠ B) {m : ℕ} (left : A.card ≤ m) (right : B.card ≤ m)
    (passed : Finset (F × F))
    (same : ∀ draw ∈ passed, cellProduct draw.1 draw.2 A = cellProduct draw.1 draw.2 B) :
    passed.card ≤ m * Fintype.card F := by
  have nonzero : cellPolynomial A - cellPolynomial B ≠ 0 :=
    sub_ne_zero.mpr (cellPolynomial_injective.ne differs)
  have degree : (cellPolynomial A - cellPolynomial B).totalDegree ≤ m :=
    (MvPolynomial.totalDegree_sub _ _).trans (max_le
      (totalDegree_cellPolynomial_le.trans left) (totalDegree_cellPolynomial_le.trans right))
  have points := card_zeros_of_totalDegree_le nonzero degree
    (passed.image fun draw => ![draw.1, draw.2]) fun u mem => by
      obtain ⟨draw, inside, rfl⟩ := Finset.mem_image.mp mem
      rw [MvPolynomial.eval_sub, eval_cellPolynomial, eval_cellPolynomial, sub_eq_zero]
      exact same draw inside
  rwa [Finset.card_image_of_injective, pow_one] at points
  intro draw other equal
  exact Prod.ext (congrFun equal 0) (congrFun equal 1)

end Products

section Running

variable {num den z : ℕ → F} {last : ℕ} {δ : F}

/-- A column that starts with a one put in, multiplies by a quotient in each row, and ends at the
factor put in behind. -/
structure IsRunningProduct (num den z : ℕ → F) (last : ℕ) (δ : F) : Prop where
  step (i : ℕ) : i ≤ last → (z i + if i = 0 then 1 else 0) * num i =
    (z (i + 1) + if i = last then δ else 0) * den i
  start : z 0 = 0
  stop : z (last + 1) = 0

/-- The products are the same up to the factor, also where some of their terms vanish. -/
theorem IsRunningProduct.prod_eq (running : IsRunningProduct num den z last δ) :
    ∏ i ∈ Finset.range (last + 1), num i = δ * ∏ i ∈ Finset.range (last + 1), den i := by
  have partial_eq : ∀ k ≤ last, ∏ i ∈ Finset.range k, num i =
      (z k + if k = 0 then 1 else 0) * ∏ i ∈ Finset.range k, den i := by
    intro k le
    induction k with
    | zero => simp [running.start]
    | succ k ih =>
      have step := running.step k (Nat.le_of_succ_le le)
      rw [if_neg (Nat.lt_of_succ_le le).ne, add_zero] at step
      rw [Finset.prod_range_succ, Finset.prod_range_succ, ih (Nat.le_of_succ_le le),
        if_neg (Nat.succ_ne_zero k), add_zero]
      linear_combination (∏ i ∈ Finset.range k, den i) * step
  have step := running.step last le_rfl
  rw [running.stop, zero_add, if_pos rfl] at step
  rw [Finset.prod_range_succ, Finset.prod_range_succ, partial_eq last le_rfl]
  linear_combination (∏ i ∈ Finset.range last, den i) * step

def runningProduct (num den : ℕ → F) (last i : ℕ) : F :=
  if i = 0 ∨ last < i then 0
  else (∏ j ∈ Finset.range i, num j) * (∏ j ∈ Finset.range i, den j)⁻¹

theorem runningProduct_beyond {i : ℕ} (beyond : last < i) : runningProduct num den last i = 0 :=
  if_pos (.inr beyond)

theorem isRunningProduct_runningProduct (nonzero : ∀ i ≤ last, den i ≠ 0)
    (total : ∏ i ∈ Finset.range (last + 1), num i = δ * ∏ i ∈ Finset.range (last + 1), den i) :
    IsRunningProduct num den (runningProduct num den last) last δ where
  step i le := by
    have products (k : ℕ) (within : k ≤ last + 1) : ∏ j ∈ Finset.range k, den j ≠ 0 :=
      Finset.prod_ne_zero_iff.mpr fun j mem =>
        nonzero j (by have := Finset.mem_range.mp mem; omega)
    have here : runningProduct num den last i + (if i = 0 then 1 else 0) =
        (∏ j ∈ Finset.range i, num j) * (∏ j ∈ Finset.range i, den j)⁻¹ := by
      by_cases first : i = 0
      · simp [runningProduct, first]
      · rw [runningProduct, if_neg (by omega), if_neg first, add_zero]
    rw [here]
    by_cases final : i = last
    · subst final
      rw [runningProduct, if_pos (by omega), if_pos rfl, zero_add]
      rw [Finset.prod_range_succ, Finset.prod_range_succ] at total
      have inverse := inv_mul_cancel₀ (products i (by omega))
      linear_combination (∏ j ∈ Finset.range i, den j)⁻¹ * total + δ * den i * inverse
    · rw [runningProduct, if_neg (by omega), if_neg final, add_zero, Finset.prod_range_succ,
        Finset.prod_range_succ, mul_inv]
      have inverse := inv_mul_cancel₀ (nonzero i le)
      linear_combination -(∏ j ∈ Finset.range i, num j) * num i *
        (∏ j ∈ Finset.range i, den j)⁻¹ * inverse
  start := by simp [runningProduct]
  stop := by simp [runningProduct]

end Running

end Zicket.Foundation
