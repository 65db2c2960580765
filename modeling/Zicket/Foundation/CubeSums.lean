import Mathlib.Algebra.MvPolynomial.Degrees
import Mathlib.Algebra.Polynomial.BigOperators

/-! Sums of a multivariate polynomial over the boolean cube, with the variables fixed one after
the other. Before a variable is fixed, the sum is a univariate polynomial in it. -/

namespace Zicket.Foundation

open MvPolynomial

variable {F : Type} [Field F] {n : ℕ} {p : MvPolynomial (Fin n) F} {u : Fin n → F} {i : Fin n}

section Restriction

noncomputable def restrict (p : MvPolynomial (Fin n) F) (w : Fin n → F) (i : Fin n) :
    Polynomial F :=
  eval₂ Polynomial.C (fun j => if j = i then Polynomial.X else Polynomial.C (w j)) p

theorem eval_restrict (w : Fin n → F) (x : F) :
    (restrict p w i).eval x = eval (Function.update w i x) p := by
  have composed := eval₂_comp_left (Polynomial.evalRingHom x) Polynomial.C
    (fun j => if j = i then Polynomial.X else Polynomial.C (w j)) p
  have identity : (Polynomial.evalRingHom x).comp Polynomial.C = RingHom.id F :=
    RingHom.ext fun a => Polynomial.eval_C
  have point : ⇑(Polynomial.evalRingHom x) ∘
      (fun j => if j = i then Polynomial.X else Polynomial.C (w j)) = Function.update w i x := by
    funext j
    by_cases here : j = i
    · simp [here]
    · simp [here]
  rw [restrict, ← Polynomial.coe_evalRingHom, composed, identity, point]
  rfl

theorem natDegree_restrict_le (w : Fin n → F) : (restrict p w i).natDegree ≤ p.degreeOf i := by
  rw [restrict, eval₂_eq]
  refine Polynomial.natDegree_sum_le_of_forall_le _ _ fun m mem => ?_
  have powers : ∀ j ∈ m.support,
      ((if j = i then Polynomial.X else Polynomial.C (w j) : Polynomial F) ^ m j).natDegree ≤
        if j = i then m i else 0 := by
    intro j _
    by_cases here : j = i
    · simp [here]
    · rw [if_neg here, if_neg here, ← Polynomial.C_pow, Polynomial.natDegree_C]
  calc (Polynomial.C (p.coeff m) * ∏ j ∈ m.support,
        (if j = i then Polynomial.X else Polynomial.C (w j)) ^ m j).natDegree
      ≤ (∏ j ∈ m.support,
        (if j = i then Polynomial.X else Polynomial.C (w j) : Polynomial F) ^ m j).natDegree :=
        Polynomial.natDegree_C_mul_le _ _
    _ ≤ ∑ j ∈ m.support, if j = i then m i else 0 :=
        (Polynomial.natDegree_prod_le _ _).trans (Finset.sum_le_sum powers)
    _ ≤ m i := by
        rw [Finset.sum_ite_eq']
        split <;> simp
    _ ≤ p.degreeOf i := monomial_le_degreeOf i mem

end Restriction

variable [DecidableEq F]

/-- The points with the first `i` variables fixed and the others in the cube. -/
def fixedPoints (u : Fin n → F) (i : ℕ) : Finset (Fin n → F) :=
  Fintype.piFinset fun j => if j.val < i then {u j} else {0, 1}

def partialPoints (u : Fin n → F) (i : Fin n) (x : F) : Finset (Fin n → F) :=
  Fintype.piFinset fun j => if j < i then {u j} else if j = i then {x} else {0, 1}

noncomputable def fixedSum (p : MvPolynomial (Fin n) F) (u : Fin n → F) (i : ℕ) : F :=
  ∑ z ∈ fixedPoints u i, eval z p

noncomputable def partialSum (p : MvPolynomial (Fin n) F) (u : Fin n → F) (i : Fin n) (x : F) : F :=
  ∑ z ∈ partialPoints u i x, eval z p

theorem fixedSum_zero :
    fixedSum p u 0 = ∑ z ∈ Fintype.piFinset fun _ : Fin n => ({0, 1} : Finset F), eval z p := by
  simp [fixedSum, fixedPoints]

theorem fixedSum_last : fixedSum p u n = eval u p := by
  simp [fixedSum, fixedPoints, Fintype.piFinset_singleton]

theorem fixedSum_succ : fixedSum p u (i + 1) = partialSum p u i (u i) := by
  have points : fixedPoints u (i + 1) = partialPoints u i (u i) := by
    refine congrArg Fintype.piFinset (funext fun j => ?_)
    rcases lt_trichotomy j i with before | here | after
    · rw [if_pos (Nat.lt_succ_of_lt before), if_pos before]
    · rw [here, if_pos (Nat.lt_succ_self _), if_neg (lt_irrefl i), if_pos rfl]
    · rw [if_neg (by omega), if_neg (by omega), if_neg (by omega)]
  rw [fixedSum, points, partialSum]

theorem partialPoints_eq_filter {x : F} (bit : x ∈ ({0, 1} : Finset F)) :
    partialPoints u i x = {z ∈ fixedPoints u i | z i = x} := by
  have update : partialPoints u i x = Fintype.piFinset (Function.update
      (fun j : Fin n => if j.val < i then {u j} else {0, 1}) i {x}) := by
    refine congrArg Fintype.piFinset (funext fun j => ?_)
    by_cases here : j = i
    · rw [here, if_neg (lt_irrefl i), if_pos rfl, Function.update_self]
    · rw [if_neg here, Function.update_of_ne here]
      rfl
  rw [update, Fintype.piFinset_update_singleton_eq_filter_piFinset_eq _ i (by simpa using bit),
    fixedPoints]

theorem fixedSum_eq_add : fixedSum p u i = partialSum p u i 0 + partialSum p u i 1 := by
  have ones : {z ∈ fixedPoints u i | ¬ z i = 0} = {z ∈ fixedPoints u i | z i = 1} := by
    refine Finset.filter_congr fun z mem => ?_
    have bit := Fintype.mem_piFinset.mp mem i
    rw [if_neg (lt_irrefl _), Finset.mem_insert, Finset.mem_singleton] at bit
    constructor
    · exact bit.resolve_left
    · intro one zero
      exact zero_ne_one (zero.symm.trans one)
  rw [partialSum, partialSum, partialPoints_eq_filter (by simp), partialPoints_eq_filter (by simp),
    ← ones, Finset.sum_filter_add_sum_filter_not, fixedSum]

section Univariate

theorem update_mem_partialPoints {x y : F} {z : Fin n → F} (mem : z ∈ partialPoints u i x) :
    Function.update z i y ∈ partialPoints u i y := by
  refine Fintype.mem_piFinset.mpr fun j => ?_
  have coordinate := Fintype.mem_piFinset.mp mem j
  by_cases here : j = i
  · rw [here, if_neg (lt_irrefl i), if_pos rfl, Function.update_self]
    exact Finset.mem_singleton_self y
  · rw [if_neg here] at coordinate ⊢
    rwa [Function.update_of_ne here]

theorem eq_of_mem_partialPoints {x : F} {z : Fin n → F} (mem : z ∈ partialPoints u i x) :
    z i = x := by
  have coordinate := Fintype.mem_piFinset.mp mem i
  rwa [if_neg (lt_irrefl i), if_pos rfl, Finset.mem_singleton] at coordinate

noncomputable def partialPolynomial (p : MvPolynomial (Fin n) F) (u : Fin n → F) (i : Fin n) :
    Polynomial F :=
  ∑ w ∈ partialPoints u i 0, restrict p w i

theorem natDegree_partialPolynomial_le (p : MvPolynomial (Fin n) F) (u : Fin n → F) (i : Fin n) :
    (partialPolynomial p u i).natDegree ≤ p.degreeOf i :=
  Polynomial.natDegree_sum_le_of_forall_le _ _ fun w _ => natDegree_restrict_le w

theorem eval_partialPolynomial (p : MvPolynomial (Fin n) F) (u : Fin n → F) (i : Fin n) (x : F) :
    (partialPolynomial p u i).eval x = partialSum p u i x := by
  simp only [partialPolynomial, Polynomial.eval_finsetSum, eval_restrict]
  refine Finset.sum_bij' (fun w _ => Function.update w i x) (fun z _ => Function.update z i 0)
    (fun w mem => update_mem_partialPoints mem) (fun z mem => update_mem_partialPoints mem)
    (fun w mem => ?_) (fun z mem => ?_) fun w _ => rfl
  · rw [Function.update_idem, ← eq_of_mem_partialPoints mem, Function.update_eq_self]
  · rw [Function.update_idem, ← eq_of_mem_partialPoints mem, Function.update_eq_self]

/-- The partial sums are the values of a polynomial, of the degree that the variable has. -/
theorem exists_univariate (p : MvPolynomial (Fin n) F) (u : Fin n → F) (i : Fin n) :
    ∃ P : Polynomial F, P.natDegree ≤ p.degreeOf i ∧ ∀ x, P.eval x = partialSum p u i x :=
  ⟨partialPolynomial p u i, natDegree_partialPolynomial_le p u i, eval_partialPolynomial p u i⟩

end Univariate

end Zicket.Foundation
