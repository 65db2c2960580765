import Mathlib.Algebra.MvPolynomial.CommRing
import Mathlib.Algebra.Polynomial.Eval.Degree

/-! Functions of finitely many variables that a polynomial computes, with a bound on the degree in
each variable. -/

namespace Zicket.Foundation

open MvPolynomial

variable {F : Type} [Field F] {n : ℕ} {f g : (Fin n → F) → F} {a b d : ℕ}

/-- A polynomial of degree at most `d` in each variable computes the function. -/
def HasDegree (d : ℕ) (f : (Fin n → F) → F) : Prop :=
  ∃ p : MvPolynomial (Fin n) F, (∀ i, p.degreeOf i ≤ d) ∧ ∀ u, eval u p = f u

namespace HasDegree

theorem mono (h : HasDegree a f) (le : a ≤ d) : HasDegree d f := by
  obtain ⟨p, bound, value⟩ := h
  exact ⟨p, fun i => (bound i).trans le, value⟩

theorem congr (h : HasDegree d f) (same : ∀ u, f u = g u) : HasDegree d g := by
  obtain ⟨p, bound, value⟩ := h
  exact ⟨p, bound, fun u => (value u).trans (same u)⟩

theorem const (x : F) : HasDegree 0 fun _ : Fin n → F => x :=
  ⟨C x, fun i => (degreeOf_C x i).le, fun _ => eval_C x⟩

theorem var (k : Fin n) : HasDegree 1 fun u : Fin n → F => u k := by
  refine ⟨X k, fun i => ?_, fun u => eval_X k⟩
  classical
  rw [degreeOf_X]
  split <;> omega

theorem add (hf : HasDegree a f) (hg : HasDegree b g) : HasDegree (max a b) fun u => f u + g u := by
  obtain ⟨p, pBound, pValue⟩ := hf
  obtain ⟨q, qBound, qValue⟩ := hg
  refine ⟨p + q, fun i => ?_, fun u => by rw [eval_add, pValue, qValue]⟩
  exact (degreeOf_add_le i p q).trans (max_le_max (pBound i) (qBound i))

theorem mul (hf : HasDegree a f) (hg : HasDegree b g) : HasDegree (a + b) fun u => f u * g u := by
  obtain ⟨p, pBound, pValue⟩ := hf
  obtain ⟨q, qBound, qValue⟩ := hg
  refine ⟨p * q, fun i => ?_, fun u => by rw [eval_mul, pValue, qValue]⟩
  exact (degreeOf_mul_le i p q).trans (Nat.add_le_add (pBound i) (qBound i))

theorem sub (hf : HasDegree a f) (hg : HasDegree b g) : HasDegree (max a b) fun u => f u - g u := by
  obtain ⟨p, pBound, pValue⟩ := hf
  obtain ⟨q, qBound, qValue⟩ := hg
  refine ⟨p - q, fun i => ?_, fun u => by rw [eval_sub, pValue, qValue]⟩
  exact (degreeOf_sub_le i p q).trans (max_le_max (pBound i) (qBound i))

theorem pow (hf : HasDegree a f) (k : ℕ) : HasDegree (k * a) fun u => f u ^ k := by
  obtain ⟨p, bound, value⟩ := hf
  refine ⟨p ^ k, fun i => ?_, fun u => by rw [eval_pow, value]⟩
  exact (degreeOf_pow_le i p k).trans (Nat.mul_le_mul_left k (bound i))

theorem sum {ι : Type} {s : Finset ι} {f : ι → (Fin n → F) → F}
    (each : ∀ k ∈ s, HasDegree d (f k)) : HasDegree d fun u => ∑ k ∈ s, f k u := by
  classical
  induction s using Finset.induction_on with
  | empty => exact (const 0).mono (Nat.zero_le d)
  | insert k s fresh ih =>
    have rest := ih fun j mem => each j (Finset.mem_insert_of_mem mem)
    have both := (each k (Finset.mem_insert_self k s)).add rest
    simp only [Finset.sum_insert fresh]
    exact both.mono (max_le le_rfl le_rfl)

theorem coordinate (P : Polynomial F) (k : Fin n) :
    HasDegree P.natDegree fun u => P.eval (u k) := by
  simp only [Polynomial.eval_eq_sum_range]
  refine sum fun j mem => ?_
  have term := (const (P.coeff j)).mul ((var k).pow j)
  refine term.mono ?_
  have le := Nat.lt_succ_iff.mp (Finset.mem_range.mp mem)
  omega

theorem prod_affine (s : Finset (Fin n)) (x y : Fin n → F) :
    HasDegree 1 fun u => ∏ k ∈ s, (x k + y k * u k) := by
  classical
  refine ⟨∏ k ∈ s, (C (x k) + C (y k) * X k), fun i => ?_, fun u => by simp⟩
  have factor : ∀ k ∈ s, (C (x k) + C (y k) * X k : MvPolynomial (Fin n) F).degreeOf i ≤
      if k = i then 1 else 0 := by
    intro k _
    have linear : (C (y k) * X k : MvPolynomial (Fin n) F).degreeOf i ≤ if k = i then 1 else 0 := by
      refine (degreeOf_C_mul_le _ _ _).trans (le_of_eq ?_)
      rw [degreeOf_X]
      simp only [eq_comm]
    exact (degreeOf_add_le _ _ _).trans (max_le (by simp) linear)
  calc _ ≤ ∑ k ∈ s, (C (x k) + C (y k) * X k : MvPolynomial (Fin n) F).degreeOf i :=
        degreeOf_prod_le _ _ _
    _ ≤ ∑ k ∈ s, if k = i then 1 else 0 := Finset.sum_le_sum factor
    _ ≤ 1 := by
        rw [Finset.sum_ite_eq']
        split <;> omega

end HasDegree

def HaveDegree (d : ℕ) (fs : (Fin n → F) → List F) : Prop :=
  ∃ ps : List (MvPolynomial (Fin n) F),
    (∀ p ∈ ps, ∀ i, p.degreeOf i ≤ d) ∧ ∀ u, ps.map (eval u) = fs u

namespace HaveDegree

variable {fs gs : (Fin n → F) → List F}

theorem nil : HaveDegree d fun _ : Fin n → F => [] :=
  ⟨[], by simp, fun _ => rfl⟩

theorem cons (head : HasDegree d f) (tail : HaveDegree d fs) :
    HaveDegree d fun u => f u :: fs u := by
  obtain ⟨p, bound, value⟩ := head
  obtain ⟨ps, bounds, values⟩ := tail
  refine ⟨p :: ps, ?_, fun u => by rw [List.map_cons, value, values]⟩
  intro q mem
  rcases List.mem_cons.mp mem with rfl | mem
  · exact bound
  · exact bounds q mem

theorem append (left : HaveDegree d fs) (right : HaveDegree d gs) :
    HaveDegree d fun u => fs u ++ gs u := by
  obtain ⟨ps, pBounds, pValues⟩ := left
  obtain ⟨qs, qBounds, qValues⟩ := right
  refine ⟨ps ++ qs, ?_, fun u => by rw [List.map_append, pValues, qValues]⟩
  intro q mem
  exact (List.mem_append.mp mem).elim (pBounds q ·) (qBounds q ·)

theorem tail (each : HaveDegree d fs) : HaveDegree d fun u => (fs u).tail := by
  obtain ⟨ps, bounds, values⟩ := each
  refine ⟨ps.tail, fun p mem => bounds p (List.mem_of_mem_tail mem), fun u => ?_⟩
  rw [List.map_tail, values]

theorem head (each : HaveDegree d fs) : HasDegree d fun u => (fs u).headD 0 := by
  obtain ⟨ps, bounds, values⟩ := each
  simp only [← values]
  cases ps with
  | nil => exact (HasDegree.const 0).mono (Nat.zero_le d)
  | cons p ps => exact ⟨p, bounds p List.mem_cons_self, fun _ => rfl⟩

theorem weighted (each : HaveDegree d fs) (weights : List F) (start : HasDegree d f) :
    HasDegree d fun u => ((fs u).zip weights).foldl (fun sum (x, weight) => sum + x * weight) (f u) := by
  obtain ⟨ps, bounds, values⟩ := each
  simp only [← values]
  clear values
  induction ps generalizing weights f with
  | nil => exact start
  | cons p ps ih =>
    cases weights with
    | nil => exact start
    | cons weight weights =>
      have term : HasDegree d fun u => eval u p :=
        ⟨p, bounds p List.mem_cons_self, fun _ => rfl⟩
      have next := start.add (term.mul (HasDegree.const weight))
      exact ih weights (next.mono (max_le le_rfl le_rfl)) fun q mem =>
        bounds q (List.mem_cons_of_mem p mem)

end HaveDegree

end Zicket.Foundation
