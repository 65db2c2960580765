import Mathlib.Algebra.MvPolynomial.SchwartzZippel
import Mathlib.Algebra.Polynomial.Roots
import Zicket.Foundation.DegreeBounds

/-! How many points of a finite space an unlucky event can take: the zeros of a function of bounded
degree, the roots in one coordinate, and pairs that are unlucky in the first or the second part. -/

namespace Zicket.Foundation

variable {F : Type} [Field F] [Fintype F] [DecidableEq F] {n d : ℕ}

theorem exists_members {A : Type} [Fintype A] (P : A → Prop) :
    ∃ s : Finset A, ∀ a, a ∈ s ↔ P a := by
  classical
  exact ⟨Finset.univ.filter P, fun a => by simp⟩

section Zeros

open MvPolynomial

theorem card_zeros_of_totalDegree_le {p : MvPolynomial (Fin n) F} (nonzero : p ≠ 0)
    (degree : p.totalDegree ≤ d) (zeros : Finset (Fin n → F)) (zero : ∀ u ∈ zeros, eval u p = 0) :
    zeros.card ≤ d * Fintype.card F ^ (n - 1) := by
  have size : (0 : ℚ≥0) < Fintype.card F := by exact_mod_cast Fintype.card_pos
  have bound := schwartz_zippel_totalDegree nonzero (Finset.univ : Finset F)
  rw [Finset.card_univ, div_le_iff₀ (pow_pos size n)] at bound
  have inside : zeros ⊆ {u ∈ Fintype.piFinset fun _ : Fin n => (Finset.univ : Finset F) |
      eval u p = 0} := fun u mem => by simpa using zero u mem
  have few := (Nat.cast_le (α := ℚ≥0)).mpr (Finset.card_le_card inside)
  have le := few.trans bound
  cases n with
  | zero =>
    have constant : p.totalDegree = 0 := by
      rw [eq_C_of_isEmpty p, totalDegree_C]
    rw [constant, Nat.cast_zero, zero_div, zero_mul] at le
    have none : zeros.card = 0 := by exact_mod_cast le_antisymm le zero_le
    omega
  | succ n =>
    rw [pow_succ', ← mul_assoc, div_mul_cancel₀ _ size.ne'] at le
    have total : zeros.card ≤ p.totalDegree * Fintype.card F ^ n := by exact_mod_cast le
    exact total.trans (Nat.mul_le_mul_right _ degree)

theorem HasDegree.card_zeros_le {f : (Fin n → F) → F} (degree : HasDegree d f) {w : Fin n → F}
    (nonzero : f w ≠ 0) : ({u | f u = 0} : Finset (Fin n → F)).card ≤
      n * d * Fintype.card F ^ (n - 1) := by
  obtain ⟨p, bound, value⟩ := degree
  have ne : p ≠ 0 := by
    rintro rfl
    exact nonzero ((value w).symm.trans (map_zero _))
  have size : (0 : ℚ≥0) < Fintype.card F := by exact_mod_cast Fintype.card_pos
  have bounds := schwartz_zippel_sum_degreeOf ne fun _ => (Finset.univ : Finset F)
  have zeros : {x ∈ Fintype.piFinset fun _ : Fin n => (Finset.univ : Finset F) | eval x p = 0} =
      ({u | f u = 0} : Finset (Fin n → F)) := by
    ext u
    simp [value]
  rw [zeros, Finset.prod_const, Finset.card_univ, Finset.card_univ, Fintype.card_fin,
    div_le_iff₀ (pow_pos size n)] at bounds
  have degrees : ∑ i, ((p.degreeOf i : ℚ≥0) / Fintype.card F) ≤ n * d / Fintype.card F := by
    rw [← Finset.sum_div]
    refine div_le_div_of_nonneg_right ?_ size.le
    calc ∑ i, (p.degreeOf i : ℚ≥0) ≤ ∑ _i : Fin n, (d : ℚ≥0) :=
          Finset.sum_le_sum fun i _ => by exact_mod_cast bound i
      _ = n * d := by simp
  cases n with
  | zero =>
    simp only [Finset.univ_eq_empty, Finset.sum_empty, zero_mul] at bounds
    have none : ({u | f u = 0} : Finset (Fin 0 → F)).card = 0 := by
      exact_mod_cast le_antisymm bounds zero_le
    omega
  | succ n =>
    have le : ((({u | f u = 0} : Finset (Fin (n + 1) → F)).card : ℕ) : ℚ≥0) ≤
        ((n + 1 : ℕ) : ℚ≥0) * d / Fintype.card F * Fintype.card F ^ (n + 1) :=
      bounds.trans (mul_le_mul_of_nonneg_right degrees (pow_pos size _).le)
    rw [pow_succ, ← mul_assoc, mul_right_comm, div_mul_cancel₀ _ size.ne'] at le
    rw [Nat.add_sub_cancel]
    exact_mod_cast le

theorem HasDegree.exists_zeros {f : (Fin n → F) → F} (degree : HasDegree d f) {w : Fin n → F}
    (nonzero : f w ≠ 0) : ∃ zeros : Finset (Fin n → F),
      zeros.card ≤ n * d * Fintype.card F ^ (n - 1) ∧ ∀ u ∉ zeros, f u ≠ 0 := by
  refine ⟨Finset.univ.filter (f · = 0), degree.card_zeros_le nonzero,
    fun u outside zero => outside ?_⟩
  exact Finset.mem_filter.mpr ⟨Finset.mem_univ u, zero⟩

end Zeros

/-- The points of which a coordinate is a root of a polynomial that the others fix. -/
theorem card_root_coordinates_le {D : (Fin n → F) → Polynomial F} (i : Fin n)
    (fixed : ∀ u v, (∀ j ≠ i, u j = v j) → D u = D v) (degree : ∀ u, (D u).natDegree ≤ d) :
    ({u | D u ≠ 0 ∧ (D u).eval (u i) = 0} : Finset (Fin n → F)).card ≤
      d * Fintype.card F ^ (n - 1) := by
  let others (u : Fin n → F) (j : {j // j ≠ i}) : F := u j
  have fiber : ∀ a ∈ ({u | D u ≠ 0 ∧ (D u).eval (u i) = 0} : Finset (Fin n → F)).image others,
      ({u ∈ ({u | D u ≠ 0 ∧ (D u).eval (u i) = 0} : Finset (Fin n → F)) | others u = a}).card ≤
        d := by
    intro a mem
    obtain ⟨v, accepted, rfl⟩ := Finset.mem_image.mp mem
    have nonzero := (Finset.mem_filter.mp accepted).2.1
    have same : ∀ u, others u = others v → D u = D v := fun u equal =>
      fixed u v fun j other => congrFun equal ⟨j, other⟩
    calc _ ≤ (D v).roots.toFinset.card := by
          refine Finset.card_le_card_of_injOn (fun u => u i) (fun u mem => ?_) ?_
          · obtain ⟨inside, equal⟩ := Finset.mem_filter.mp mem
            have root := (Finset.mem_filter.mp inside).2.2
            rw [same u equal] at root
            exact Multiset.mem_toFinset.mpr ((Polynomial.mem_roots nonzero).mpr root)
          · intro u hu w hw coordinate
            have left := (Finset.mem_filter.mp hu).2
            have right := (Finset.mem_filter.mp hw).2
            funext j
            by_cases here : j = i
            · rw [here]
              exact coordinate
            · exact congrFun (left.trans right.symm) ⟨j, here⟩
      _ ≤ Multiset.card (D v).roots := Multiset.toFinset_card_le _
      _ ≤ (D v).natDegree := Polynomial.card_roots' _
      _ ≤ d := degree v
  have images : (({u | D u ≠ 0 ∧ (D u).eval (u i) = 0} : Finset (Fin n → F)).image others).card ≤
      Fintype.card F ^ (n - 1) := by
    refine (Finset.card_le_univ _).trans (le_of_eq ?_)
    rw [Fintype.card_fun, Fintype.card_subtype_compl, Fintype.card_fin, Fintype.card_subtype_eq]
  exact (Finset.card_le_mul_card_image _ d fiber).trans (Nat.mul_le_mul_left d images)

theorem card_linear_zeros_le {start : F} {weights : Fin n → F}
    (nonzero : start ≠ 0 ∨ ∃ k, weights k ≠ 0) (zeros : Finset (Fin n → F))
    (zero : ∀ x ∈ zeros, start + ∑ k, x k * weights k = 0) :
    zeros.card ≤ Fintype.card F ^ (n - 1) := by
  by_cases some : ∃ k, weights k ≠ 0
  · obtain ⟨k, weight⟩ := some
    let D (x : Fin n → F) : Polynomial F :=
      .C (start + ∑ j ∈ Finset.univ.erase k, x j * weights j) + .C (weights k) * .X
    have linear (x : Fin n → F) : (D x).natDegree = 1 := by
      simp only [D, add_comm]
      exact Polynomial.natDegree_linear weight
    have value (x : Fin n → F) : (D x).eval (x k) = start + ∑ j, x j * weights j := by
      rw [← Finset.add_sum_erase _ _ (Finset.mem_univ k)]
      simp only [D, Polynomial.eval_add, Polynomial.eval_mul, Polynomial.eval_C, Polynomial.eval_X]
      ring
    have bound := card_root_coordinates_le k (D := D) (d := 1) (fun x y same => ?_)
      fun x => (linear x).le
    · rw [one_mul] at bound
      refine (Finset.card_le_card fun x mem => ?_).trans bound
      refine Finset.mem_filter.mpr ⟨Finset.mem_univ x, fun vanishes => ?_,
        (value x).trans (zero x mem)⟩
      have degree := linear x
      rw [vanishes, Polynomial.natDegree_zero] at degree
      exact absurd degree zero_ne_one
    · have others : ∑ j ∈ Finset.univ.erase k, x j * weights j =
          ∑ j ∈ Finset.univ.erase k, y j * weights j :=
        Finset.sum_congr rfl fun j mem => by rw [same j (Finset.ne_of_mem_erase mem)]
      simp only [D, others]
  · have weights : ∀ k, weights k = 0 := fun k => not_not.mp fun weight => some ⟨k, weight⟩
    have none : zeros = ∅ := by
      refine Finset.eq_empty_of_forall_notMem fun x mem => nonzero.resolve_right some ?_
      simpa [weights] using zero x mem
    rw [none, Finset.card_empty]
    exact Nat.zero_le _

/-- Few first parts are unlucky, and the others have few unlucky second parts. -/
theorem card_pairs_le {A B : Type} [Fintype A] [Fintype B] [DecidableEq A] {bad : Finset A}
    {m k : ℕ} (few : bad.card ≤ m) (passed : Finset (A × B))
    (fibers : ∀ a ∉ bad, ∀ fiber : Finset B, (∀ b ∈ fiber, (a, b) ∈ passed) → fiber.card ≤ k) :
    passed.card ≤ m * Fintype.card B + Fintype.card A * k := by
  classical
  have unlucky : ({x ∈ passed | x.1 ∈ bad}).card ≤ m * Fintype.card B := by
    calc _ ≤ (bad ×ˢ (Finset.univ : Finset B)).card := by
          refine Finset.card_le_card fun x mem => ?_
          exact Finset.mem_product.mpr ⟨(Finset.mem_filter.mp mem).2, Finset.mem_univ _⟩
      _ = bad.card * Fintype.card B := by rw [Finset.card_product, Finset.card_univ]
      _ ≤ m * Fintype.card B := Nat.mul_le_mul_right _ few
  have lucky : ({x ∈ passed | ¬ x.1 ∈ bad}).card ≤ Fintype.card A * k := by
    rw [mul_comm, ← Finset.card_univ]
    refine Finset.card_le_mul_card_image_of_maps_to (f := Prod.fst) (fun x _ => Finset.mem_univ _) k
      fun a _ => ?_
    by_cases good : a ∈ bad
    · have none : {x ∈ {x ∈ passed | ¬ x.1 ∈ bad} | x.1 = a} = ∅ := by
        refine Finset.filter_eq_empty_iff.mpr ?_
        rintro x mem rfl
        exact (Finset.mem_filter.mp mem).2 good
      rw [none, Finset.card_empty]
      exact Nat.zero_le k
    · refine le_trans ?_ (fibers a good (({x ∈ passed | x.1 = a}).image Prod.snd) ?_)
      · rw [Finset.card_image_of_injOn]
        · refine Finset.card_le_card fun x mem => ?_
          obtain ⟨inside, here⟩ := Finset.mem_filter.mp mem
          exact Finset.mem_filter.mpr ⟨(Finset.mem_filter.mp inside).1, here⟩
        · intro x hx y hy same
          exact Prod.ext ((Finset.mem_filter.mp hx).2.trans (Finset.mem_filter.mp hy).2.symm) same
      · intro b mem
        obtain ⟨x, found, rfl⟩ := Finset.mem_image.mp mem
        obtain ⟨inside, rfl⟩ := Finset.mem_filter.mp found
        exact inside
  rw [← Finset.card_filter_add_card_filter_not (s := passed) fun x => x.1 ∈ bad]
  exact Nat.add_le_add unlucky lucky

end Zicket.Foundation
