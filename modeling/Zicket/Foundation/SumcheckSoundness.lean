import Zicket.Foundation.CubeSums
import Zicket.Foundation.RandomPoints

/-! A prover of a wrong sum passes the sumcheck for few challenges only: in some round its message
differs from the partial sum, and the challenge is a root of the difference. -/

namespace Zicket.Foundation

open MvPolynomial

variable {F : Type} [Field F] [DecidableEq F] {n d : ℕ}

/-- The messages of a prover, each fixed by the challenges before it. -/
structure Prover (F : Type) [Field F] (n d : ℕ) where
  message : Fin n → (Fin n → F) → Polynomial F
  degree : ∀ i u, (message i u).natDegree ≤ d
  causal : ∀ i u v, (∀ j < i, u j = v j) → message i u = message i v

/-- Each message adds up to the target before it, and leaves its value at the challenge; the last
target is the final value. -/
structure Prover.Accepted (prover : Prover F n d) (start final : F) (u : Fin n → F)
    (target : ℕ → F) : Prop where
  start_eq : target 0 = start
  sum_eq : ∀ i : Fin n, (prover.message i u).eval 0 + (prover.message i u).eval 1 = target i
  next_eq : ∀ i : Fin n, target (i + 1) = (prover.message i u).eval (u i)
  final_eq : target n = final

variable {p : MvPolynomial (Fin n) F} {u : Fin n → F}

theorem partialPoints_congr {i : Fin n} {u v : Fin n → F} (same : ∀ j < i, u j = v j) (x : F) :
    partialPoints u i x = partialPoints v i x := by
  refine congrArg Fintype.piFinset (funext fun j => ?_)
  by_cases before : j < i
  · rw [if_pos before, if_pos before, same j before]
  · rw [if_neg before, if_neg before]

theorem partialPolynomial_causal (p : MvPolynomial (Fin n) F) (i : Fin n) {u v : Fin n → F}
    (same : ∀ j < i, u j = v j) : partialPolynomial p u i = partialPolynomial p v i := by
  rw [partialPolynomial, partialPolynomial, partialPoints_congr same]

/-- One of the rounds lets the wrong target through. -/
theorem Prover.Accepted.exists_root {prover : Prover F n d} {start : F} {target : ℕ → F}
    (accepted : prover.Accepted start (eval u p) u target) (wrong : start ≠ fixedSum p u 0) :
    ∃ i, prover.message i u - partialPolynomial p u i ≠ 0 ∧
      (prover.message i u - partialPolynomial p u i).eval (u i) = 0 := by
  by_contra none
  have keeps : ∀ i ≤ n, target i ≠ fixedSum p u i := by
    intro i le
    induction i with
    | zero =>
      rw [accepted.start_eq]
      exact wrong
    | succ round ih =>
      let i : Fin n := ⟨round, le⟩
      have before := ih (Nat.le_of_succ_le le)
      have differs : prover.message i u - partialPolynomial p u i ≠ 0 := by
        intro zero
        refine before ?_
        rw [← accepted.sum_eq i, sub_eq_zero.mp zero, eval_partialPolynomial,
          eval_partialPolynomial]
        exact (fixedSum_eq_add (i := i)).symm
      intro same
      refine none ⟨i, differs, ?_⟩
      rw [Polynomial.eval_sub, ← accepted.next_eq i, eval_partialPolynomial, same, sub_eq_zero]
      exact fixedSum_succ (i := i)
  refine keeps n le_rfl ?_
  rw [accepted.final_eq, fixedSum_last]

theorem Prover.card_accepted_le [Fintype F] (prover : Prover F n d) (degree : ∀ i, p.degreeOf i ≤ d) {start : F}
    (wrong : start ≠ ∑ z ∈ Fintype.piFinset fun _ : Fin n => ({0, 1} : Finset F), eval z p)
    (passed : Finset (Fin n → F))
    (accepted : ∀ u ∈ passed, ∃ target, prover.Accepted start (eval u p) u target) :
    passed.card ≤ n * (d * Fintype.card F ^ (n - 1)) := by
  let D (i : Fin n) (u : Fin n → F) := prover.message i u - partialPolynomial p u i
  have covered : passed ⊆ Finset.univ.biUnion fun i => {u | D i u ≠ 0 ∧ (D i u).eval (u i) = 0} := by
    intro u mem
    obtain ⟨target, accepts⟩ := accepted u mem
    obtain ⟨i, root⟩ := accepts.exists_root (by rwa [fixedSum_zero])
    exact Finset.mem_biUnion.mpr ⟨i, Finset.mem_univ i, Finset.mem_filter.mpr ⟨Finset.mem_univ u, root⟩⟩
  have each : ∀ i ∈ Finset.univ, ({u | D i u ≠ 0 ∧ (D i u).eval (u i) = 0} : Finset _).card ≤
      d * Fintype.card F ^ (n - 1) := by
    intro i _
    refine card_root_coordinates_le i (fun u v same => ?_) fun u => ?_
    · have before : ∀ j < i, u j = v j := fun j less => same j less.ne
      exact congrArg₂ (· - ·) (prover.causal i u v before) (partialPolynomial_causal p i before)
    · exact (Polynomial.natDegree_sub_le _ _).trans
        (max_le (prover.degree i u) ((natDegree_partialPolynomial_le p u i).trans (degree i)))
  calc passed.card ≤ _ := Finset.card_le_card covered
    _ ≤ ∑ i : Fin n, d * Fintype.card F ^ (n - 1) :=
        Finset.card_biUnion_le.trans (Finset.sum_le_sum each)
    _ = n * (d * Fintype.card F ^ (n - 1)) := by simp

end Zicket.Foundation
