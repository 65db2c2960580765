import Zicket.Verifier.Trace

/-! What the rounds of the sumcheck check of any prover: nine values are a polynomial, whatever
they are, and the target of a round is its value at the challenge. -/

namespace Zicket.Verifier

open Host Foundation Polynomial

variable {proof : Proof} {tp : Transcript} {target power : Fr}

noncomputable def roundPolynomial (proof : Proof) (round : ℕ) : Fr[X] :=
  Lagrange.interpolate (Finset.range 9) point fun k => (roundUnivariate proof round).getD k 0

theorem degree_roundPolynomial_lt (round : ℕ) : (roundPolynomial proof round).degree < 9 := by
  have small := Lagrange.degree_interpolate_lt
    (r := fun k => (roundUnivariate proof round).getD k 0) injOn_point
  rwa [Finset.card_range] at small

theorem natDegree_roundPolynomial_le (round : ℕ) : (roundPolynomial proof round).natDegree ≤ 8 := by
  have small : (roundPolynomial proof round).degree < 9 := degree_roundPolynomial_lt round
  by_cases zero : roundPolynomial proof round = 0
  · rw [zero, natDegree_zero]
    omega
  · exact Nat.lt_succ_iff.mp ((natDegree_lt_iff_degree_lt zero).mpr small)

theorem eval_roundPolynomial {k : ℕ} (less : k < 9) (round : ℕ) :
    (roundPolynomial proof round).eval (point k) = (roundUnivariate proof round).getD k 0 :=
  Lagrange.eval_interpolate_at_node _ injOn_point (Finset.mem_range.mpr less)

noncomputable def targetAt (proof : Proof) (tp : Transcript) : ℕ → Fr
  | 0 => tp.libraChallenge * proof.libraSum
  | round + 1 => (roundPolynomial proof round).eval (uChallenge tp round)

theorem sumcheckRoundsTarget_ok {rounds : ℕ}
    (passed : sumcheckRoundsTarget proof tp rounds = .ok (target, power)) :
    target = targetAt proof tp rounds ∧ power = separator tp rounds ∧
      ∀ round < rounds, (roundPolynomial proof round).eval 0 + (roundPolynomial proof round).eval 1 =
        targetAt proof tp round := by
  induction rounds generalizing target power with
  | zero =>
    obtain ⟨rfl, rfl⟩ := Prod.mk.inj (Except.ok.inj passed)
    exact ⟨rfl, by simp [separator], by simp⟩
  | succ round ih =>
    rw [sumcheckRoundsTarget] at passed
    obtain ⟨⟨before, weight⟩, passedBefore, passed⟩ := bind_eq_ok.mp passed
    obtain ⟨_, added, passed⟩ := bind_eq_ok.mp passed
    obtain ⟨next, evaluated, passed⟩ := bind_eq_ok.mp passed
    obtain ⟨rfl, rfl⟩ := Prod.mk.inj (Except.ok.inj passed)
    obtain ⟨rfl, rfl, sums⟩ := ih passedBefore
    have interpolated : computeNextTargetSum (roundUnivariate proof round) (uChallenge tp round)
        barycentricWeights pointIndices =
          .ok ((roundPolynomial proof round).eval (uChallenge tp round)) :=
      computeNextTargetSum_eq (roundUnivariate_length round) (degree_roundPolynomial_lt round)
        fun k less => (eval_roundPolynomial less round).symm
    refine ⟨Except.ok.inj (evaluated.symm.trans interpolated), ?_, fun k less => ?_⟩
    · rw [partiallyEvaluatePow, separator, separator, Finset.prod_range_succ]
    · rcases Nat.lt_succ_iff_lt_or_eq.mp less with earlier | rfl
      · exact sums k earlier
      · have zero : (roundPolynomial proof k).eval 0 = (roundUnivariate proof k).getD 0 0 := by
          rw [← eval_roundPolynomial (by decide), point, Nat.cast_zero]
        have one : (roundPolynomial proof k).eval 1 = (roundUnivariate proof k).getD 1 0 := by
          rw [← eval_roundPolynomial (by decide), point, Nat.cast_one]
        rw [zero, one]
        exact of_decide_eq_true (ensure_eq_ok.mp added)

end Zicket.Verifier
