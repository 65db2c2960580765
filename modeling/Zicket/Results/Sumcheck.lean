import Zicket.Verifier.Interpolation

/-! An honest prover passes every round of the sumcheck: the target after the rounds is the sum over
the cube with the challenges in place of the variables, and at the end the value at all of them. -/

namespace Zicket.Verifier

open Host Foundation MvPolynomial

variable {proof : Proof} {tp : Transcript} {logN : ℕ} {F : MvPolynomial (Fin logN) Fr}

def challengePoint (tp : Transcript) (logN : ℕ) (j : Fin logN) : Fr := uChallenge tp j

def separator (tp : Transcript) (rounds : ℕ) : Fr :=
  ∏ k ∈ Finset.range rounds, (1 + uChallenge tp k * (tp.gateChallenges.toList.getD k 0 - 1))

/-- The nine values of a round are those of the partial sum. -/
def Honest (proof : Proof) (tp : Transcript) (F : MvPolynomial (Fin logN) Fr) : Prop :=
  ∀ i : Fin logN, ∀ k < 9,
    (roundUnivariate proof i).getD k 0 = partialSum F (challengePoint tp logN) i (k : Fr)

theorem roundUnivariate_length (round : ℕ) : (roundUnivariate proof round).length = 9 :=
  Vector.length_toList

/-- The rounds leave the sum with the challenges fixed. -/
theorem sumcheckRoundsTarget_eq (degree : ∀ i, F.degreeOf i ≤ 8)
    (total : ∑ z ∈ Fintype.piFinset fun _ : Fin logN => ({0, 1} : Finset Fr), eval z F =
      tp.libraChallenge * proof.libraSum)
    (honest : Honest proof tp F) {rounds : ℕ} (le : rounds ≤ logN) :
    sumcheckRoundsTarget proof tp rounds =
      .ok (fixedSum F (challengePoint tp logN) rounds, separator tp rounds) := by
  induction rounds with
  | zero =>
    rw [sumcheckRoundsTarget, fixedSum_zero, total, separator, Finset.prod_range_zero]
    rfl
  | succ round ih =>
    let i : Fin logN := ⟨round, le⟩
    obtain ⟨P, bound, values⟩ := exists_univariate F (challengePoint tp logN) i
    have small : P.degree < 9 := by
      refine Polynomial.degree_le_natDegree.trans_lt ?_
      exact_mod_cast Nat.lt_succ_of_le (bound.trans (degree i))
    have nine (k : ℕ) (less : k < 9) :
        (roundUnivariate proof round).getD k 0 = P.eval (point k) :=
      (honest i k less).trans (values k).symm
    have zero : point 0 = 0 := Nat.cast_zero
    have one : point 1 = 1 := Nat.cast_one
    have sum : checkSum (roundUnivariate proof round)
        (fixedSum F (challengePoint tp logN) round) = true := by
      refine decide_eq_true ?_
      rw [nine 0 (by decide), nine 1 (by decide), values, values, zero, one]
      exact (fixedSum_eq_add (i := i)).symm
    have target : computeNextTargetSum (roundUnivariate proof round) (uChallenge tp round)
        barycentricWeights pointIndices = .ok (fixedSum F (challengePoint tp logN) (round + 1)) := by
      rw [computeNextTargetSum_eq (roundUnivariate_length round) small nine, values]
      exact congrArg Except.ok (fixedSum_succ (i := i)).symm
    have power : separator tp (round + 1) = partiallyEvaluatePow
        (tp.gateChallenges.toList.getD round 0) (separator tp round) (uChallenge tp round) :=
      Finset.prod_range_succ _ _
    rw [power]
    exact bind_eq_ok.mpr ⟨_, ih (Nat.le_of_succ_le le), bind_eq_ok.mpr
      ⟨(), ensure_eq_ok.mpr sum, bind_eq_ok.mpr ⟨_, target, rfl⟩⟩⟩

/-- Every honest prover: no round fails, and what is left is the comparison with the value at the
challenges. -/
theorem sumcheck_accepts_honest (positive : 0 < logN) (le : logN ≤ constProofSizeLogN)
    (degree : ∀ i, F.degreeOf i ≤ 8)
    (total : ∑ z ∈ Fintype.piFinset fun _ : Fin logN => ({0, 1} : Finset Fr), eval z F =
      tp.libraChallenge * proof.libraSum)
    (honest : Honest proof tp F) :
    sumcheckRoundsTarget proof tp logN =
      .ok (eval (challengePoint tp logN) F, separator tp logN) ∧
    ∀ vk, vk.logCircuitSize = logN → verifySumcheck proof tp vk =
      ensure (accumulateRelationEvaluations proof.sumcheckEvaluations tp.relParams tp.alphas
          (separator tp logN) *
          (1 - ((tp.sumcheckUChallenges.toList.take logN).drop 2).foldl (· * ·) 1) +
        proof.libraClaimedEvaluation * tp.libraChallenge = eval (challengePoint tp logN) F)
      (.error "sumcheck final mismatch") := by
  have rounds := sumcheckRoundsTarget_eq degree total honest le_rfl
  rw [fixedSum_last] at rounds
  refine ⟨rounds, ?_⟩
  rintro vk rfl
  have range : (ensure (vk.logCircuitSize ≠ 0 ∧ vk.logCircuitSize ≤ constProofSizeLogN)
      (.error "sumcheck: log_circuit_size out of range") : Checked Unit) = .ok () :=
    ensure_eq_ok.mpr ⟨positive.ne', le⟩
  unfold verifySumcheck
  simp only [range, rounds]
  rfl

section Sample

def productProof : Proof :=
  { (default : Proof) with
    libraSum := 1
    sumcheckUnivariates := .ofFn fun i => .ofFn fun k => Fr.fromU64 3 ^ i.val * (k.val : Fr) }

def threesTranscript : Transcript :=
  { (default : Transcript) with
    libraChallenge := 1
    gateChallenges := Vector.replicate _ (Fr.fromU64 2)
    sumcheckUChallenges := Vector.replicate _ (Fr.fromU64 3) }

theorem challengePoint_threes : challengePoint threesTranscript 3 = fun _ => 3 := by
  funext j
  fin_cases j <;> rfl

theorem partialSum_prod_X (u : Fin logN → Fr) (i : Fin logN) (x : Fr) :
    partialSum (∏ j, X j) u i x = ∏ j, if j < i then u j else if j = i then x else 1 := by
  have sums : partialSum (∏ j, X j) u i x = ∏ j, ∑ a ∈ if j < i then {u j} else
      if j = i then {x} else {0, 1}, a := by
    simp only [partialSum, partialPoints, eval_prod, eval_X]
    exact (Finset.prod_univ_sum _ fun _ a => a).symm
  rw [sums]
  refine Finset.prod_congr rfl fun j _ => ?_
  split_ifs <;> simp

theorem productProof_honest : Honest productProof threesTranscript (∏ j : Fin 3, X j) := by
  intro i k less
  have sent : (roundUnivariate productProof i).getD k 0 = 3 ^ i.val * (k : Fr) := by
    fin_cases i <;> interval_cases k <;> rfl
  rw [sent, partialSum_prod_X, challengePoint_threes, Fin.prod_univ_three]
  obtain rfl | rfl | rfl : i = 0 ∨ i = 1 ∨ i = 2 := by omega
  · simp
  · simp
  · simp [pow_two]

theorem sumcheck_accepts_honest_sample :
    sumcheckRoundsTarget productProof threesTranscript 3 =
      .ok (eval (challengePoint threesTranscript 3) (∏ j, X j), separator threesTranscript 3) ∧
    ∀ vk, vk.logCircuitSize = 3 → verifySumcheck productProof threesTranscript vk =
      ensure (accumulateRelationEvaluations productProof.sumcheckEvaluations
          threesTranscript.relParams threesTranscript.alphas (separator threesTranscript 3) *
          (1 - ((threesTranscript.sumcheckUChallenges.toList.take 3).drop 2).foldl (· * ·) 1) +
        productProof.libraClaimedEvaluation * threesTranscript.libraChallenge =
          eval (challengePoint threesTranscript 3) (∏ j, X j))
      (.error "sumcheck final mismatch") := by
  refine sumcheck_accepts_honest (by decide) (by decide) (fun i => ?_) ?_ productProof_honest
  · refine (degreeOf_prod_le i _ _).trans ?_
    simp only [degreeOf_X, Fin.sum_univ_three]
    fin_cases i <;> decide
  · rw [← fixedSum_zero (u := challengePoint threesTranscript 3),
      show (0 : ℕ) = (0 : Fin 3) from rfl, fixedSum_eq_add, partialSum_prod_X, partialSum_prod_X,
      Fin.prod_univ_three, Fin.prod_univ_three]
    change _ = (1 : Fr) * 1
    norm_num

end Sample

end Zicket.Verifier
