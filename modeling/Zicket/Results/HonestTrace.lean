import Zicket.Verifier.Trace

/-! The rows of a circuit whose relations hold are accepted by the sumcheck: the values that a
round sends fix its polynomial, since the relations have no higher degree, and the last check
compares the relations at the claimed evaluations with the polynomial at the challenges. -/

namespace Zicket.Verifier

open Host Foundation MvPolynomial

variable {n : ℕ} {cols : Columns n} {mask : (Fin n → Fr) → Fr} {proof : Proof} {tp : Transcript}
  {vk : VerificationKey}

/-- The prover's messages of the sumcheck: the sums over the rest of the cube, and at the end the
columns and the mask at the challenges. -/
structure HonestSumcheck (cols : Columns n) (mask : (Fin n → Fr) → Fr) (proof : Proof)
    (tp : Transcript) : Prop where
  libraSum : proof.libraSum = ∑ z ∈ cube n, mask z
  rounds : ∀ i : Fin n, ∀ k < 9, (roundUnivariate proof i).getD k 0 =
    ∑ z ∈ partialPoints (challengePoint tp n) i (k : Fr), summand cols mask tp z
  evaluations : evaluationOf proof.sumcheckEvaluations =
    fun wire => cols.column wire (challengePoint tp n)
  claimed : proof.libraClaimedEvaluation = mask (challengePoint tp n)

theorem verifySumcheck_of_rounds (positive : 0 < n) (le : n ≤ constProofSizeLogN)
    (size : vk.logCircuitSize = n) {target power : Fr}
    (rounds : sumcheckRoundsTarget proof tp n = .ok (target, power)) :
    verifySumcheck proof tp vk = .ok () ↔
      accumulateRelationEvaluations proof.sumcheckEvaluations tp.relParams tp.alphas power *
          (1 - lastRows (challengePoint tp n)) + proof.libraClaimedEvaluation * tp.libraChallenge =
        target := by
  subst size
  have range : (ensure (vk.logCircuitSize ≠ 0 ∧ vk.logCircuitSize ≤ constProofSizeLogN)
      (.error "sumcheck: log_circuit_size out of range") : Checked Unit) = .ok () :=
    ensure_eq_ok.mpr ⟨positive.ne', le⟩
  unfold verifySumcheck
  simp only [range, rounds]
  rw [← lastRows_eq le]
  exact ensure_eq_ok

theorem verifySumcheck_of_target (positive : 0 < n) (le : n ≤ constProofSizeLogN)
    (size : vk.logCircuitSize = n) {target : Fr}
    (rounds : sumcheckRoundsTarget proof tp n = .ok (target, separator tp n))
    (evaluations : evaluationOf proof.sumcheckEvaluations =
      fun wire => cols.column wire (challengePoint tp n))
    (claimed : proof.libraClaimedEvaluation = mask (challengePoint tp n)) :
    verifySumcheck proof tp vk = .ok () ↔ summand cols mask tp (challengePoint tp n) = target := by
  rw [verifySumcheck_of_rounds positive le size rounds, summand, ← accumulate_opened evaluations,
    ← claimed, ← separator_eq]

/-- The rounds leave what is summed up at the challenges. -/
theorem HonestSumcheck.target (honest : HonestSumcheck cols mask proof tp) (masks : HasDegree 8 mask)
    (satisfied : Satisfied cols tp.relParams) : sumcheckRoundsTarget proof tp n =
      .ok (summand cols mask tp (challengePoint tp n), separator tp n) := by
  obtain ⟨F, degree, values⟩ := summand_degree cols tp masks
  have total : ∑ z ∈ Fintype.piFinset fun _ : Fin n => ({0, 1} : Finset Fr), eval z F =
      tp.libraChallenge * proof.libraSum := by
    simp only [values]
    rw [honest.libraSum, mul_comm]
    refine sum_summand.trans ?_
    rw [satisfied.rowSum_eq_zero, zero_add]
  have sums : Honest proof tp F := by
    intro i k less
    rw [honest.rounds i k less, partialSum]
    simp only [values]
  have rounds := sumcheckRoundsTarget_eq degree total sums le_rfl
  rwa [fixedSum_last, values] at rounds

/-- The sumcheck accepts the rows of every circuit whose relations hold. -/
theorem sumcheck_accepts_satisfied (positive : 0 < n) (le : n ≤ constProofSizeLogN)
    (size : vk.logCircuitSize = n) (masks : HasDegree 8 mask)
    (satisfied : Satisfied cols tp.relParams) (honest : HonestSumcheck cols mask proof tp) :
    verifySumcheck proof tp vk = .ok () := by
  have rounds := honest.target masks satisfied
  exact (verifySumcheck_of_target positive le size rounds honest.evaluations honest.claimed).mpr rfl

section Sample

def constantColumns (n : ℕ) (values : Wire → Fr) : Columns n where
  column wire _ := values wire
  multilinear wire := (HasDegree.const (values wire)).mono (Nat.zero_le 1)

def oneGate : Wire → Fr
  | .qArith | .ql | .wl => 1
  | .qc => -1
  | _ => 0

def keyOfSize (logN : ℕ) : VerificationKey := ⟨2 ^ logN, logN, 16, 1, []⟩

def silentProof (cols : Columns n) (u : Fin n → Fr) : Proof :=
  { (default : Proof) with
    libraSum := 0
    libraClaimedEvaluation := 0
    sumcheckUnivariates := Vector.replicate _ (Vector.replicate _ 0)
    sumcheckEvaluations := cols.evaluations u }

theorem roundUnivariate_silentProof {u : Fin n → Fr} (round : ℕ) :
    roundUnivariate (silentProof cols u) round = List.replicate batchedRelationPartialLength 0 := by
  have row : (silentProof cols u).sumcheckUnivariates.toList.getD round
      (Vector.replicate _ 0) = Vector.replicate _ 0 := by
    rw [silentProof, Vector.toList_replicate, List.getD_eq_getElem?_getD, List.getElem?_replicate]
    split <;> rfl
  rw [roundUnivariate, row, Vector.toList_replicate]

theorem oneGate_row (z : Fin 3 → Fr) :
    (constantColumns 3 oneGate).row z default = List.replicate 26 0 := by
  have params : (default : RelationParameters) = ⟨0, 0, 0, 0, 0, 0⟩ := rfl
  simp [Columns.row, constantColumns, oneGate, params, subrelations, accumulateArithmeticRelation,
    accumulatePermutationRelation, accumulateLogDerivativeLookupRelation,
    accumulateDeltaRangeRelation, accumulateEllipticRelation, accumulateAuxiliaryRelation,
    accumulatePoseidonExternalRelation, accumulatePoseidonInternalRelation, List.replicate]

theorem oneGate_satisfied : Satisfied (constantColumns 3 oneGate) default where
  gates z _ k _ := by rw [oneGate_row, getD_replicate_zero]
  lookups := Finset.sum_eq_zero fun z _ => by rw [oneGate_row, getD_replicate_zero]

theorem oneGate_summand (z : Fin 3 → Fr) :
    summand (constantColumns 3 oneGate) (fun _ => 0) default z = 0 := by
  have params : (default : Transcript).relParams = default := rfl
  rw [summand, relationAt_eq_sum, params, oneGate_row]
  simp only [getD_replicate_zero, zero_mul, Finset.sum_const_zero, add_zero]

theorem oneGate_honest : HonestSumcheck (constantColumns 3 oneGate) (fun _ => 0)
    (silentProof (constantColumns 3 oneGate) (challengePoint default 3)) default where
  libraSum := by
    rw [Finset.sum_const_zero]
    rfl
  rounds i k _ := by
    rw [roundUnivariate_silentProof, getD_replicate_zero,
      Finset.sum_eq_zero fun z _ => oneGate_summand z]
  evaluations := evaluationOf_evaluations
  claimed := rfl

theorem sumcheck_accepts_satisfied_sample :
    verifySumcheck (silentProof (constantColumns 3 oneGate) (challengePoint default 3)) default
      (keyOfSize 3) = .ok () :=
  sumcheck_accepts_satisfied (by decide) (by decide) rfl ((HasDegree.const 0).mono (by decide))
    oneGate_satisfied oneGate_honest

end Sample

end Zicket.Verifier
