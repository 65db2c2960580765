import Zicket.Foundation.BatchOpening
import Zicket.Foundation.RunningSums
import Zicket.Results.Openings

/-! What the check of the mask says about the claimed evaluation. The identity that it tests walks
through partial sums; where the walk starts is left open, and with it the claimed evaluation. -/

namespace Zicket.Verifier

open Host Foundation Polynomial

variable {proof : Proof} {tp : Transcript} {challenges : Vector Fr constProofSizeLogN}
  {P A T : Fr[X]} {claimed : Fr}

/-- The mask at the challenges: a constant, and a univariate of degree eight for each of them. -/
noncomputable def maskValue (P : Fr[X]) (challenges : Vector Fr constProofSizeLogN) : Fr :=
  P.eval 1 + ∑ k ∈ Finset.range constProofSizeLogN, ∑ j ∈ Finset.range batchedRelationPartialLength,
    P.eval (subgroupGenerator ^ (1 + batchedRelationPartialLength * k + j)) *
      challenges.toList.getD k 0 ^ j

structure LibraOpened (P A T : Fr[X]) (proof : Proof) (r : Fr) : Prop where
  concatenation : libraEvaluation proof 0 = P.eval r
  shiftedGrandSum : libraEvaluation proof 1 = A.eval (subgroupGenerator * r)
  grandSum : libraEvaluation proof 2 = A.eval r
  quotient : libraEvaluation proof 3 = T.eval r

noncomputable def libraIdentity (challenges : Vector Fr constProofSizeLogN) (P A T : Fr[X])
    (claimed : Fr) : Fr[X] :=
  sumIdentity subgroupGenerator subgroupSize A (P * challengePolynomial challenges) T claimed

section Identity

theorem two_le_subgroupSize : 2 ≤ subgroupSize := by decide

theorem checkLibra_iff_eval (outside : ∀ i < subgroupSize, tp.geminiR ≠ subgroupGenerator ^ i)
    (opened : LibraOpened P A T proof tp.geminiR) :
    checkLibraEvaluationsConsistency proof tp = .ok () ↔
      (libraIdentity tp.sumcheckUChallenges P A T proof.libraClaimedEvaluation).eval
        tp.geminiR = 0 := by
  have vanishing := pow_ne_one_of_not_power (by decide) isPrimitiveRoot_subgroupGenerator outside
  have entry (i : ℕ) (less : i < subgroupSize) : ((List.range subgroupSize).map fun i =>
      (subgroupGenerator⁻¹ ^ i * tp.geminiR - 1)⁻¹).getD i 0 =
        (subgroupGenerator⁻¹ ^ i * tp.geminiR - 1)⁻¹ := by
    simp [List.getD_eq_getElem?_getD, less]
  have first := eval_subgroupLagrange (i := 0) (by decide) outside
  have last := eval_subgroupLagrange (i := subgroupSize - 1) (by decide) outside
  rw [subgroupLagrange, ← entry 0 (by decide)] at first
  rw [subgroupLagrange, ← entry (subgroupSize - 1) (by decide)] at last
  rw [libraIdentity, eval_sumIdentity, eval_mul, first, last,
    eval_challengePolynomial_eq_foldl outside, ← opened.concatenation, ← opened.shiftedGrandSum,
    ← opened.grandSum, ← opened.quotient]
  unfold checkLibraEvaluationsConsistency
  simp only [batchInverse_libraDenominators outside, withText_ok, bind_eq_ok, ensure_eq_ok,
    isZero_eq_false, isZero_eq_true, Fr.fromU64, subgroupGeneratorInverse_eq_inv]
  constructor
  · rintro ⟨_, _, inverses, found, difference⟩
    rw [← Except.ok.inj found] at difference
    exact difference
  · intro difference
    exact ⟨(), vanishing, _, rfl, difference⟩

theorem natDegree_challengePolynomial_le :
    (challengePolynomial challenges).natDegree ≤ subgroupSize - 1 := by
  have degree := (isChallengePolynomial_iff.mpr (rfl : challengePolynomial challenges = _)).degree
  have size : subgroupSize - 1 + 1 = subgroupSize := rfl
  rw [← size] at degree
  exact natDegree_le_of_degree_le (Order.lt_succ_iff.mp (by exact_mod_cast degree))

theorem natDegree_masked_le {d : ℕ} (concatenated : P.natDegree ≤ d) :
    (P * challengePolynomial challenges).natDegree ≤ d + (subgroupSize - 1) :=
  natDegree_mul_le.trans (Nat.add_le_add concatenated natDegree_challengePolynomial_le)

theorem natDegree_libraIdentity_le {d : ℕ} (concatenated : P.natDegree ≤ d)
    (walked : A.natDegree ≤ d) (divided : T.natDegree ≤ d) :
    (libraIdentity challenges P A T claimed).natDegree ≤ d + subgroupSize :=
  natDegree_sumIdentity_le isPrimitiveRoot_subgroupGenerator (by decide) walked
    (natDegree_masked_le concatenated) divided

end Identity

section Mask

theorem sum_eval_challengePolynomial (P : Fr[X]) (challenges : Vector Fr constProofSizeLogN) :
    ∑ i ∈ Finset.range (subgroupSize - 1),
      (P * challengePolynomial challenges).eval (subgroupGenerator ^ i) =
        maskValue P challenges := by
  have challenge := isChallengePolynomial_iff.mpr (rfl : challengePolynomial challenges = _)
  have value (i : ℕ) (less : i < subgroupSize) :
      (P * challengePolynomial challenges).eval (subgroupGenerator ^ i) =
        P.eval (subgroupGenerator ^ i) * (challengeLagrange challenges).getD i 0 := by
    rw [eval_mul, eval_challengePolynomial challenge less]
  have size : subgroupSize = 256 := rfl
  have width : batchedRelationPartialLength = 9 := rfl
  have rounds : constProofSizeLogN = 28 := rfl
  have split : subgroupSize - 1 = 1 + batchedRelationPartialLength * constProofSizeLogN + 2 := rfl
  have tail : ∑ i ∈ Finset.range 2, (P * challengePolynomial challenges).eval
      (subgroupGenerator ^ (1 + batchedRelationPartialLength * constProofSizeLogN + i)) = 0 := by
    refine Finset.sum_eq_zero fun i mem => ?_
    have less := Finset.mem_range.mp mem
    rw [value _ (by omega), challengeLagrange_getD, if_neg (by omega), if_neg (by omega), mul_zero]
  rw [split, Finset.sum_range_add, tail, add_zero, Finset.sum_range_add, Finset.sum_range_one,
    sum_range_mul, maskValue, value 0 (by decide), challengeLagrange_getD, if_neg (by omega),
    if_pos rfl, mul_one, pow_zero]
  refine congrArg _ (Finset.sum_congr rfl fun k round => Finset.sum_congr rfl fun j column => ?_)
  have less := Finset.mem_range.mp round
  have within := Finset.mem_range.mp column
  rw [width] at within ⊢
  have index : (1 + (9 * k + j) - 1) / 9 = k ∧ (1 + (9 * k + j) - 1) % 9 = j := by omega
  rw [value _ (by omega), challengeLagrange_getD, if_pos (by omega), index.1, index.2,
    ← Nat.add_assoc]

theorem checkLibra_of_identity (identity : libraIdentity challenges P A T claimed = 0)
    (same : tp.sumcheckUChallenges = challenges)
    (outside : ∀ i < subgroupSize, tp.geminiR ≠ subgroupGenerator ^ i)
    (opened : LibraOpened P A T proof tp.geminiR)
    (claims : proof.libraClaimedEvaluation = claimed) :
    checkLibraEvaluationsConsistency proof tp = .ok () := by
  rw [checkLibra_iff_eval outside opened, same, claims, identity, eval_zero]

/-- A walk to the mask, less what its start puts in; to every other end there is none. -/
theorem claimed_eq_of_identity (identity : libraIdentity challenges P A T claimed = 0) :
    claimed = maskValue P challenges - A.eval 1 * (subgroupGenerator - 1)⁻¹ := by
  rw [← sum_eval_challengePolynomial]
  exact (isRunningSum_of_sumIdentity isPrimitiveRoot_subgroupGenerator two_le_subgroupSize
    identity).eq_sum isPrimitiveRoot_subgroupGenerator two_le_subgroupSize

theorem exists_identity {d : ℕ} (enough : subgroupSize - 1 ≤ d) (concatenated : P.natDegree ≤ d)
    (challenges : Vector Fr constProofSizeLogN) (claimed : Fr) :
    ∃ A T : Fr[X], A.natDegree ≤ d ∧ T.natDegree ≤ d ∧
      libraIdentity challenges P A T claimed = 0 := by
  obtain ⟨A, T, walked, divided, -, identity⟩ := exists_sumIdentity_eq_zero
    isPrimitiveRoot_subgroupGenerator two_le_subgroupSize (P * challengePolynomial challenges)
    claimed enough (natDegree_masked_le concatenated)
  exact ⟨A, T, walked, divided, identity⟩

/-- The check binds the claimed evaluation to the mask only up to the start of the grand sum: with
the start that makes up for the difference, every claim passes at every challenge, and with another
start a claim passes at few challenges. -/
theorem claimed_evaluation_bound_up_to_start {d : ℕ} (enough : subgroupSize - 1 ≤ d)
    (concatenated : P.natDegree ≤ d) (challenges : Vector Fr constProofSizeLogN)
    (claimed start : Fr) :
    (claimed = maskValue P challenges - start * (subgroupGenerator - 1)⁻¹ →
      ∃ A T : Fr[X], A.natDegree ≤ d ∧ T.natDegree ≤ d ∧ A.eval 1 = start ∧
        ∀ (proof : Proof) (tp : Transcript), tp.sumcheckUChallenges = challenges →
          (∀ i < subgroupSize, tp.geminiR ≠ subgroupGenerator ^ i) →
          LibraOpened P A T proof tp.geminiR → proof.libraClaimedEvaluation = claimed →
          checkLibraEvaluationsConsistency proof tp = .ok ()) ∧
    (claimed ≠ maskValue P challenges - start * (subgroupGenerator - 1)⁻¹ →
      ∀ A T : Fr[X], A.natDegree ≤ d → T.natDegree ≤ d → A.eval 1 = start →
        ∀ passed : Finset Fr,
          (∀ r ∈ passed, ∃ (proof : Proof) (tp : Transcript), tp.sumcheckUChallenges = challenges ∧
            tp.geminiR = r ∧ (∀ i < subgroupSize, r ≠ subgroupGenerator ^ i) ∧
            LibraOpened P A T proof r ∧ proof.libraClaimedEvaluation = claimed ∧
            checkLibraEvaluationsConsistency proof tp = .ok ()) →
          passed.card ≤ d + subgroupSize) := by
  have apart : subgroupGenerator - 1 ≠ 0 :=
    sub_ne_zero.mpr (isPrimitiveRoot_subgroupGenerator.ne_one (by decide))
  constructor
  · intro reached
    obtain ⟨A, T, walked, divided, identity⟩ := exists_identity enough concatenated challenges claimed
    refine ⟨A, T, walked, divided, ?_, fun proof tp same outside opened claims =>
      checkLibra_of_identity identity same outside opened claims⟩
    have ends := (claimed_eq_of_identity identity).symm.trans reached
    exact mul_right_cancel₀ (inv_ne_zero apart) (sub_right_injective ends)
  · rintro missed A T walked divided rfl passed accepted
    refine card_roots_le (fun identity => missed (claimed_eq_of_identity identity))
      (natDegree_libraIdentity_le concatenated walked divided) passed fun r mem => ?_
    obtain ⟨proof, tp, same, rfl, outside, opened, claims, checked⟩ := accepted r mem
    rw [checkLibra_iff_eval outside opened, same, claims] at checked
    exact checked

/-- A mask that vanishes, claimed to be one. -/
theorem claimed_evaluation_bound_up_to_start_sample :
    ∃ A T : Fr[X], A.natDegree ≤ subgroupSize - 1 ∧ T.natDegree ≤ subgroupSize - 1 ∧
      A.eval 1 = 1 - subgroupGenerator ∧
        ∀ (proof : Proof) (tp : Transcript),
          tp.sumcheckUChallenges = Vector.replicate constProofSizeLogN 0 →
          (∀ i < subgroupSize, tp.geminiR ≠ subgroupGenerator ^ i) →
          LibraOpened 0 A T proof tp.geminiR → proof.libraClaimedEvaluation = 1 →
          checkLibraEvaluationsConsistency proof tp = .ok () := by
  have apart : subgroupGenerator - 1 ≠ 0 :=
    sub_ne_zero.mpr (isPrimitiveRoot_subgroupGenerator.ne_one (by decide))
  refine (claimed_evaluation_bound_up_to_start le_rfl (natDegree_zero.trans_le (Nat.zero_le _))
    (Vector.replicate constProofSizeLogN 0) 1 (1 - subgroupGenerator)).1 ?_
  have mask : maskValue 0 (Vector.replicate constProofSizeLogN 0) = 0 := by
    simp [maskValue]
  rw [mask, ← neg_sub subgroupGenerator 1, neg_mul, mul_inv_cancel₀ apart, sub_neg_eq_add, zero_add]

end Mask

end Zicket.Verifier
