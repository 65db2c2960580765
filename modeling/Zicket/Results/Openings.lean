import Zicket.Verifier.FoldEvaluations

/-! What the opening of a proof computes through inverted denominators: the inversion itself, the
check of the Libra evaluations against the polynomials it stands for, and the evaluations of the
folds. -/

namespace Zicket.Verifier

open Host Foundation Polynomial

section Inversion

variable {vals out : List Fr}

/-- Lists of any length: the inversion fails exactly for a zero, and else every position of the
output holds the inverse of the value there. -/
theorem batch_inverse_correct (vals out : List Fr) (same : vals.length = out.length) :
    ((∃ failure, batchInverse vals out = .error failure) ↔ 0 ∈ vals) ∧
      (0 ∉ vals → ∃ inverses, batchInverse vals out = .ok inverses ∧
        inverses.length = out.length ∧
        ∀ (i : ℕ) (x : Fr), vals[i]? = some x → inverses[i]? = some (x⁻¹)) := by
  rw [batchInverse_eq same]
  refine ⟨?_, fun nonzero => ?_⟩
  · by_cases zero : 0 ∈ vals
    · simp [zero]
    · simp [zero]
  · refine ⟨vals.map (·⁻¹), if_neg nonzero, by simp [same], fun i x stored => ?_⟩
    rw [List.getElem?_map, stored]
    rfl

theorem batch_inverse_correct_sample :
    ((∃ failure, batchInverse [2, 3, 5] [0, 0, 0] = .error failure) ↔ (0 : Fr) ∈ [2, 3, 5]) ∧
      ((0 : Fr) ∉ [2, 3, 5] → ∃ inverses : List Fr,
        batchInverse [2, 3, 5] [0, 0, 0] = .ok inverses ∧ inverses.length = 3 ∧
        ∀ (i : ℕ) (x : Fr), ([2, 3, 5] : List Fr)[i]? = some x → inverses[i]? = some (x⁻¹)) :=
  batch_inverse_correct [2, 3, 5] [0, 0, 0] rfl

end Inversion

section Libra

variable {proof : Proof} {tp : Transcript} {C : Fr[X]}
  {challenges : Vector Fr constProofSizeLogN}

noncomputable def subgroupLagrange (i : ℕ) : Fr[X] :=
  Lagrange.basis (Finset.range subgroupSize) (fun i => subgroupGenerator ^ i) i

/-- The polynomial through the powers of the challenges. -/
structure IsChallengePolynomial (challenges : Vector Fr constProofSizeLogN) (C : Fr[X]) :
    Prop where
  degree : C.degree < subgroupSize
  first : C.eval (subgroupGenerator ^ 0) = 1
  powers (k : ℕ) (less : k < constProofSizeLogN) (j : ℕ) :
    j < batchedRelationPartialLength →
      C.eval (subgroupGenerator ^ (1 + batchedRelationPartialLength * k + j)) = challenges[k] ^ j
  rest (i : ℕ) : constProofSizeLogN * batchedRelationPartialLength < i → i < subgroupSize →
    C.eval (subgroupGenerator ^ i) = 0

theorem eval_subgroupLagrange {r : Fr} {i : ℕ} (less : i < subgroupSize)
    (outside : ∀ i < subgroupSize, r ≠ subgroupGenerator ^ i) : (subgroupLagrange i).eval r =
      (subgroupGenerator⁻¹ ^ i * r - 1)⁻¹ * ((r ^ subgroupSize - 1) * (subgroupSize : Fr)⁻¹) := by
  rw [subgroupLagrange,
    eval_basis_powers (by decide) isPrimitiveRoot_subgroupGenerator outside less, mul_comm]

/-- The array that the code fills holds the values of the polynomial. -/
theorem eval_challengePolynomial (challenge : IsChallengePolynomial challenges C) {i : ℕ}
    (less : i < subgroupSize) :
    C.eval (subgroupGenerator ^ i) = (challengeLagrange challenges).getD i 0 := by
  rw [challengeLagrange_getD]
  by_cases row : 1 ≤ i ∧ i ≤ 252
  · have index : i = 1 + 9 * ((i - 1) / 9) + (i - 1) % 9 := by omega
    have within : (i - 1) / 9 < constProofSizeLogN := by
      rw [constProofSizeLogN]
      omega
    have value := challenge.powers ((i - 1) / 9) within ((i - 1) % 9) (Nat.mod_lt _ (by decide))
    rw [batchedRelationPartialLength, ← index] at value
    rw [if_pos row, value, toList_getD within]
  · rw [if_neg row]
    by_cases start : i = 0
    · subst start
      exact challenge.first
    · rw [if_neg start]
      exact challenge.rest i (by rw [constProofSizeLogN, batchedRelationPartialLength]; omega) less

noncomputable def challengePolynomial (challenges : Vector Fr constProofSizeLogN) : Fr[X] :=
  Lagrange.interpolate (Finset.range subgroupSize) (fun i => subgroupGenerator ^ i) fun i =>
    (challengeLagrange challenges).getD i 0

theorem isChallengePolynomial_iff :
    IsChallengePolynomial challenges C ↔ C = challengePolynomial challenges := by
  have injective := injOn_pow_of_isPrimitiveRoot isPrimitiveRoot_subgroupGenerator
  constructor
  · intro challenge
    have degree : C.degree < (Finset.range subgroupSize).card := by
      rw [Finset.card_range]
      exact challenge.degree
    rw [challengePolynomial]
    exact Lagrange.eq_interpolate_of_eval_eq (fun i => (challengeLagrange challenges).getD i 0)
      injective degree fun i mem => eval_challengePolynomial challenge (Finset.mem_range.mp mem)
  · intro same
    rw [same]
    have value (i : ℕ) (less : i < subgroupSize) :
        (challengePolynomial challenges).eval (subgroupGenerator ^ i) =
          (challengeLagrange challenges).getD i 0 :=
      Lagrange.eval_interpolate_at_node (fun i => (challengeLagrange challenges).getD i 0)
        injective (Finset.mem_range.mpr less)
    refine ⟨?_, ?_, fun k less j column => ?_, fun i above less => ?_⟩
    · have degree := Lagrange.degree_interpolate_lt
        (fun i => (challengeLagrange challenges).getD i 0) injective
      rwa [Finset.card_range] at degree
    · rw [value 0 (by decide), challengeLagrange_getD]
      rfl
    · have within : k < 28 := less
      rw [batchedRelationPartialLength] at column ⊢
      have index : (1 + 9 * k + j - 1) / 9 = k ∧ (1 + 9 * k + j - 1) % 9 = j := by omega
      rw [value _ (by rw [subgroupSize]; omega), challengeLagrange_getD, if_pos (by omega),
        index.1, index.2, toList_getD less]
    · rw [constProofSizeLogN, batchedRelationPartialLength] at above
      rw [value i less, challengeLagrange_getD, if_neg (by omega), if_neg (by omega)]

theorem eval_challengePolynomial_eq_foldl
    (outside : ∀ i < subgroupSize, tp.geminiR ≠ subgroupGenerator ^ i) :
    (challengePolynomial tp.sumcheckUChallenges).eval tp.geminiR =
      ((challengeLagrange tp.sumcheckUChallenges).zip ((List.range subgroupSize).map fun i =>
        (subgroupGenerator⁻¹ ^ i * tp.geminiR - 1)⁻¹)).foldl (fun sum (a, b) => sum + a * b) 0 *
      ((tp.geminiR ^ subgroupSize - 1) * (subgroupSize : Fr)⁻¹) := by
  rw [foldl_zip_eq_sum challengeLagrange_length (by simp), zero_add, Finset.sum_mul,
    challengePolynomial, Lagrange.interpolate_apply, eval_finsetSum]
  refine Finset.sum_congr rfl fun i mem => ?_
  have less := Finset.mem_range.mp mem
  have value := eval_subgroupLagrange less outside
  rw [subgroupLagrange] at value
  rw [eval_mul, eval_C, value]
  simp [List.getD_eq_getElem?_getD, less]
  ring

/-- The check of the evaluations is the one identity between the polynomials of the subgroup. -/
theorem libra_consistency_iff (challenge : IsChallengePolynomial tp.sumcheckUChallenges C)
    (outside : ∀ i < subgroupSize, tp.geminiR ≠ subgroupGenerator ^ i) :
    checkLibraEvaluationsConsistency proof tp = .ok () ↔
      (subgroupLagrange 0).eval tp.geminiR * libraEvaluation proof 2 +
        (tp.geminiR - subgroupGenerator⁻¹) * (libraEvaluation proof 1 -
          libraEvaluation proof 2 -
          libraEvaluation proof 0 * C.eval tp.geminiR) +
        (subgroupLagrange (subgroupSize - 1)).eval tp.geminiR *
          (libraEvaluation proof 2 - proof.libraClaimedEvaluation) =
        (tp.geminiR ^ subgroupSize - 1) * libraEvaluation proof 3 := by
  have vanishing := pow_ne_one_of_not_power (by decide) isPrimitiveRoot_subgroupGenerator outside
  have inverse (i : ℕ) (less : i < subgroupSize) : ((List.range subgroupSize).map fun i =>
      (subgroupGenerator⁻¹ ^ i * tp.geminiR - 1)⁻¹).getD i 0 =
        (subgroupGenerator⁻¹ ^ i * tp.geminiR - 1)⁻¹ := by
    simp [List.getD_eq_getElem?_getD, less]
  rw [eval_subgroupLagrange (by decide) outside, eval_subgroupLagrange (by decide) outside,
    isChallengePolynomial_iff.mp challenge, eval_challengePolynomial_eq_foldl outside,
    ← inverse 0 (by decide),
    ← inverse (subgroupSize - 1) (by decide)]
  unfold checkLibraEvaluationsConsistency
  simp only [batchInverse_libraDenominators outside, withText_ok, bind_eq_ok, ensure_eq_ok,
    isZero_eq_false, isZero_eq_true, Fr.fromU64, subgroupGeneratorInverse_eq_inv]
  constructor
  · rintro ⟨-, -, inverses, found, difference⟩
    rw [← Except.ok.inj found, sub_eq_zero] at difference
    exact difference
  · intro identity
    refine ⟨(), vanishing, _, rfl, ?_⟩
    rw [sub_eq_zero]
    exact identity

def smallTranscript : Transcript :=
  { (default : Transcript) with
    rho := Fr.fromU64 2
    shplonkNu := Fr.fromU64 2
    geminiR := Fr.fromU64 2
    shplonkZ := Fr.fromU64 3
    sumcheckUChallenges := Vector.replicate _ (Fr.fromU64 3) }

def smallProof : Proof :=
  { (default : Proof) with
    hidingPolynomialEvaluation := Fr.fromU64 3 - Fr.fromU64 2 ^ 41
    sumcheckEvaluations := Vector.replicate _ 1
    geminiAEvaluations := .ofFn fun j =>
      -Fr.fromU64 (if j.val = 0 then 85 else if j.val = 1 then 51 else 15)
    libraPolynomialEvaluations := .ofFn fun k => Fr.fromU64 (k + 1)
    libraClaimedEvaluation := Fr.fromU64 5 }

theorem smallTranscript_not_power (i : ℕ) (_ : i < subgroupSize) :
    smallTranscript.geminiR ≠ subgroupGenerator ^ i := by
  intro same
  have power : smallTranscript.geminiR ^ subgroupSize = 1 := by
    rw [same, ← pow_mul, Nat.mul_comm, pow_mul, isPrimitiveRoot_subgroupGenerator.pow_eq_one,
      one_pow]
  have value : smallTranscript.geminiR = (2 : ℕ) := rfl
  rw [value, ← Nat.cast_pow, ← Nat.cast_one, ZMod.natCast_eq_natCast_iff] at power
  exact absurd power (by decide)

theorem libra_consistency_iff_sample :
    checkLibraEvaluationsConsistency smallProof smallTranscript = .ok () ↔
      (subgroupLagrange 0).eval 2 * 3 +
        (2 - subgroupGenerator⁻¹) *
          (2 - 3 - 1 * (challengePolynomial smallTranscript.sumcheckUChallenges).eval 2) +
        (subgroupLagrange (subgroupSize - 1)).eval 2 * (3 - 5) =
        (2 ^ subgroupSize - 1) * 4 := by
  have point : smallTranscript.geminiR = 2 := rfl
  have mask : libraEvaluation smallProof 0 = 1 ∧ libraEvaluation smallProof 1 = 2 ∧
      libraEvaluation smallProof 2 = 3 ∧ libraEvaluation smallProof 3 = 4 ∧
        smallProof.libraClaimedEvaluation = 5 := ⟨rfl, rfl, rfl, rfl, rfl⟩
  have consistent : checkLibraEvaluationsConsistency smallProof smallTranscript = .ok () ↔ _ :=
    libra_consistency_iff (isChallengePolynomial_iff.mpr rfl) smallTranscript_not_power
  rwa [point, mask.1, mask.2.1, mask.2.2.1, mask.2.2.2.1, mask.2.2.2.2] at consistent

end Libra

section Gemini

variable {proof : Proof} {tp : Transcript} {logN : ℕ} {A : ℕ → Fr[X]}

/-- The loop reconstructs the evaluations of all folds, whenever the inversion it rests on does
not fail; this it does for the other denominators only. -/
theorem fold_positions_correct (positive : 0 < logN) (le : logN ≤ constProofSizeLogN)
    (degree : (A 0).natDegree < 2 ^ logN)
    (isFold : ∀ j < logN, IsFold (uChallenge tp j) (A j) (A (j + 1)))
    (denominators : ∀ j < logN,
      tp.geminiR ^ 2 ^ j * (1 - uChallenge tp j) + uChallenge tp j ≠ 0)
    (evaluations : ∀ j < logN, geminiAEvaluation proof j = (A j).eval (-(tp.geminiR ^ 2 ^ j)))
    (batched : batchedEvaluation proof tp = (A logN).coeff 0) :
    (∀ folds, reconstructFolds proof tp logN = .ok folds →
      ∀ j < logN, folds.foldPos.getD j 0 = (A j).eval (tp.geminiR ^ 2 ^ j)) ∧
    ((∃ folds, reconstructFolds proof tp logN = .ok folds) ↔ OpensOutside tp logN) := by
  have constant := natDegree_folds_eq_zero two_ne_zero_fr degree isFold
  have last : (A logN).eval (tp.geminiR ^ 2 ^ logN) = (A logN).coeff 0 := by
    rw [eq_C_of_natDegree_eq_zero constant, eval_C, coeff_C_zero]
  constructor
  · intro folds found j less
    obtain ⟨inverted, inverts, found⟩ := bind_eq_ok.mp found
    obtain rfl := Except.ok.inj found
    have enough : logN ≤ (List.replicate constProofSizeLogN (0 : Fr)).length := by
      rwa [List.length_replicate]
    have rounds := foldingRounds_getD le_rfl enough isFold denominators evaluations
      (fun i less => inverted_getD le inverts less) j
    rw [last, ← batched, if_pos less] at rounds
    simpa only [weightEvaluations_evalAcc] using rounds
  · have inverts : (∃ inverted, invertDenominators tp logN = .ok inverted) ↔ _ :=
      invertDenominators_ok_iff le positive
    constructor
    · rintro ⟨folds, found⟩
      obtain ⟨inverted, done, -⟩ := bind_eq_ok.mp found
      exact (inverts.mp ⟨inverted, done⟩).1
    · intro outside
      obtain ⟨inverted, done⟩ := inverts.mpr ⟨outside, denominators⟩
      exact ⟨_, bind_eq_ok.mpr ⟨inverted, done, rfl⟩⟩

theorem smallTranscript_uChallenge {j : ℕ} (less : j < constProofSizeLogN) :
    uChallenge smallTranscript j = 3 := by
  have challenges : smallTranscript.sumcheckUChallenges.toList =
      List.replicate constProofSizeLogN 3 := Vector.toList_replicate
  rw [uChallenge, challenges, List.getD_eq_getElem?_getD, List.getElem?_replicate, if_pos less]
  rfl

theorem smallTranscript_distances (j : ℕ) (less : j < 3) : foldDenominator smallTranscript j ≠ 0 := by
  have point : smallTranscript.geminiR = 2 := rfl
  have value : foldDenominator smallTranscript j = -((2 ^ 2 ^ j * 2 - 3 : ℕ) : Fr) := by
    rw [foldDenominator, smallTranscript_uChallenge (less.trans (by decide)), point]
    interval_cases j <;> norm_num
  rw [value]
  refine neg_ne_zero.mpr (natCast_ne_zero_fr ?_ ?_)
  · interval_cases j <;> decide
  · interval_cases j <;> decide

theorem smallTranscript_outside : OpensOutside smallTranscript 3 where
  challenge := two_ne_zero_fr
  points j less := by
    have values : smallTranscript.shplonkZ = 3 ∧ smallTranscript.geminiR = 2 := ⟨rfl, rfl⟩
    have power : (2 : Fr) ^ 2 ^ j = (2 ^ 2 ^ j : ℕ) := by push_cast; rfl
    rw [values.1, values.2, power, ← Nat.cast_ofNat, sub_ne_zero, ← Nat.cast_add, Ne,
      ZMod.natCast_eq_natCast_iff]
    refine ⟨?_, natCast_ne_zero_fr ?_ ?_⟩
    all_goals interval_cases j <;> decide
  libra := by
    have values : smallTranscript.shplonkZ = (3 : ℕ) ∧ smallTranscript.geminiR = (2 : ℕ) :=
      ⟨rfl, rfl⟩
    rw [values.1, values.2, subgroupGenerator_eq, ← Nat.cast_mul, sub_ne_zero, Ne,
      ZMod.natCast_eq_natCast_iff]
    decide

noncomputable def smallFolds : ℕ → Fr[X]
  | 0 => (1 + X) * (1 + X ^ 2) * (1 + X ^ 4)
  | 1 => (1 + X) * (1 + X ^ 2)
  | 2 => 1 + X
  | _ + 3 => 1

theorem smallProof_batchedEvaluation : batchedEvaluation smallProof smallTranscript = 1 := by
  have ones : smallProof.sumcheckEvaluations.toList = List.replicate numberOfEntities 1 :=
    Vector.toList_replicate
  have power : smallTranscript.rho = 2 := rfl
  have term (i : ℕ) (mem : i ∈ Finset.range numberOfEntities) :
      smallProof.sumcheckEvaluations.toList.getD i 0 * smallTranscript.rho ^ (i + 1) =
        2 ^ (i + 1) := by
    rw [ones, power, List.getD_eq_getElem?_getD, List.getElem?_replicate,
      if_pos (Finset.mem_range.mp mem), Option.getD_some, one_mul]
  have sum : ∑ i ∈ Finset.range numberOfEntities, (2 : Fr) ^ (i + 1) = 2 ^ 41 - 2 := by
    rw [numberOfEntities]
    simp only [Finset.sum_range_succ, Finset.sum_range_zero]
    norm_num
  have start : smallProof.hidingPolynomialEvaluation = 3 - 2 ^ 41 := rfl
  rw [batchedEvaluation, Finset.sum_congr rfl term, sum, start]
  ring

theorem fold_positions_correct_sample :
    (∀ folds, reconstructFolds smallProof smallTranscript 3 = .ok folds →
      ∀ j < 3, folds.foldPos.getD j 0 =
        (smallFolds j).eval (smallTranscript.geminiR ^ 2 ^ j)) ∧
    ((∃ folds, reconstructFolds smallProof smallTranscript 3 = .ok folds) ↔
      OpensOutside smallTranscript 3) := by
  have point : smallTranscript.geminiR = 2 := rfl
  refine fold_positions_correct (by decide) (by decide) ?_ ?_ smallTranscript_distances ?_ ?_
  · have degree : (smallFolds 0).natDegree ≤ 7 := by
      rw [smallFolds]
      compute_degree
    exact degree.trans_lt (by decide)
  · intro j less
    rw [smallTranscript_uChallenge (less.trans (by decide))]
    interval_cases j <;> simp only [IsFold, smallFolds, mul_comp, add_comp, one_comp, X_comp,
      pow_comp, map_sub, map_ofNat, map_one] <;> ring
  · intro j less
    have sent : geminiAEvaluation smallProof 0 = -85 ∧ geminiAEvaluation smallProof 1 = -51 ∧
        geminiAEvaluation smallProof 2 = -15 := ⟨rfl, rfl, rfl⟩
    rw [point]
    interval_cases j
    · rw [sent.1, smallFolds]
      norm_num
    · rw [sent.2.1, smallFolds]
      norm_num
    · rw [sent.2.2, smallFolds]
      norm_num
  · rw [smallProof_batchedEvaluation, smallFolds, coeff_one_zero]

end Gemini

end Zicket.Verifier
