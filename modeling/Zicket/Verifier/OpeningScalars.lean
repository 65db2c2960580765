import Zicket.Verifier.OpeningClaims

/-! The scalars of the one multi-scalar multiplication, loop by loop: the weights of the columns, of
the folds and of the mask, each over the distances that were inverted together. -/

namespace Zicket.Verifier

open Host Foundation

variable {proof : Proof} {tp : Transcript} {logN : ℕ}

section Weights

variable (unshifted shifted : Fr)

theorem evalScalars_loop (evals : List Fr) (index : ℕ) (batch : Batching) :
    ((evals.zipIdx index).foldl (weightEvaluation tp unshifted shifted) batch).evalScalars =
      batch.evalScalars ++ (List.range evals.length).map fun i =>
        (if index + i < numberUnshifted then unshifted else shifted) *
          (batch.rhoPow * tp.rho ^ i) := by
  induction evals generalizing index batch with
  | nil => simp
  | cons eval evals ih =>
    rw [List.zipIdx_cons, List.foldl_cons, ih, weightEvaluation, List.length_cons,
      List.range_succ_eq_map, List.map_cons, List.map_map, List.append_assoc,
      List.singleton_append, pow_zero, mul_one, Nat.add_zero]
    refine congrArg (batch.evalScalars ++ _ :: ·) (List.map_congr_left fun i _ => ?_)
    rw [Function.comp_apply, Nat.succ_eq_add_one, pow_succ', mul_assoc,
      Nat.add_right_comm, Nat.add_assoc]

theorem weightEvaluations_evalScalars :
    (weightEvaluations proof tp unshifted shifted).evalScalars =
      (List.range numberOfEntities).map fun i =>
        (if i < numberUnshifted then unshifted else shifted) * tp.rho ^ (i + 1) := by
  rw [weightEvaluations, evalScalars_loop, Vector.length_toList, List.nil_append]
  refine List.map_congr_left fun i _ => ?_
  rw [Nat.zero_add, pow_succ']

end Weights

section Inverses

variable {inverted : List Fr} (le : logN ≤ constProofSizeLogN)
  (inverts : invertDenominators tp logN = .ok inverted)
include le inverts

omit le in
theorem inverted_getD_eq {i : ℕ} (less : i < batchSize logN) :
    inverted.getD i 0 = ((toInvert tp logN).getD i 0)⁻¹ := by
  rw [invertDenominators_eq] at inverts
  split at inverts
  · cases inverts
  · rw [← Except.ok.inj inverts, map_inv_take_getD less]

theorem inverted_pos0 : inverted.getD 0 0 = (tp.shplonkZ - tp.geminiR)⁻¹ := by
  rw [inverted_getD_eq inverts (by rw [batchSize]; omega), toInvert_getD le,
    if_neg (by rw [libraDenominatorIndex]; omega), if_neg (by rw [furtherBase]; omega),
    if_neg (by omega), if_neg (by omega), if_neg (by omega), if_pos rfl]

theorem inverted_neg0 : inverted.getD 1 0 = (tp.shplonkZ + tp.geminiR)⁻¹ := by
  rw [inverted_getD_eq inverts (by rw [batchSize, libraDenominatorIndex]; omega), toInvert_getD le,
    if_neg (by rw [libraDenominatorIndex]; omega), if_neg (by rw [furtherBase]; omega),
    if_neg (by omega), if_neg (by omega), if_pos rfl]

theorem inverted_geminiR : inverted.getD 2 0 = tp.geminiR⁻¹ := by
  rw [inverted_getD_eq inverts (by rw [batchSize, libraDenominatorIndex]; omega), toInvert_getD le,
    if_neg (by rw [libraDenominatorIndex]; omega), if_neg (by rw [furtherBase]; omega),
    if_neg (by omega), if_pos rfl]

theorem inverted_libra : inverted.getD (libraDenominatorIndex logN) 0 =
    (tp.shplonkZ - subgroupGenerator * tp.geminiR)⁻¹ := by
  rw [inverted_getD_eq inverts (by rw [batchSize]; omega), toInvert_getD le, if_pos rfl]

variable {k : ℕ} (less : k < logN - 1)
include less

theorem inverted_pos : inverted.getD (furtherBase logN + 2 * k) 0 =
    (tp.shplonkZ - tp.geminiR ^ 2 ^ (k + 1))⁻¹ := by
  have libra : libraDenominatorIndex logN = furtherBase logN + 2 * (logN - 1) := rfl
  have index : (furtherBase logN + 2 * k - furtherBase logN) / 2 = k := by omega
  rw [inverted_getD_eq inverts (by rw [batchSize]; omega), toInvert_getD le, if_neg (by omega),
    if_pos (by omega), if_pos (by omega), index]

theorem inverted_neg : inverted.getD (furtherBase logN + 2 * k + 1) 0 =
    (tp.shplonkZ + tp.geminiR ^ 2 ^ (k + 1))⁻¹ := by
  have libra : libraDenominatorIndex logN = furtherBase logN + 2 * (logN - 1) := rfl
  have index : (furtherBase logN + 2 * k + 1 - furtherBase logN) / 2 = k := by omega
  rw [inverted_getD_eq inverts (by rw [batchSize]; omega), toInvert_getD le, if_neg (by omega),
    if_pos (by omega), if_neg (by omega), index]

end Inverses

section Values

variable {inverted foldPos : List Fr}

/-- The rounds below a fold, from its value. -/
theorem foldingRounds_eq (proof : Proof) {j : ℕ} (le : j ≤ logN) (within : logN ≤ foldPos.length)
    (inverses : ∀ i < logN, inverted.getD (3 + (logN - (i + 1))) 0 = (foldDenominator tp i)⁻¹)
    (i : ℕ) :
    (foldingRounds proof tp logN inverted j (foldValue proof tp logN (logN - j)) foldPos).getD i 0 =
      if i < j then foldValue proof tp logN (logN - i) else foldPos.getD i 0 := by
  induction j generalizing foldPos with
  | zero => rw [foldingRounds, if_neg (by omega)]
  | succ j ih =>
    have below : logN - j = logN - (j + 1) + 1 := by omega
    have index : logN - (logN - (j + 1) + 1) = j := by omega
    have step : foldValue proof tp logN (logN - j) =
        (rPow tp.geminiR j * foldValue proof tp logN (logN - (j + 1)) * Fr.fromU64 2 -
          geminiAEvaluation proof j *
            (rPow tp.geminiR j * (1 - uChallenge tp j) - uChallenge tp j)) *
          inverted.getD (3 + (logN - (j + 1))) 0 := by
      rw [below, foldValue, index, inverses j (by omega), rPow_eq]
    rw [foldingRounds, ← step, ih (by omega) (by rwa [List.length_set]), getD_set]
    by_cases below : i < j
    · rw [if_pos below, if_pos (by omega)]
    · rw [if_neg below]
      by_cases here : j = i
      · subst here
        rw [if_pos ⟨rfl, by omega⟩, if_pos (by omega)]
      · rw [if_neg (fun found => here found.1), if_neg (by omega)]

end Values

/-- What the folds of a proof are when the inversion does not fail. -/
theorem reconstructFolds_eq (proof : Proof) (le : logN ≤ constProofSizeLogN) {inverted : List Fr}
    (inverts : invertDenominators tp logN = .ok inverted) :
    ∃ folds, reconstructFolds proof tp logN = .ok folds ∧ folds.inverted = inverted ∧
      (folds.batch.evalScalars = (List.range numberOfEntities).map fun i =>
        (if i < numberUnshifted then -(tp.shplonkNu * folds.neg0 + folds.pos0)
          else -(tp.geminiR⁻¹ * (folds.pos0 - tp.shplonkNu * folds.neg0))) * tp.rho ^ (i + 1)) ∧
      ∀ j < logN, folds.foldPos.getD j 0 = foldValue proof tp logN (logN - j) := by
  refine ⟨_, bind_eq_ok.mpr ⟨inverted, inverts, rfl⟩, rfl, ?_, fun j less => ?_⟩
  · rw [weightEvaluations_evalScalars, inverted_geminiR le inverts]
    rfl
  · have enough : logN ≤ (List.replicate constProofSizeLogN (0 : Fr)).length := by
      rwa [List.length_replicate]
    have rounds := foldingRounds_eq proof le_rfl enough
      (fun i less => inverted_getD le inverts less) j
    rw [Nat.sub_self, foldValue, if_pos less] at rounds
    simpa only [weightEvaluations_evalAcc] using rounds

section Further

variable {folds : Folds}

def positiveWeight (tp : Transcript) (j : ℕ) : Fr :=
  tp.shplonkNu ^ (2 * j) * (tp.shplonkZ - tp.geminiR ^ 2 ^ j)⁻¹

def negativeWeight (tp : Transcript) (j : ℕ) : Fr :=
  tp.shplonkNu ^ (2 * j + 1) * (tp.shplonkZ + tp.geminiR ^ 2 ^ j)⁻¹

theorem positiveWeight_zero (le : logN ≤ constProofSizeLogN)
    (inverts : invertDenominators tp logN = .ok folds.inverted) :
    positiveWeight tp 0 = folds.pos0 := by
  rw [Folds.pos0, inverted_pos0 le inverts, positiveWeight, Nat.mul_zero, pow_zero, pow_zero,
    one_mul, pow_one]

theorem negativeWeight_zero (le : logN ≤ constProofSizeLogN)
    (inverts : invertDenominators tp logN = .ok folds.inverted) :
    negativeWeight tp 0 = tp.shplonkNu * folds.neg0 := by
  rw [Folds.neg0, inverted_neg0 le inverts, negativeWeight, Nat.mul_zero, Nat.zero_add, pow_zero,
    pow_one, pow_one]

variable (le : logN ≤ constProofSizeLogN)
  (inverts : invertDenominators tp logN = .ok folds.inverted)
  (values : ∀ j < logN, folds.foldPos.getD j 0 = foldValue proof tp logN (logN - j))
include le inverts values

theorem furtherFold_loop {count : ℕ} (within : count ≤ logN - 1) (start : Folding)
    (power : start.vPow = nuSq tp) (enough : logN - 1 ≤ start.scalars.length) :
    let folding := (List.range count).foldl (furtherFold proof tp logN folds) start
    folding.vPow = tp.shplonkNu ^ (2 * (count + 1)) ∧
      folding.constAcc = start.constAcc + ∑ k ∈ Finset.range count,
        (positiveWeight tp (k + 1) * foldValue proof tp logN (logN - (k + 1)) +
          negativeWeight tp (k + 1) * geminiAEvaluation proof (k + 1)) ∧
      folding.scalars.length = start.scalars.length ∧
      ∀ k, folding.scalars.getD k 0 =
        if k < count then -(positiveWeight tp (k + 1) + negativeWeight tp (k + 1))
        else start.scalars.getD k 0 := by
  induction count with
  | zero => simp [power, nuSq, pow_two]
  | succ count ih =>
    obtain ⟨vPow, constAcc, length, scalars⟩ := ih (by omega)
    have less : count < logN - 1 := by omega
    have positive : tp.shplonkNu ^ (2 * (count + 1)) *
        folds.inverted.getD (furtherBase logN + 2 * count) 0 = positiveWeight tp (count + 1) := by
      rw [inverted_pos le inverts less, positiveWeight]
    have negative : tp.shplonkNu ^ (2 * (count + 1)) * tp.shplonkNu *
        folds.inverted.getD (furtherBase logN + 2 * count + 1) 0 =
          negativeWeight tp (count + 1) := by
      rw [inverted_neg le inverts less, negativeWeight, ← pow_succ]
    simp only [List.range_succ, List.foldl_append, List.foldl_cons, List.foldl_nil, furtherFold,
      vPow, positive, negative, nuSq]
    refine ⟨?_, ?_, ?_, fun k => ?_⟩
    · ring
    · rw [constAcc, Finset.sum_range_succ, values (count + 1) (by omega)]
      ring
    · rw [List.length_set, length]
    · rw [getD_set, scalars, length]
      by_cases here : count = k
      · subst here
        rw [if_pos ⟨rfl, by omega⟩, if_pos (by omega)]
      · rw [if_neg (fun found => here found.1)]
        by_cases before : k < count
        · rw [if_pos before, if_pos (by omega)]
        · rw [if_neg before, if_neg (by omega)]

theorem furtherFolding_eq (positive : 0 < logN) :
    (furtherFolding proof tp logN folds).constAcc = ∑ j ∈ Finset.range logN,
      (positiveWeight tp j * foldValue proof tp logN (logN - j) +
        negativeWeight tp j * geminiAEvaluation proof j) ∧
    (furtherFolding proof tp logN folds).scalars.length = constProofSizeLogN - 1 ∧
    ∀ k, (furtherFolding proof tp logN folds).scalars.getD k 0 =
      if k < logN - 1 then -(positiveWeight tp (k + 1) + negativeWeight tp (k + 1)) else 0 := by
  have loop := furtherFold_loop le inverts values le_rfl
    { constAcc := folds.foldPos.getD 0 0 * folds.pos0 +
        geminiAEvaluation proof 0 * tp.shplonkNu * folds.neg0
      vPow := nuSq tp
      scalars := List.replicate (constProofSizeLogN - 1) 0 }
    rfl (by rw [List.length_replicate]; omega)
  obtain ⟨-, constAcc, length, scalars⟩ := loop
  refine ⟨?_, ?_, fun k => ?_⟩
  · refine constAcc.trans ?_
    obtain ⟨n, rfl⟩ : ∃ n, logN = n + 1 := ⟨logN - 1, by omega⟩
    rw [Finset.sum_range_succ', positiveWeight_zero le inverts, negativeWeight_zero le inverts,
      values 0 positive, Nat.add_sub_cancel]
    ring
  · exact length.trans List.length_replicate
  · refine (scalars k).trans ?_
    rw [getD_replicate_zero]

end Further

section Mask

variable {folds : Folds}

def libraWeight (tp : Transcript) (index : ℕ) : Fr :=
  tp.shplonkNu ^ (libraPower + index) *
    (tp.shplonkZ - if index = 1 then subgroupGenerator * tp.geminiR else tp.geminiR)⁻¹

theorem libraTerms_eq (le : logN ≤ constProofSizeLogN)
    (inverts : invertDenominators tp logN = .ok folds.inverted) (constAcc : Fr) :
    libraTerms proof tp logN folds constAcc =
      (constAcc + ∑ index ∈ Finset.range 4, libraWeight tp index * libraEvaluation proof index,
        (List.range 4).map fun index => -libraWeight tp index) := by
  have evaluations : proof.libraPolynomialEvaluations.toList =
      (List.range 4).map (libraEvaluation proof) := by
    refine List.ext_getElem (by simp) fun i left right => ?_
    simp [libraEvaluation, List.getD_eq_getElem?_getD] at left ⊢
    rw [Vector.getElem?_eq_getElem (by simpa using left), Option.getD_some]
  have power : libraPower = 2 * constProofSizeLogN + 2 := rfl
  rw [libraTerms, evaluations, Folds.pos0, inverted_pos0 le inverts, inverted_libra le inverts]
  simp [List.range_succ, Finset.sum_range_succ, libraWeight, power]
  ring_nf
  trivial

end Mask

end Zicket.Verifier
