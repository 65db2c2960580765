import Zicket.Foundation.Folding
import Zicket.Verifier.Shplemini

/-! What stands where in the array of denominators, and what the folding rounds make of the
evaluations they start from. -/

namespace Zicket.Verifier

open Host Foundation

variable {tp : Transcript} {proof : Proof} {logN : ℕ} {array : List Fr}

theorem rPow_eq (geminiR : Fr) (j : ℕ) : rPow geminiR j = geminiR ^ 2 ^ j := by
  induction j with
  | zero => rw [rPow, pow_zero, pow_one]
  | succ j ih => rw [rPow, ih, ← pow_add, pow_succ 2 j, Nat.mul_two]

def foldDenominator (tp : Transcript) (j : ℕ) : Fr :=
  tp.geminiR ^ 2 ^ j * (1 - uChallenge tp j) + uChallenge tp j

section Array

@[simp] theorem fillFolds_length (j : ℕ) : (fillFolds tp logN j array).length = array.length := by
  induction j generalizing array with
  | zero => rfl
  | succ j ih => rw [fillFolds, ih, List.length_set]

@[simp] theorem fillPairs_length (j : ℕ) : (fillPairs tp logN j array).length = array.length := by
  induction j with
  | zero => rfl
  | succ j ih => rw [fillPairs, List.length_set, List.length_set, ih]

@[simp] theorem toInvert_length : (toInvert tp logN).length = maxBatch := by
  simp [toInvert]

theorem fillFolds_getD {j : ℕ} (le : j ≤ logN) (within : 3 + logN ≤ array.length) (i : ℕ) :
    (fillFolds tp logN j array).getD i 0 =
      if 3 + (logN - j) ≤ i ∧ i < 3 + logN then foldDenominator tp (logN - 1 - (i - 3))
      else array.getD i 0 := by
  induction j generalizing array with
  | zero => rw [fillFolds, if_neg (by omega)]
  | succ j ih =>
    rw [fillFolds, ih (by omega) (by rwa [List.length_set]), getD_set]
    by_cases here : 3 + (logN - (j + 1)) = i
    · subst here
      have index : logN - 1 - (3 + (logN - (j + 1)) - 3) = j := by omega
      rw [if_neg (by omega), if_pos ⟨rfl, by omega⟩, if_pos (by omega), index, foldDenominator,
        rPow_eq]
    · by_cases later : 3 + (logN - j) ≤ i ∧ i < 3 + logN
      · rw [if_pos later, if_pos (by omega)]
      · rw [if_neg later, if_neg (fun found => here found.1), if_neg (by omega)]

theorem fillPairs_getD {j : ℕ} (within : furtherBase logN + 2 * j ≤ array.length) (i : ℕ) :
    (fillPairs tp logN j array).getD i 0 =
      if furtherBase logN ≤ i ∧ i < furtherBase logN + 2 * j then
        if (i - furtherBase logN) % 2 = 0
        then tp.shplonkZ - tp.geminiR ^ 2 ^ ((i - furtherBase logN) / 2 + 1)
        else tp.shplonkZ + tp.geminiR ^ 2 ^ ((i - furtherBase logN) / 2 + 1)
      else array.getD i 0 := by
  induction j with
  | zero => rw [fillPairs, if_neg (by omega)]
  | succ j ih =>
    rw [fillPairs, getD_set, getD_set, ih (by omega), List.length_set, fillPairs_length, rPow_eq]
    by_cases second : furtherBase logN + 2 * j + 1 = i
    · have index : (i - furtherBase logN) / 2 = j := by omega
      rw [if_pos ⟨second, by omega⟩, if_pos (by omega), if_neg (by omega), index]
    · rw [if_neg (fun found => second found.1)]
      by_cases first : furtherBase logN + 2 * j = i
      · have index : (i - furtherBase logN) / 2 = j := by omega
        rw [if_pos ⟨first, by omega⟩, if_pos (by omega), if_pos (by omega), index]
      · rw [if_neg (fun found => first found.1)]
        have same : (furtherBase logN ≤ i ∧ i < furtherBase logN + 2 * j) =
            (furtherBase logN ≤ i ∧ i < furtherBase logN + 2 * (j + 1)) :=
          propext ⟨fun found => ⟨found.1, by omega⟩, fun found => ⟨found.1, by omega⟩⟩
        simp only [same]

structure OpensOutside (tp : Transcript) (logN : ℕ) : Prop where
  challenge : tp.geminiR ≠ 0
  points : ∀ j < logN, tp.shplonkZ - tp.geminiR ^ 2 ^ j ≠ 0 ∧ tp.shplonkZ + tp.geminiR ^ 2 ^ j ≠ 0
  libra : tp.shplonkZ - subgroupGenerator * tp.geminiR ≠ 0

theorem zero_notMem_take {count : ℕ} (enough : count ≤ array.length) :
    0 ∉ array.take count ↔ ∀ i < count, array.getD i 0 ≠ 0 := by
  rw [List.mem_take_iff_getElem]
  constructor
  · intro none i less zero
    rw [List.getD_eq_getElem?_getD, List.getElem?_eq_getElem (by omega)] at zero
    exact none ⟨i, by omega, zero⟩
  · rintro nonzero ⟨i, less, zero⟩
    refine nonzero i (by omega) ?_
    rw [List.getD_eq_getElem?_getD, List.getElem?_eq_getElem (by omega)]
    exact zero

theorem map_inv_take_getD {count i : ℕ} (less : i < count) :
    ((array.take count).map (·⁻¹)).getD i 0 = (array.getD i 0)⁻¹ := by
  rw [List.getD_eq_getElem?_getD, List.getElem?_map, List.getElem?_take_of_lt less,
    List.getD_eq_getElem?_getD]
  cases array[i]? with
  | none => simp
  | some x => rfl

theorem invertDenominators_eq : invertDenominators tp logN =
    if 0 ∈ (toInvert tp logN).take (batchSize logN) then
      .error (.error
        "shplemini: batch inversion failed (zero denominator in shplonk/gemini/fold/libra)")
    else .ok (((toInvert tp logN).take (batchSize logN)).map (·⁻¹)) := by
  rw [invertDenominators, batchInverse_eq (by simp)]
  by_cases zero : 0 ∈ (toInvert tp logN).take (batchSize logN)
  · rw [if_pos zero, if_pos zero]
    rfl
  · have inverses : ¬ ∃ x ∈ ((toInvert tp logN).take (batchSize logN)).map (·⁻¹),
        x.isZero = true := by
      rintro ⟨x, mem, isZero⟩
      obtain ⟨y, found, rfl⟩ := List.mem_map.mp mem
      rw [isZero_eq_true, inv_eq_zero] at isZero
      exact zero (isZero ▸ found)
    rw [if_neg zero, if_neg zero, withText_ok]
    exact bind_eq_ok.mpr ⟨_, rfl, bind_eq_ok.mpr ⟨(), ensure_eq_ok.mpr inverses, rfl⟩⟩

variable (le : logN ≤ constProofSizeLogN)
include le

theorem toInvert_getD (i : ℕ) : (toInvert tp logN).getD i 0 =
    if i = libraDenominatorIndex logN then tp.shplonkZ - subgroupGenerator * tp.geminiR
    else if furtherBase logN ≤ i ∧ i < furtherBase logN + 2 * (logN - 1) then
      if (i - furtherBase logN) % 2 = 0
      then tp.shplonkZ - tp.geminiR ^ 2 ^ ((i - furtherBase logN) / 2 + 1)
      else tp.shplonkZ + tp.geminiR ^ 2 ^ ((i - furtherBase logN) / 2 + 1)
    else if 3 ≤ i ∧ i < 3 + logN then foldDenominator tp (logN - 1 - (i - 3))
    else if i = 2 then tp.geminiR
    else if i = 1 then tp.shplonkZ + tp.geminiR
    else if i = 0 then tp.shplonkZ - tp.geminiR
    else 0 := by
  have small : logN ≤ 28 := le
  have size : maxBatch = 86 := rfl
  have last : libraDenominatorIndex logN < 86 := by
    rw [libraDenominatorIndex]
    omega
  rw [toInvert, getD_set_of_lt (by simpa [size] using last),
    fillPairs_getD (by simp [size, furtherBase]; omega), fillFolds_getD le_rfl (by simp [size]; omega),
    Nat.sub_self, getD_set_of_lt (by simp [size]), getD_set_of_lt (by simp [size]),
    getD_set_of_lt (by simp [size]), getD_replicate_zero]
  rfl

theorem toInvert_getD_fold {j : ℕ} (less : j < logN) :
    (toInvert tp logN).getD (3 + (logN - (j + 1))) 0 = foldDenominator tp j := by
  have libra : libraDenominatorIndex logN = 3 + logN + 2 * (logN - 1) := rfl
  have base : furtherBase logN = 3 + logN := rfl
  have index : logN - 1 - (3 + (logN - (j + 1)) - 3) = j := by omega
  rw [toInvert_getD le, if_neg (by omega), if_neg (by omega), if_pos (by omega), index]

variable (positive : 0 < logN)
include positive

theorem batchSize_le : batchSize logN ≤ maxBatch := by
  have small : logN ≤ 28 := le
  have size : maxBatch = 86 := rfl
  rw [batchSize, libraDenominatorIndex, size]
  omega

theorem toInvert_ne_zero_iff : (∀ i < batchSize logN, (toInvert tp logN).getD i 0 ≠ 0) ↔
    OpensOutside tp logN ∧ ∀ j < logN, foldDenominator tp j ≠ 0 := by
  have libra : libraDenominatorIndex logN = 3 + logN + 2 * (logN - 1) := rfl
  have base : furtherBase logN = 3 + logN := rfl
  have size : batchSize logN = libraDenominatorIndex logN + 1 := rfl
  constructor
  · intro nonzero
    refine ⟨⟨?_, fun j less => ?_, ?_⟩, fun j less => ?_⟩
    · have entry := nonzero 2 (by omega)
      rwa [toInvert_getD le, if_neg (by omega), if_neg (by omega), if_neg (by omega),
        if_pos rfl] at entry
    · cases j with
      | zero =>
        have first := nonzero 0 (by omega)
        have second := nonzero 1 (by omega)
        rw [toInvert_getD le, if_neg (by omega), if_neg (by omega), if_neg (by omega),
          if_neg (by omega), if_neg (by omega), if_pos rfl] at first
        rw [toInvert_getD le, if_neg (by omega), if_neg (by omega), if_neg (by omega),
          if_neg (by omega), if_pos rfl] at second
        rw [pow_zero, pow_one]
        exact ⟨first, second⟩
      | succ k =>
        have first := nonzero (furtherBase logN + 2 * k) (by omega)
        have second := nonzero (furtherBase logN + 2 * k + 1) (by omega)
        have even : (furtherBase logN + 2 * k - furtherBase logN) / 2 = k := by omega
        have odd : (furtherBase logN + 2 * k + 1 - furtherBase logN) / 2 = k := by omega
        rw [toInvert_getD le, if_neg (by omega), if_pos (by omega), if_pos (by omega),
          even] at first
        rw [toInvert_getD le, if_neg (by omega), if_pos (by omega), if_neg (by omega),
          odd] at second
        exact ⟨first, second⟩
    · have entry := nonzero (libraDenominatorIndex logN) (by omega)
      rwa [toInvert_getD le, if_pos rfl] at entry
    · have entry := nonzero (3 + (logN - (j + 1))) (by omega)
      rwa [toInvert_getD_fold le less] at entry
  · rintro ⟨outside, folds⟩ i less
    have start := outside.points 0 positive
    rw [pow_zero, pow_one] at start
    rw [toInvert_getD le]
    split_ifs with last further even fold third second first
    · exact outside.libra
    · exact (outside.points _ (by omega)).1
    · exact (outside.points _ (by omega)).2
    · exact folds _ (by omega)
    · exact outside.challenge
    · exact start.2
    · exact start.1
    · omega

theorem invertDenominators_ok_iff : (∃ inverted, invertDenominators tp logN = .ok inverted) ↔
    OpensOutside tp logN ∧ ∀ j < logN, foldDenominator tp j ≠ 0 := by
  rw [← toInvert_ne_zero_iff le positive, ← zero_notMem_take (by
    rw [toInvert_length]
    exact batchSize_le le positive), invertDenominators_eq]
  by_cases zero : 0 ∈ (toInvert tp logN).take (batchSize logN)
  · simp [zero]
  · simp [zero]

omit positive in
/-- The inverses of the fold denominators stand in the opposite order. -/
theorem inverted_getD {inverted : List Fr} (inverts : invertDenominators tp logN = .ok inverted)
    {j : ℕ} (less : j < logN) :
    inverted.getD (3 + (logN - (j + 1))) 0 = (foldDenominator tp j)⁻¹ := by
  rw [invertDenominators_eq] at inverts
  split at inverts
  · cases inverts
  · have inside : 3 + (logN - (j + 1)) < batchSize logN := by
      rw [batchSize, libraDenominatorIndex]
      omega
    rw [← Except.ok.inj inverts, map_inv_take_getD inside, toInvert_getD_fold le less]

end Array

section Evaluations

/-- The evaluation that the folds start from: `∑ ρⁱ·evalᵢ` behind the hiding polynomial. -/
def batchedEvaluation (proof : Proof) (tp : Transcript) : Fr :=
  proof.hidingPolynomialEvaluation +
    ∑ i ∈ Finset.range numberOfEntities, proof.sumcheckEvaluations.toList.getD i 0 * tp.rho ^ (i + 1)

theorem evalAcc_loop (negUnshifted negShifted : Fr) (evals : List Fr) (index : ℕ)
    (batch : Batching) :
    ((evals.zipIdx index).foldl (weightEvaluation tp negUnshifted negShifted) batch).evalAcc =
      batch.evalAcc + ∑ i ∈ Finset.range evals.length,
        evals.getD i 0 * (batch.rhoPow * tp.rho ^ i) := by
  induction evals generalizing index batch with
  | nil => simp
  | cons eval evals ih =>
    rw [List.zipIdx_cons, List.foldl_cons, ih, weightEvaluation, List.length_cons,
      Finset.sum_range_succ']
    simp only [List.getD_cons_succ, List.getD_cons_zero]
    have later : ∑ i ∈ Finset.range evals.length,
        evals.getD i 0 * (batch.rhoPow * tp.rho * tp.rho ^ i) =
          ∑ i ∈ Finset.range evals.length, evals.getD i 0 * (batch.rhoPow * tp.rho ^ (i + 1)) :=
      Finset.sum_congr rfl fun i _ => by rw [pow_succ', mul_assoc]
    rw [later, pow_zero, mul_one, add_assoc, add_comm (eval * batch.rhoPow)]

theorem weightEvaluations_evalAcc (negUnshifted negShifted : Fr) :
    (weightEvaluations proof tp negUnshifted negShifted).evalAcc = batchedEvaluation proof tp := by
  rw [weightEvaluations, evalAcc_loop, batchedEvaluation, Vector.length_toList]
  refine congrArg (proof.hidingPolynomialEvaluation + ·) (Finset.sum_congr rfl fun i _ => ?_)
  rw [pow_succ']

end Evaluations

section Rounds

variable {inverted foldPos : List Fr}

/-- From a correct evaluation of a fold, the rounds below it find the evaluations of all folds
before. -/
theorem foldingRounds_getD {A : ℕ → Polynomial Fr} {j : ℕ} (le : j ≤ logN)
    (within : logN ≤ foldPos.length)
    (folds : ∀ i < logN, IsFold (uChallenge tp i) (A i) (A (i + 1)))
    (nonzero : ∀ i < logN, foldDenominator tp i ≠ 0)
    (evaluations : ∀ i < logN, geminiAEvaluation proof i = (A i).eval (-(tp.geminiR ^ 2 ^ i)))
    (inverses : ∀ i < logN, inverted.getD (3 + (logN - (i + 1))) 0 = (foldDenominator tp i)⁻¹)
    (i : ℕ) : (foldingRounds proof tp logN inverted j ((A j).eval (tp.geminiR ^ 2 ^ j))
      foldPos).getD i 0 =
        if i < j then (A i).eval (tp.geminiR ^ 2 ^ i) else foldPos.getD i 0 := by
  induction j generalizing foldPos with
  | zero => rw [foldingRounds, if_neg (by omega)]
  | succ j ih =>
    have square : tp.geminiR ^ 2 ^ (j + 1) = (tp.geminiR ^ 2 ^ j) ^ 2 := by
      rw [← pow_mul, pow_succ]
    have step := (folds j (by omega)).eval_eq (nonzero j (by omega))
    have two : Fr.fromU64 2 = 2 := rfl
    rw [foldingRounds, two, rPow_eq, inverses j (by omega), evaluations j (by omega), square]
    simp only [foldDenominator, step]
    rw [ih (by omega) (by rwa [List.length_set]), getD_set]
    by_cases below : i < j
    · rw [if_pos below, if_pos (by omega)]
    · rw [if_neg below]
      by_cases here : j = i
      · subst here
        rw [if_pos ⟨rfl, by omega⟩, if_pos (by omega)]
      · rw [if_neg (fun found => here found.1), if_neg (by omega)]

end Rounds

end Zicket.Verifier
