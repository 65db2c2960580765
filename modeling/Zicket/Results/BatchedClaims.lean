import Mathlib.Tactic.Module
import Zicket.Results.Openings
import Zicket.Verifier.Decoding
import Zicket.Verifier.OpeningScalars

/-! What the opening of a proof accepts: one equation between the quotient, the claims it stands for
and the witness at the common point, and the openings of polynomials among them. -/

namespace Zicket.Verifier

open Host Foundation Polynomial

variable {G : Type} [AddCommGroup G] [Module Fr G] {parts : OpenedParts G} {curve : Bn254}
  {OnCurve : G1Point → Prop} {denote : G1Point → G} {τ : Fr} {proof : Proof} {tp : Transcript}
  {vk : VerificationKey} {logN : ℕ}

section Sum

theorem openingClaim_positive {j : ℕ} (less : j ≤ constProofSizeLogN) :
    openingClaim proof tp logN parts (2 * j) = positiveClaim proof tp logN parts j := by
  have power : libraPower = 58 := rfl
  have most : constProofSizeLogN = 28 := rfl
  rw [openingClaim, if_neg (by omega), if_pos (by omega), Nat.mul_div_cancel_left j two_pos]

theorem openingClaim_negative {j : ℕ} (less : j < constProofSizeLogN) :
    openingClaim proof tp logN parts (2 * j + 1) = negativeClaim proof tp parts j := by
  have power : libraPower = 58 := rfl
  have most : constProofSizeLogN = 28 := rfl
  have half : (2 * j + 1) / 2 = j := by omega
  rw [openingClaim, if_neg (by omega), if_neg (by omega), half]

theorem openingClaim_libra (index : ℕ) :
    openingClaim proof tp logN parts (libraPower + index) = libraClaim proof tp parts index := by
  rw [openingClaim, if_pos (Nat.le_add_right _ _), Nat.add_sub_cancel_left]

variable (g : G)

theorem smul_excess_positive (j : ℕ) : tp.shplonkNu ^ (2 * j) •
    (positiveClaim proof tp logN parts j).excess g tp.shplonkZ =
      positiveWeight tp j • (positiveClaim proof tp logN parts j).commitment -
        (positiveWeight tp j * foldValue proof tp logN (logN - j)) • g := by
  rw [OpeningClaim.excess, positiveWeight, mul_smul _ _ g, ← smul_sub, mul_smul]
  rfl

theorem smul_excess_negative (j : ℕ) : tp.shplonkNu ^ (2 * j + 1) •
    (negativeClaim proof tp parts j).excess g tp.shplonkZ =
      negativeWeight tp j • (negativeClaim proof tp parts j).commitment -
        (negativeWeight tp j * geminiAEvaluation proof j) • g := by
  rw [OpeningClaim.excess, negativeWeight, mul_smul _ _ g, ← smul_sub, mul_smul, negativeClaim,
    sub_neg_eq_add]

theorem smul_excess_libra (index : ℕ) : tp.shplonkNu ^ (libraPower + index) •
    (libraClaim proof tp parts index).excess g tp.shplonkZ =
      libraWeight tp index • (libraClaim proof tp parts index).commitment -
        (libraWeight tp index * libraEvaluation proof index) • g := by
  rw [OpeningClaim.excess, libraWeight, mul_smul _ _ g, ← smul_sub, mul_smul]
  rfl

theorem batchedExcess_openingClaim (le : logN ≤ constProofSizeLogN) :
    batchedExcess g tp.shplonkNu tp.shplonkZ (claimPowers logN)
        (openingClaim proof tp logN parts) =
      (∑ j ∈ Finset.range logN,
        (positiveWeight tp j • (positiveClaim proof tp logN parts j).commitment +
          negativeWeight tp j • (negativeClaim proof tp parts j).commitment)) +
      (∑ index ∈ Finset.range 4,
        libraWeight tp index • (libraClaim proof tp parts index).commitment) -
      ((∑ j ∈ Finset.range logN, (positiveWeight tp j * foldValue proof tp logN (logN - j) +
          negativeWeight tp j * geminiAEvaluation proof j)) +
        ∑ index ∈ Finset.range 4, libraWeight tp index * libraEvaluation proof index) • g := by
  have apart : Disjoint (Finset.range (2 * logN)) (Finset.Ico libraPower (libraPower + 4)) := by
    have power : libraPower = 58 := rfl
    have most : constProofSizeLogN = 28 := rfl
    refine Finset.disjoint_left.mpr fun e below inside => ?_
    have := Finset.mem_range.mp below
    have := (Finset.mem_Ico.mp inside).1
    omega
  rw [batchedExcess, claimPowers, Finset.sum_union apart, sum_range_mul,
    Finset.sum_Ico_eq_sum_range, Nat.add_sub_cancel_left, add_smul, Finset.sum_smul,
    Finset.sum_smul, add_sub_add_comm, ← Finset.sum_sub_distrib, ← Finset.sum_sub_distrib]
  refine congrArg₂ _ (Finset.sum_congr rfl fun j mem => ?_)
    (Finset.sum_congr rfl fun index _ => ?_)
  · have less := Finset.mem_range.mp mem
    rw [Finset.sum_range_succ, Finset.sum_range_one, Nat.add_zero,
      openingClaim_positive (by omega), openingClaim_negative (by omega), smul_excess_positive,
      smul_excess_negative, add_smul]
    abel
  · rw [openingClaim_libra, smul_excess_libra]

end Sum

section Combination

theorem entityCommitments_length (counted : vk.commitments.length = 27) :
    (entityCommitments proof vk).length = numberOfEntities := by
  simp [entityCommitments, counted, numberOfEntities]

theorem commitments_eq : commitments proof vk =
    ([proof.shplonkQ, proof.hidingPolynomialCommitment] ++ entityCommitments proof vk) ++
      proof.geminiFoldComms.toList ++
      [proof.libraConcatenationCommitment, proof.libraGrandSumCommitment,
        proof.libraQuotientCommitment, G1Point.generator, proof.kzgQuotient] := by
  simp only [commitments, entityCommitments, List.append_assoc]

theorem linearCombination_entities (denote : G1Point → G) (proof : Proof)
    (counted : vk.commitments.length = 27) (folds : Folds)
    (evalScalars : folds.batch.evalScalars = (List.range numberOfEntities).map fun i =>
      (if i < numberUnshifted then -(tp.shplonkNu * folds.neg0 + folds.pos0)
        else -(tp.geminiR⁻¹ * (folds.pos0 - tp.shplonkNu * folds.neg0))) * tp.rho ^ (i + 1)) :
    -(tp.shplonkNu * folds.neg0 + folds.pos0) • denote proof.hidingPolynomialCommitment +
      linearCombination denote (entityCommitments proof vk) folds.batch.evalScalars =
    -(folds.pos0 • (unshiftedPart tp ((openedPoints proof vk).map denote) +
        tp.geminiR⁻¹ • shiftedPart tp ((openedPoints proof vk).map denote)) +
      (tp.shplonkNu * folds.neg0) • (unshiftedPart tp ((openedPoints proof vk).map denote) -
        tp.geminiR⁻¹ • shiftedPart tp ((openedPoints proof vk).map denote))) := by
  have length : folds.batch.evalScalars.length = numberOfEntities := by
    rw [evalScalars, List.length_map, List.length_range]
  have scalar (i : ℕ) (less : i < numberOfEntities) : folds.batch.evalScalars.getD i 0 =
      (if i < numberUnshifted then -(tp.shplonkNu * folds.neg0 + folds.pos0)
        else -(tp.geminiR⁻¹ * (folds.pos0 - tp.shplonkNu * folds.neg0))) * tp.rho ^ (i + 1) := by
    rw [evalScalars, List.getD_eq_getElem?_getD, List.getElem?_map, List.getElem?_range less]
    rfl
  have unshifted : ∑ i ∈ Finset.range numberUnshifted, folds.batch.evalScalars.getD i 0 •
      denote ((entityCommitments proof vk).getD i G1Point.infinity) =
        -(tp.shplonkNu * folds.neg0 + folds.pos0) •
          ∑ i ∈ Finset.range numberUnshifted,
            tp.rho ^ (i + 1) • ((openedPoints proof vk).map denote).entity i := by
    rw [Finset.smul_sum]
    refine Finset.sum_congr rfl fun i mem => ?_
    have less := Finset.mem_range.mp mem
    rw [scalar i (less.trans (by decide)), if_pos less, mul_smul]
    rfl
  have shifted : ∑ i ∈ Finset.Ico numberUnshifted numberOfEntities,
      folds.batch.evalScalars.getD i 0 •
        denote ((entityCommitments proof vk).getD i G1Point.infinity) =
      -(tp.geminiR⁻¹ * (folds.pos0 - tp.shplonkNu * folds.neg0)) •
        shiftedPart tp ((openedPoints proof vk).map denote) := by
    rw [shiftedPart, Finset.smul_sum]
    refine Finset.sum_congr rfl fun i mem => ?_
    obtain ⟨above, less⟩ := Finset.mem_Ico.mp mem
    rw [scalar i less, if_neg (by omega), mul_smul]
    rfl
  rw [linearCombination_eq_sum (entityCommitments_length counted) length,
    ← Finset.sum_range_add_sum_Ico _ (by decide : numberUnshifted ≤ numberOfEntities), unshifted,
    shifted, unshiftedPart]
  have sent : ((openedPoints proof vk).map denote).hidingPolynomial =
      denote proof.hidingPolynomialCommitment := rfl
  rw [sent]
  module

theorem linearCombination_folds (denote : G1Point → G) (proof : Proof)
    (vk : VerificationKey) {scalars : List Fr} {count : ℕ}
    (length : scalars.length = constProofSizeLogN - 1) (within : count ≤ constProofSizeLogN - 1)
    (closed : ∀ k, scalars.getD k 0 =
      if k < count then -(positiveWeight tp (k + 1) + negativeWeight tp (k + 1)) else 0) :
    linearCombination denote proof.geminiFoldComms.toList scalars =
      -∑ k ∈ Finset.range count, (positiveWeight tp (k + 1) + negativeWeight tp (k + 1)) •
        ((openedPoints proof vk).map denote).fold (k + 1) := by
  rw [linearCombination_eq_sum (Vector.length_toList) length,
    ← Finset.sum_range_add_sum_Ico _ within, ← Finset.sum_neg_distrib]
  have unused : ∑ k ∈ Finset.Ico count (constProofSizeLogN - 1), scalars.getD k 0 •
      denote (proof.geminiFoldComms.toList.getD k G1Point.infinity) = 0 := by
    refine Finset.sum_eq_zero fun k mem => ?_
    rw [closed, if_neg (by have := (Finset.mem_Ico.mp mem).1; omega), zero_smul]
  rw [unused, add_zero]
  refine Finset.sum_congr rfl fun k mem => ?_
  rw [closed, if_pos (Finset.mem_range.mp mem), neg_smul]
  rfl

def openingScalars (tp : Transcript) (folds : Folds) (further : Folding) (libra : Fr × List Fr) :
    List Fr :=
  [1, -(tp.shplonkNu * folds.neg0 + folds.pos0)] ++ folds.batch.evalScalars ++ further.scalars ++
    [libra.2.getD 0 0, libra.2.getD 1 0 + libra.2.getD 2 0, libra.2.getD 3 0, libra.1,
      tp.shplonkZ]

theorem linearCombination_commitments (denote : G1Point → G) (positive : 0 < logN)
    (le : logN ≤ constProofSizeLogN)
    (counted : vk.commitments.length = 27) {folds : Folds}
    (inverts : invertDenominators tp logN = .ok folds.inverted)
    (evalScalars : folds.batch.evalScalars = (List.range numberOfEntities).map fun i =>
      (if i < numberUnshifted then -(tp.shplonkNu * folds.neg0 + folds.pos0)
        else -(tp.geminiR⁻¹ * (folds.pos0 - tp.shplonkNu * folds.neg0))) * tp.rho ^ (i + 1))
    (values : ∀ j < logN, folds.foldPos.getD j 0 = foldValue proof tp logN (logN - j)) :
    let further := furtherFolding proof tp logN folds
    let scalars := openingScalars tp folds further
      (libraTerms proof tp logN folds further.constAcc)
    (commitments proof vk).length = scalars.length ∧
      linearCombination denote (commitments proof vk) scalars =
        denote proof.shplonkQ - batchedExcess (denote G1Point.generator) tp.shplonkNu tp.shplonkZ
          (claimPowers logN) (openingClaim proof tp logN ((openedPoints proof vk).map denote)) +
        tp.shplonkZ • denote proof.kzgQuotient := by
  intro further scalars
  obtain ⟨constAcc, length, closed⟩ := furtherFolding_eq le inverts values positive
  have entities : (entityCommitments proof vk).length = folds.batch.evalScalars.length := by
    rw [entityCommitments_length counted, evalScalars, List.length_map, List.length_range]
  have foldComms : proof.geminiFoldComms.toList.length = further.scalars.length := by
    rw [Vector.length_toList, length]
  have columns := linearCombination_entities denote proof counted folds
    evalScalars
  have rounds := linearCombination_folds denote proof vk length
    (by omega : logN - 1 ≤ constProofSizeLogN - 1) closed
  constructor
  · simp only [commitments_eq, scalars, openingScalars, List.length_append, entities, foldComms]
    rfl
  · obtain ⟨m, rfl⟩ : ∃ m, logN = m + 1 := ⟨logN - 1, by omega⟩
    rw [Nat.add_sub_cancel] at rounds
    have mask : libraTerms proof tp (m + 1) folds further.constAcc = _ :=
      libraTerms_eq le inverts further.constAcc
    have libra : ∑ index ∈ Finset.range 4, libraWeight tp index •
        (libraClaim proof tp ((openedPoints proof vk).map denote) index).commitment =
          libraWeight tp 0 • denote proof.libraConcatenationCommitment +
            libraWeight tp 1 • denote proof.libraGrandSumCommitment +
            libraWeight tp 2 • denote proof.libraGrandSumCommitment +
            libraWeight tp 3 • denote proof.libraQuotientCommitment := by
      simp only [Finset.sum_range_succ, Finset.sum_range_zero, zero_add]
      rfl
    have start : linearCombination denote
        [proof.shplonkQ, proof.hidingPolynomialCommitment]
        [1, -(tp.shplonkNu * folds.neg0 + folds.pos0)] =
          denote proof.shplonkQ + -(tp.shplonkNu * folds.neg0 + folds.pos0) •
            denote proof.hidingPolynomialCommitment := by
      simp
    have claims : ∑ j ∈ Finset.range (m + 1),
        (positiveWeight tp j •
            (positiveClaim proof tp (m + 1) ((openedPoints proof vk).map denote) j).commitment +
          negativeWeight tp j •
            (negativeClaim proof tp ((openedPoints proof vk).map denote) j).commitment) =
        (∑ k ∈ Finset.range m, (positiveWeight tp (k + 1) + negativeWeight tp (k + 1)) •
          ((openedPoints proof vk).map denote).fold (k + 1)) +
        (folds.pos0 • (unshiftedPart tp ((openedPoints proof vk).map denote) +
            tp.geminiR⁻¹ • shiftedPart tp ((openedPoints proof vk).map denote)) +
          (tp.shplonkNu * folds.neg0) • (unshiftedPart tp ((openedPoints proof vk).map denote) -
            tp.geminiR⁻¹ • shiftedPart tp ((openedPoints proof vk).map denote))) := by
      rw [Finset.sum_range_succ', positiveWeight_zero le inverts, negativeWeight_zero le inverts]
      refine congrArg₂ _ (Finset.sum_congr rfl fun k _ => ?_) rfl
      rw [add_smul]
      rfl
    have constant : further.constAcc = ∑ j ∈ Finset.range (m + 1),
        (positiveWeight tp j * foldValue proof tp (m + 1) (m + 1 - j) +
          negativeWeight tp j * geminiAEvaluation proof j) := constAcc
    have further' : linearCombination denote proof.geminiFoldComms.toList further.scalars = _ :=
      rounds
    simp only [scalars]
    rw [commitments_eq, openingScalars, linearCombination_append, linearCombination_append,
      linearCombination_append, start, further', mask, batchedExcess_openingClaim _ le, claims,
      libra, ← constant]
    · simp only [List.range_succ, List.range_zero, List.nil_append, List.cons_append,
        List.map_cons, List.map_nil, List.getD_cons_zero, List.getD_cons_succ,
        linearCombination_cons, linearCombination_nil]
      rw [eq_sub_of_add_eq' columns]
      module
    · rfl
    · simp [entities]
    · simp [entities, foldComms]

end Combination

section Opening

theorem pairing_openings (laws : CurveLaws curve OnCurve denote τ)
    {p : G1Point} (inside : OnCurve p) (valid : OnCurve proof.kzgQuotient) {batch : G}
    (value : denote p = denote proof.shplonkQ - batch + tp.shplonkZ • denote proof.kzgQuotient) :
    curve.pairingCheck p (curve.neg proof.kzgQuotient) = true ↔
      denote proof.shplonkQ - batch = (τ - tp.shplonkZ) • denote proof.kzgQuotient := by
  obtain ⟨opposite, negated⟩ := laws.neg _ valid
  rw [laws.pairing _ _ inside opposite, value, negated, ← sub_eq_zero (a := denote _ - batch)]
  refine Eq.congr_left ?_
  module

variable (positive : 0 < logN) (le : logN ≤ constProofSizeLogN) (size : vk.logCircuitSize = logN)
  (counted : vk.commitments.length = 27) (laws : CurveLaws curve OnCurve denote τ)
  (valid : ∀ c ∈ commitments proof vk, OnCurve c)
include positive le size counted laws valid

/-- What is accepted opens its claims. -/
theorem batchOpens_of_accepts (accepted : verifyShplemini proof tp curve vk = .ok ()) :
    (OpensOutside tp logN ∧ ∀ j < logN, foldDenominator tp j ≠ 0) ∧
      checkLibraEvaluationsConsistency proof tp = .ok () ∧
      BatchOpens (denote G1Point.generator) τ tp.shplonkNu tp.shplonkZ (claimPowers logN)
        (openingClaim proof tp logN ((openedPoints proof vk).map denote)) (denote proof.shplonkQ)
        (denote proof.kzgQuotient) := by
  subst size
  have witness : OnCurve proof.kzgQuotient := valid _ (by simp [commitments])
  unfold verifyShplemini at accepted
  simp only [bind_eq_ok, ensure_eq_ok] at accepted
  obtain ⟨_, _, folds, found, _, libra, p, product, paired⟩ := accepted
  obtain ⟨inverted, inverts, _⟩ := bind_eq_ok.mp found
  obtain ⟨folds', found', rfl, evalScalars, values⟩ := reconstructFolds_eq proof le inverts
  obtain rfl := Except.ok.inj (found'.symm.trans found)
  obtain ⟨same, sum⟩ := linearCombination_commitments denote positive le counted inverts evalScalars
    values
  obtain ⟨p', product', inside, value⟩ := laws.msm_eq same valid
  obtain rfl := Except.ok.inj (product'.symm.trans product)
  refine ⟨(invertDenominators_ok_iff le positive).mp ⟨_, inverts⟩, libra, ?_⟩
  exact (pairing_openings laws inside witness (value.trans sum)).mp paired

/-- Where no distance vanishes and the mask is consistent, claims that are opened are accepted. -/
theorem accepts_of_batchOpens (outside : OpensOutside tp logN)
    (distances : ∀ j < logN, foldDenominator tp j ≠ 0)
    (libra : checkLibraEvaluationsConsistency proof tp = .ok ())
    (opens : BatchOpens (denote G1Point.generator) τ tp.shplonkNu tp.shplonkZ (claimPowers logN)
      (openingClaim proof tp logN ((openedPoints proof vk).map denote)) (denote proof.shplonkQ)
      (denote proof.kzgQuotient)) : verifyShplemini proof tp curve vk = .ok () := by
  subst size
  have witness : OnCurve proof.kzgQuotient := valid _ (by simp [commitments])
  obtain ⟨inverted, inverts⟩ := (invertDenominators_ok_iff le positive).mpr ⟨outside, distances⟩
  obtain ⟨folds, found, rfl, evalScalars, values⟩ := reconstructFolds_eq proof le inverts
  obtain ⟨same, sum⟩ := linearCombination_commitments denote positive le counted inverts evalScalars
    values
  obtain ⟨p, product, inside, value⟩ := laws.msm_eq same valid
  unfold verifyShplemini
  simp only [bind_eq_ok, ensure_eq_ok]
  refine ⟨(), ⟨positive.ne', le⟩, folds, found, (), libra, p, product, ?_⟩
  exact (pairing_openings laws inside witness (value.trans sum)).mpr opens

/-- The opening of a proof is accepted for its claims: no distance vanishes, the mask is consistent,
and the quotient and the witness open all the claims in one batch. -/
theorem shplemini_accepts_iff : verifyShplemini proof tp curve vk = .ok () ↔
    (OpensOutside tp logN ∧ ∀ j < logN, foldDenominator tp j ≠ 0) ∧
      checkLibraEvaluationsConsistency proof tp = .ok () ∧
      BatchOpens (denote G1Point.generator) τ tp.shplonkNu tp.shplonkZ (claimPowers logN)
        (openingClaim proof tp logN ((openedPoints proof vk).map denote)) (denote proof.shplonkQ)
        (denote proof.kzgQuotient) := by
  constructor
  · exact batchOpens_of_accepts positive le size counted laws valid
  · rintro ⟨⟨outside, distances⟩, libra, opens⟩
    exact accepts_of_batchOpens positive le size counted laws valid outside distances libra opens

end Opening

section Sample

/-- The scalar that the first coordinate of a point holds. -/
def exponentOf (p : G1Point) : Fr := Fr.fromArray (toArray 32 p.toList)

def pointOf (x : Fr) : G1Point := toArray 64 (x.toBytes.toList ++ List.replicate 32 0)

def exponentCurve (τ : Fr) : Bn254 where
  g1Msm terms := .ok (pointOf (terms.map fun (c, s) => s • exponentOf c).sum)
  neg p := pointOf (-exponentOf p)
  pairingCheck p q := exponentOf p + τ • exponentOf q = 0

theorem exponentOf_pointOf (x : Fr) : exponentOf (pointOf x) = x := by
  have whole : (pointOf x).toList = x.toBytes.toList ++ List.replicate 32 0 :=
    toArray_toList (by simp)
  have first : toArray 32 (x.toBytes.toList ++ List.replicate 32 0) = x.toBytes := by
    refine Vector.ext fun i less => ?_
    have inside : i < x.toBytes.toList.length := by rwa [Vector.length_toList]
    rw [toArray, Vector.getElem_ofFn, List.getD_eq_getElem?_getD,
      List.getElem?_append_left inside, List.getElem?_eq_getElem inside, Option.getD_some,
      Vector.getElem_toList]
  rw [exponentOf, whole, first, Fr.fromArray_toBytes]

theorem exponentOf_infinity : exponentOf G1Point.infinity = 0 := by decide

theorem exponentCurve_laws (τ : Fr) :
    CurveLaws (exponentCurve τ) (fun _ => True) exponentOf τ where
  msm terms _ _ := ⟨_, rfl, trivial, exponentOf_pointOf _⟩
  infinity := ⟨trivial, exponentOf_infinity⟩
  generator := trivial
  neg p _ := ⟨trivial, exponentOf_pointOf _⟩
  pairing p q _ _ := by simp [exponentCurve]

def emptyKey (logN : ℕ) : VerificationKey :=
  ⟨2 ^ logN, logN, 16, 1, List.replicate 27 (List.replicate 64 0)⟩

theorem shplemini_accepts_iff_sample :
    verifyShplemini smallProof smallTranscript (exponentCurve 5) (emptyKey 3) = .ok () ↔
      (OpensOutside smallTranscript 3 ∧ ∀ j < 3, foldDenominator smallTranscript j ≠ 0) ∧
      checkLibraEvaluationsConsistency smallProof smallTranscript = .ok () ∧
      BatchOpens (exponentOf G1Point.generator) 5 smallTranscript.shplonkNu
        smallTranscript.shplonkZ (claimPowers 3)
        (openingClaim smallProof smallTranscript 3
          ((openedPoints smallProof (emptyKey 3)).map exponentOf))
        (exponentOf smallProof.shplonkQ) (exponentOf smallProof.kzgQuotient) :=
  shplemini_accepts_iff (by decide) (by decide) rfl rfl (exponentCurve_laws 5) fun _ _ => trivial

end Sample

end Zicket.Verifier
