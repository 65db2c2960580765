import Zicket.Foundation.MultilinearFolds
import Zicket.Results.BatchedClaims

/-! A prover who commits to polynomials and opens them as the rows see them: the folds of the
batched polynomial, their values at the opposite points, and the two quotients. -/

namespace Zicket.Verifier

open Host Foundation Polynomial

variable {G : Type} [AddCommGroup G] [Module Fr G] {g : G} {curve : Bn254}
  {OnCurve : G1Point → Prop} {denote : G1Point → G} {τ : Fr} {points : OpenedParts G}
  {polys : OpenedParts Fr[X]} {proof : Proof} {tp : Transcript} {vk : VerificationKey} {logN : ℕ}

section Polynomials

/-- A column as it is opened: the last five, one row further. -/
noncomputable def openedPolynomial (polys : OpenedParts Fr[X]) (i : ℕ) : Fr[X] :=
  if i < numberUnshifted then polys.entity i else (polys.entity i).divX

noncomputable def batchedPolynomial (tp : Transcript) (polys : OpenedParts Fr[X]) : Fr[X] :=
  polys.hidingPolynomial +
    ∑ i ∈ Finset.range numberOfEntities, tp.rho ^ (i + 1) • openedPolynomial polys i

structure Commits (g : G) (τ : Fr) (logN : ℕ) (points : OpenedParts G) (polys : OpenedParts Fr[X]) :
    Prop where
  hidingPolynomial : points.hidingPolynomial = commitTo g τ polys.hidingPolynomial
  entity (i : ℕ) : i < numberOfEntities → points.entity i = commitTo g τ (polys.entity i)
  fold (j : ℕ) : 0 < j → j < logN → points.fold j = commitTo g τ (polys.fold j)
  concatenation : points.concatenation = commitTo g τ polys.concatenation
  grandSum : points.grandSum = commitTo g τ polys.grandSum
  quotient : points.quotient = commitTo g τ polys.quotient

namespace Commits

variable (commits : Commits g τ logN points polys)
include commits

theorem unshiftedPart_eq : unshiftedPart tp points = commitTo g τ (unshiftedPart tp polys) := by
  rw [unshiftedPart, unshiftedPart, map_add, map_sum, commits.hidingPolynomial]
  refine congrArg _ (Finset.sum_congr rfl fun i mem => ?_)
  have less : numberUnshifted ≤ numberOfEntities := by decide
  rw [map_smul, commits.entity i ((Finset.mem_range.mp mem).trans_le less)]

theorem shiftedPart_eq : shiftedPart tp points = commitTo g τ (shiftedPart tp polys) := by
  rw [shiftedPart, shiftedPart, map_sum]
  refine Finset.sum_congr rfl fun i mem => ?_
  rw [map_smul, commits.entity i (Finset.mem_Ico.mp mem).2]

theorem openingClaim_eq (le : logN ≤ constProofSizeLogN) {e : ℕ} (mem : e ∈ claimPowers logN) :
    openingClaim proof tp logN points e =
      (openingClaim proof tp logN polys e).map (commitTo g τ) := by
  have power : libraPower = 58 := rfl
  have most : constProofSizeLogN = 28 := rfl
  rcases Finset.mem_union.mp mem with fold | mask
  · have less := Finset.mem_range.mp fold
    have small : e < libraPower := by omega
    rw [openingClaim, openingClaim, if_neg small.not_ge, if_neg small.not_ge]
    have within : e / 2 < logN := by omega
    by_cases even : e % 2 = 0
    · rw [if_pos even, if_pos even, positiveClaim, positiveClaim, OpeningClaim.map]
      by_cases first : e / 2 = 0
      · simp only [first, if_true, map_add, map_smul, commits.unshiftedPart_eq,
          commits.shiftedPart_eq]
      · simp only [first, if_false, commits.fold (e / 2) (Nat.pos_of_ne_zero first) within]
    · rw [if_neg even, if_neg even, negativeClaim, negativeClaim, OpeningClaim.map]
      by_cases first : e / 2 = 0
      · simp only [first, if_true, map_sub, map_smul, commits.unshiftedPart_eq,
          commits.shiftedPart_eq]
      · simp only [first, if_false, commits.fold (e / 2) (Nat.pos_of_ne_zero first) within]
  · obtain ⟨above, below⟩ := Finset.mem_Ico.mp mask
    obtain ⟨index, rfl⟩ := Nat.exists_eq_add_of_le above
    rw [openingClaim_libra, openingClaim_libra]
    rcases index with _ | _ | _ | index
    · exact congrArg (OpeningClaim.mk · _ _) commits.concatenation
    · exact congrArg (OpeningClaim.mk · _ _) commits.grandSum
    · exact congrArg (OpeningClaim.mk · _ _) commits.grandSum
    · exact congrArg (OpeningClaim.mk · _ _) commits.quotient

theorem batchedExcess_eq (le : logN ≤ constProofSizeLogN) (ν z : Fr) :
    batchedExcess g ν z (claimPowers logN) (openingClaim proof tp logN points) =
      batchedExcess g ν z (claimPowers logN) fun e =>
        (openingClaim proof tp logN polys e).map (commitTo g τ) :=
  Finset.sum_congr rfl fun e mem => by rw [commits.openingClaim_eq le mem]

end Commits

end Polynomials

section Values

theorem eval_divX_mul {P : Fr[X]} (start : P.coeff 0 = 0) {r : Fr} (nonzero : r ≠ 0) :
    P.divX.eval r = r⁻¹ * P.eval r := by
  have parts := congrArg (eval r) (divX_mul_X_add P)
  rw [start, C_0, add_zero, eval_mul, eval_X] at parts
  rw [← parts, mul_comm (P.divX.eval r), inv_mul_cancel_left₀ nonzero]

theorem eval_batchedPolynomial
    (starts : ∀ i, numberUnshifted ≤ i → i < numberOfEntities → (polys.entity i).coeff 0 = 0)
    {r : Fr} (nonzero : r ≠ 0) : (batchedPolynomial tp polys).eval r =
      (unshiftedPart tp polys).eval r + r⁻¹ * (shiftedPart tp polys).eval r := by
  have less : numberUnshifted ≤ numberOfEntities := by decide
  have unshifted : ∑ i ∈ Finset.range numberUnshifted,
      (tp.rho ^ (i + 1) • openedPolynomial polys i).eval r =
        ∑ i ∈ Finset.range numberUnshifted, (tp.rho ^ (i + 1) • polys.entity i).eval r :=
    Finset.sum_congr rfl fun i mem => by rw [openedPolynomial, if_pos (Finset.mem_range.mp mem)]
  have shifted : ∑ i ∈ Finset.Ico numberUnshifted numberOfEntities,
      (tp.rho ^ (i + 1) • openedPolynomial polys i).eval r =
        r⁻¹ * ∑ i ∈ Finset.Ico numberUnshifted numberOfEntities,
          (tp.rho ^ (i + 1) • polys.entity i).eval r := by
    rw [Finset.mul_sum]
    refine Finset.sum_congr rfl fun i mem => ?_
    obtain ⟨above, below⟩ := Finset.mem_Ico.mp mem
    rw [openedPolynomial, if_neg (by omega), eval_smul, eval_smul,
      eval_divX_mul (starts i above below) nonzero, smul_eq_mul, smul_eq_mul, mul_left_comm]
  rw [batchedPolynomial, unshiftedPart, shiftedPart, eval_add, eval_add, eval_finsetSum,
    eval_finsetSum, eval_finsetSum, ← Finset.sum_range_add_sum_Ico _ less, unshifted, shifted,
    add_assoc]

theorem foldValue_eq {A : ℕ → Fr[X]}
    (folds : ∀ j < logN, IsFold (uChallenge tp j) (A j) (A (j + 1)))
    (distances : ∀ j < logN, foldDenominator tp j ≠ 0)
    (evaluations : ∀ j < logN, geminiAEvaluation proof j = (A j).eval (-tp.geminiR ^ 2 ^ j))
    (last : batchedEvaluation proof tp = (A logN).eval (tp.geminiR ^ 2 ^ logN)) {k : ℕ}
    (le : k ≤ logN) :
    foldValue proof tp logN k = (A (logN - k)).eval (tp.geminiR ^ 2 ^ (logN - k)) := by
  induction k with
  | zero => exact last
  | succ k ih =>
    have index : logN - k = logN - (k + 1) + 1 := by omega
    have less : logN - (k + 1) < logN := by omega
    have square : tp.geminiR ^ 2 ^ (logN - (k + 1) + 1) =
        (tp.geminiR ^ 2 ^ (logN - (k + 1))) ^ 2 := by
      rw [← pow_mul, pow_succ]
    rw [foldValue, ih (by omega), index, square, evaluations _ less]
    exact (folds _ less).eval_eq (distances _ less)

/-- The batched evaluation of columns that are evaluated as multilinear functions. -/
theorem batchedEvaluation_eq
    (start : proof.hidingPolynomialEvaluation =
      multilinearValue (uChallenge tp) logN polys.hidingPolynomial)
    (evaluations : ∀ i < numberOfEntities, proof.sumcheckEvaluations.toList.getD i 0 =
      multilinearValue (uChallenge tp) logN (openedPolynomial polys i)) :
    batchedEvaluation proof tp =
      multilinearValue (uChallenge tp) logN (batchedPolynomial tp polys) := by
  rw [batchedEvaluation, batchedPolynomial, multilinearValue_add, multilinearValue_sum, start]
  refine congrArg _ (Finset.sum_congr rfl fun i mem => ?_)
  rw [multilinearValue_smul, evaluations i (Finset.mem_range.mp mem), mul_comm]

end Values

section Honest

/-- What an honest prover sends of polynomials that are evaluated as the rows see them. The shifted
columns begin with a zero. -/
structure HonestOpening (polys : OpenedParts Fr[X]) (proof : Proof) (tp : Transcript) (logN : ℕ) :
    Prop where
  starts (i : ℕ) : numberUnshifted ≤ i → i < numberOfEntities → (polys.entity i).coeff 0 = 0
  hidingSmall : polys.hidingPolynomial.natDegree < 2 ^ logN
  small (i : ℕ) : i < numberOfEntities → (openedPolynomial polys i).natDegree < 2 ^ logN
  hidingEvaluation : proof.hidingPolynomialEvaluation =
    multilinearValue (uChallenge tp) logN polys.hidingPolynomial
  evaluations (i : ℕ) : i < numberOfEntities → proof.sumcheckEvaluations.toList.getD i 0 =
    multilinearValue (uChallenge tp) logN (openedPolynomial polys i)
  folds (j : ℕ) : 0 < j → j < logN →
    polys.fold j = foldMany (uChallenge tp) j (batchedPolynomial tp polys)
  opposites (j : ℕ) : j < logN → geminiAEvaluation proof j =
    (foldMany (uChallenge tp) j (batchedPolynomial tp polys)).eval (-tp.geminiR ^ 2 ^ j)
  concatenation : libraEvaluation proof 0 = polys.concatenation.eval tp.geminiR
  shiftedGrandSum : libraEvaluation proof 1 =
    polys.grandSum.eval (subgroupGenerator * tp.geminiR)
  grandSum : libraEvaluation proof 2 = polys.grandSum.eval tp.geminiR
  quotient : libraEvaluation proof 3 = polys.quotient.eval tp.geminiR

namespace HonestOpening

variable (honest : HonestOpening polys proof tp logN)
include honest

theorem natDegree_lt : (batchedPolynomial tp polys).natDegree < 2 ^ logN := by
  refine (natDegree_add_le _ _).trans_lt (max_lt honest.hidingSmall ?_)
  refine (natDegree_sum_le_of_forall_le _ _ (n := 2 ^ logN - 1) fun i mem => ?_).trans_lt
    (Nat.sub_one_lt (by positivity))
  refine (natDegree_smul_le _ _).trans ?_
  exact Nat.le_sub_one_of_lt (honest.small i (Finset.mem_range.mp mem))

theorem batchedEvaluation_eq_eval (x : Fr) : batchedEvaluation proof tp =
    (foldMany (uChallenge tp) logN (batchedPolynomial tp polys)).eval x := by
  rw [foldMany_eq_C two_ne_zero_fr honest.natDegree_lt, eval_C]
  exact batchedEvaluation_eq honest.hidingEvaluation honest.evaluations

variable (distances : ∀ j < logN, foldDenominator tp j ≠ 0)
include distances

theorem foldValue_eq_eval {j : ℕ} (less : j ≤ logN) : foldValue proof tp logN (logN - j) =
    (foldMany (uChallenge tp) j (batchedPolynomial tp polys)).eval (tp.geminiR ^ 2 ^ j) := by
  have value := foldValue_eq (A := (foldMany (uChallenge tp) · (batchedPolynomial tp polys)))
    (fun j _ => isFold_foldMany _ _ j) distances honest.opposites
    (honest.batchedEvaluation_eq_eval _) (Nat.sub_le logN j)
  rw [Nat.sub_sub_self less] at value
  exact value

variable (challenge : tp.geminiR ≠ 0)
include challenge

theorem positiveClaim_holds {j : ℕ} (less : j < logN) :
    (positiveClaim proof tp logN polys j).Holds := by
  rw [OpeningClaim.Holds, positiveClaim, honest.foldValue_eq_eval distances less.le]
  by_cases first : j = 0
  · subst first
    rw [if_pos rfl, pow_zero, pow_one, foldMany, eval_batchedPolynomial honest.starts challenge,
      eval_add, eval_smul, smul_eq_mul]
  · rw [if_neg first, honest.folds j (Nat.pos_of_ne_zero first) less]

omit distances in
theorem negativeClaim_holds {j : ℕ} (less : j < logN) :
    (negativeClaim proof tp polys j).Holds := by
  rw [OpeningClaim.Holds, negativeClaim, honest.opposites j less]
  by_cases first : j = 0
  · subst first
    rw [if_pos rfl, pow_zero, pow_one, foldMany,
      eval_batchedPolynomial honest.starts (neg_ne_zero.mpr challenge), eval_sub, eval_smul,
      smul_eq_mul, inv_neg, neg_mul, sub_eq_add_neg]
  · rw [if_neg first, honest.folds j (Nat.pos_of_ne_zero first) less]

omit distances challenge in
theorem libraClaim_holds (index : ℕ) (less : index < 4) :
    (libraClaim proof tp polys index).Holds := by
  rcases index with _ | _ | _ | _ | index
  · exact honest.concatenation.symm
  · exact honest.shiftedGrandSum.symm
  · exact honest.grandSum.symm
  · exact honest.quotient.symm
  · omega

theorem openingClaim_holds (le : logN ≤ constProofSizeLogN) {e : ℕ} (mem : e ∈ claimPowers logN) :
    (openingClaim proof tp logN polys e).Holds := by
  rcases Finset.mem_union.mp mem with fold | mask
  · have less := Finset.mem_range.mp fold
    rcases Nat.even_or_odd' e with ⟨j, rfl | rfl⟩
    · rw [openingClaim_positive (by omega)]
      exact honest.positiveClaim_holds distances challenge (by omega)
    · rw [openingClaim_negative (by omega)]
      exact honest.negativeClaim_holds challenge (by omega)
  · obtain ⟨above, below⟩ := Finset.mem_Ico.mp mask
    obtain ⟨index, rfl⟩ := Nat.exists_eq_add_of_le above
    rw [openingClaim_libra]
    exact honest.libraClaim_holds index (Nat.lt_of_add_lt_add_left below)

end HonestOpening

theorem openingClaim_point_ne (le : logN ≤ constProofSizeLogN) (positive : 0 < logN)
    {parts : OpenedParts G} (outside : OpensOutside tp logN) {e : ℕ} (mem : e ∈ claimPowers logN) :
    tp.shplonkZ ≠ (openingClaim proof tp logN parts e).point := by
  rcases Finset.mem_union.mp mem with fold | mask
  · have less := Finset.mem_range.mp fold
    rcases Nat.even_or_odd' e with ⟨j, rfl | rfl⟩
    · rw [openingClaim_positive (by omega)]
      exact sub_ne_zero.mp (outside.points j (by omega)).1
    · rw [openingClaim_negative (by omega)]
      exact fun same => (outside.points j (by omega)).2 (eq_neg_iff_add_eq_zero.mp same)
  · obtain ⟨above, below⟩ := Finset.mem_Ico.mp mask
    obtain ⟨index, rfl⟩ := Nat.exists_eq_add_of_le above
    have point : (libraClaim proof tp parts index).point =
        if index = 1 then subgroupGenerator * tp.geminiR else tp.geminiR := rfl
    rw [openingClaim_libra, point]
    by_cases further : index = 1
    · rw [if_pos further]
      exact sub_ne_zero.mp outside.libra
    · rw [if_neg further]
      have first := (outside.points 0 positive).1
      rw [pow_zero, pow_one] at first
      exact sub_ne_zero.mp first

/-- The commitments of an honest prover open all its claims in one batch. -/
theorem HonestOpening.batchOpens (positive : 0 < logN) (le : logN ≤ constProofSizeLogN)
    (outside : OpensOutside tp logN) (distances : ∀ j < logN, foldDenominator tp j ≠ 0)
    (commits : Commits g τ logN points polys) (honest : HonestOpening polys proof tp logN) :
    BatchOpens g τ tp.shplonkNu tp.shplonkZ (claimPowers logN) (openingClaim proof tp logN points)
      (commitTo g τ
        (batchQuotient tp.shplonkNu (claimPowers logN) (openingClaim proof tp logN polys)))
      (commitTo g τ (batchWitness tp.shplonkNu tp.shplonkZ (claimPowers logN)
        (openingClaim proof tp logN polys))) := by
  rw [BatchOpens, commits.batchedExcess_eq le]
  exact batchOpens_of_holds _ τ
    (fun e mem => honest.openingClaim_holds distances outside.challenge le mem)
    fun e mem => openingClaim_point_ne le positive outside mem

end Honest

end Zicket.Verifier
