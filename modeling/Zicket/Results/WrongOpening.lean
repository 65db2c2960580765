import Zicket.Results.HonestOpening

/-! A prover who knows the polynomials behind the points it sends, and claims a wrong evaluation of
a column. The polynomials of the columns come before the weight `ρ` of the columns, the folds before
the point `r`, the values of the folds before the weight `ν` of the claims, the quotient before the
common point `z`; the secret of the curve comes last, since nothing that is sent depends on it but
through the polynomials. -/

namespace Zicket.Verifier

open Host Foundation Polynomial

/-- What the prover of an opening answers to the challenges. -/
structure OpeningProver where
  fold : Fr → ℕ → Fr[X]
  opposites : Fr → Fr → Vector Fr constProofSizeLogN
  mask : Fr → Fr → Vector Fr 4
  quotient : Fr → Fr → Fr → Fr[X]
  witness : Fr → Fr → Fr → Fr → Fr[X]

def Transcript.opening (tp : Transcript) (ρ r ν z : Fr) : Transcript :=
  { tp with rho := ρ, geminiR := r, shplonkNu := ν, shplonkZ := z }

section Dependence

variable {proof proof' : Proof} {tp tp' : Transcript} {logN : ℕ} {G : Type} [AddCommGroup G]
  [Module Fr G]

structure SameClaims (proof proof' : Proof) (tp tp' : Transcript) : Prop where
  evaluations : proof.sumcheckEvaluations = proof'.sumcheckEvaluations
  hidingEvaluation : proof.hidingPolynomialEvaluation = proof'.hidingPolynomialEvaluation
  opposites : proof.geminiAEvaluations = proof'.geminiAEvaluations
  mask : proof.libraPolynomialEvaluations = proof'.libraPolynomialEvaluations
  challenges : tp.sumcheckUChallenges = tp'.sumcheckUChallenges
  rho : tp.rho = tp'.rho
  geminiR : tp.geminiR = tp'.geminiR

variable (same : SameClaims proof proof' tp tp')
include same

theorem SameClaims.foldValue (k : ℕ) :
    foldValue proof tp logN k = foldValue proof' tp' logN k := by
  induction k with
  | zero =>
    simp only [Verifier.foldValue, batchedEvaluation, same.evaluations, same.hidingEvaluation,
      same.rho]
  | succ k ih =>
    simp only [Verifier.foldValue, ih, same.geminiR, geminiAEvaluation, same.opposites, uChallenge,
      same.challenges, foldDenominator]

theorem SameClaims.openingClaim (parts : OpenedParts G) (e : ℕ) :
    openingClaim proof tp logN parts e = openingClaim proof' tp' logN parts e := by
  simp only [Verifier.openingClaim, positiveClaim, negativeClaim, libraClaim, unshiftedPart,
    shiftedPart, same.rho, same.geminiR, same.foldValue, geminiAEvaluation, same.opposites,
    libraEvaluation, same.mask]

end Dependence

section Acceptance

variable {G : Type} [AddCommGroup G] [Module Fr G]

/-- A proof whose points are commitments to the polynomials of the prover, with what it claims. -/
structure OpeningAnswer (OnCurve : G1Point → Prop) (denote : G1Point → G) (logN : ℕ)
    (polys : OpenedParts Fr[X]) (sent : Proof) (prover : OpeningProver) (ρ r ν z τ : Fr)
    (proof : Proof) (vk : VerificationKey) (curve : Bn254) : Prop where
  size : vk.logCircuitSize = logN
  counted : vk.commitments.length = 27
  laws : CurveLaws curve OnCurve denote τ
  valid (c : G1Point) : c ∈ commitments proof vk → OnCurve c
  evaluations : proof.sumcheckEvaluations = sent.sumcheckEvaluations
  hidingEvaluation : proof.hidingPolynomialEvaluation = sent.hidingPolynomialEvaluation
  opposites : proof.geminiAEvaluations = prover.opposites ρ r
  mask : proof.libraPolynomialEvaluations = prover.mask ρ r
  commits : Commits (denote G1Point.generator) τ logN ((openedPoints proof vk).map denote)
    { polys with fold := prover.fold ρ }
  quotient : denote proof.shplonkQ =
    commitTo (denote G1Point.generator) τ (prover.quotient ρ r ν)
  witness : denote proof.kzgQuotient =
    commitTo (denote G1Point.generator) τ (prover.witness ρ r ν z)

def OpeningProver.claims (prover : OpeningProver) (sent : Proof) (ρ r : Fr) : Proof :=
  { sent with
    geminiAEvaluations := prover.opposites ρ r
    libraPolynomialEvaluations := prover.mask ρ r }

noncomputable def OpeningProver.openingClaim (prover : OpeningProver) (polys : OpenedParts Fr[X])
    (sent : Proof) (tp : Transcript) (logN : ℕ) (ρ r : Fr) : ℕ → OpeningClaim Fr Fr[X] :=
  Verifier.openingClaim (prover.claims sent ρ r) (tp.opening ρ r 0 0) logN
    { polys with fold := prover.fold ρ }

variable {OnCurve : G1Point → Prop} {denote : G1Point → G} {logN : ℕ} {polys : OpenedParts Fr[X]}
  {sent : Proof} {prover : OpeningProver} {ρ r ν z τ : Fr} {proof : Proof} {vk : VerificationKey}
  {curve : Bn254} {tp : Transcript}

/-- The claims do not depend on what is drawn after them. -/
theorem OpeningProver.openingClaim_eq (ν z : Fr) (e : ℕ) :
    Verifier.openingClaim (prover.claims sent ρ r) (tp.opening ρ r ν z) logN
      { polys with fold := prover.fold ρ } e = prover.openingClaim polys sent tp logN ρ r e := by
  have same : SameClaims (prover.claims sent ρ r) (prover.claims sent ρ r) (tp.opening ρ r ν z)
      (tp.opening ρ r 0 0) := ⟨rfl, rfl, rfl, rfl, rfl, rfl, rfl⟩
  exact same.openingClaim _ e

/-- An accepted answer meets the equation of the claims at the secret point, outside their points. -/
theorem OpeningAnswer.vanishes (positive : 0 < logN) (le : logN ≤ constProofSizeLogN)
    (free : denote G1Point.generator ≠ 0)
    (answer : OpeningAnswer OnCurve denote logN polys sent prover ρ r ν z τ proof vk curve)
    (accepted : verifyShplemini proof (tp.opening ρ r ν z) curve vk = .ok ()) :
    OpensOutside (tp.opening ρ r ν z) logN ∧
      (∀ j < logN, foldDenominator (tp.opening ρ r ν z) j ≠ 0) ∧
      (openingDefect ν z (claimPowers logN) (prover.openingClaim polys sent tp logN ρ r)
        (prover.quotient ρ r ν) (prover.witness ρ r ν z)).eval τ = 0 := by
  obtain ⟨⟨outside, distances⟩, -, opens⟩ := batchOpens_of_accepts positive le answer.size
    answer.counted answer.laws answer.valid accepted
  refine ⟨outside, distances, (batchOpens_iff free τ _ _).mp ?_⟩
  have same : SameClaims proof (prover.claims sent ρ r) (tp.opening ρ r ν z) (tp.opening ρ r 0 0) :=
    ⟨answer.evaluations, answer.hidingEvaluation, answer.opposites, answer.mask, rfl, rfl, rfl⟩
  have claims : openingClaim proof (tp.opening ρ r ν z) logN
      { polys with fold := prover.fold ρ } = prover.openingClaim polys sent tp logN ρ r :=
    funext fun e => same.openingClaim _ e
  rw [BatchOpens, answer.commits.batchedExcess_eq le, claims, answer.quotient, answer.witness] at opens
  exact opens

end Acceptance

section Weights

variable {polys : OpenedParts Fr[X]} {sent : Proof} {tp : Transcript} {logN : ℕ}

noncomputable def evaluationErrors (polys : OpenedParts Fr[X]) (sent : Proof) (u : ℕ → Fr)
    (logN : ℕ) : Fr[X] :=
  C (sent.hidingPolynomialEvaluation - multilinearValue u logN polys.hidingPolynomial) +
    ∑ i ∈ Finset.range numberOfEntities, monomial (i + 1)
      (sent.sumcheckEvaluations.toList.getD i 0 -
        multilinearValue u logN (openedPolynomial polys i))

theorem eval_evaluationErrors (ρ r ν z : Fr) :
    (evaluationErrors polys sent (uChallenge tp) logN).eval ρ =
      batchedEvaluation sent (tp.opening ρ r ν z) -
        multilinearValue (uChallenge tp) logN (batchedPolynomial (tp.opening ρ r ν z) polys) := by
  have rho : (tp.opening ρ r ν z).rho = ρ := rfl
  rw [evaluationErrors, batchedEvaluation, batchedPolynomial, multilinearValue_add,
    multilinearValue_sum, eval_add, eval_C, eval_finsetSum, add_sub_add_comm,
    ← Finset.sum_sub_distrib, rho]
  refine congrArg _ (Finset.sum_congr rfl fun i _ => ?_)
  rw [eval_monomial, multilinearValue_smul]
  ring

theorem coeff_evaluationErrors_succ (polys : OpenedParts Fr[X]) (sent : Proof) (u : ℕ → Fr)
    (logN : ℕ) {i : ℕ} (less : i < numberOfEntities) :
    (evaluationErrors polys sent u logN).coeff (i + 1) =
      sent.sumcheckEvaluations.toList.getD i 0 -
        multilinearValue u logN (openedPolynomial polys i) := by
  rw [evaluationErrors, coeff_add, coeff_C_succ, zero_add, finsetSum_coeff,
    Finset.sum_eq_single_of_mem i (Finset.mem_range.mpr less), coeff_monomial, if_pos rfl]
  intro k _ other
  rw [coeff_monomial, if_neg (by omega)]

theorem coeff_evaluationErrors_zero (polys : OpenedParts Fr[X]) (sent : Proof) (u : ℕ → Fr)
    (logN : ℕ) :
    (evaluationErrors polys sent u logN).coeff 0 =
      sent.hidingPolynomialEvaluation - multilinearValue u logN polys.hidingPolynomial := by
  rw [evaluationErrors, coeff_add, coeff_C_zero, finsetSum_coeff, Finset.sum_eq_zero, add_zero]
  intro k _
  rw [coeff_monomial, if_neg (by omega)]

theorem natDegree_evaluationErrors (u : ℕ → Fr) :
    (evaluationErrors polys sent u logN).natDegree ≤ numberOfEntities := by
  refine (natDegree_add_le _ _).trans (max_le (by simp) ?_)
  refine natDegree_sum_le_of_forall_le _ _ fun i mem => (natDegree_monomial_le _).trans ?_
  exact Finset.mem_range.mp mem

end Weights

section Levels

variable (tp : Transcript) (parts : OpenedParts Fr[X]) (value : Fr) (logN : ℕ)

/-- A fold, the last one being the constant that the evaluations claim. -/
noncomputable def foldLevel (j : ℕ) : Fr[X] :=
  if j = logN then C value else if j = 0 then batchedPolynomial tp parts else parts.fold j

noncomputable def levelDefect (j : ℕ) : Fr[X] :=
  foldDefect (uChallenge tp j) (if j = 0 then unshiftedPart tp parts else parts.fold j)
    (if j = 0 then shiftedPart tp parts else 0) (foldLevel tp parts value logN (j + 1))

variable {tp parts value logN}

theorem divX_shiftedPart : (shiftedPart tp parts).divX =
    ∑ i ∈ Finset.Ico numberUnshifted numberOfEntities, tp.rho ^ (i + 1) • (parts.entity i).divX := by
  rw [shiftedPart, ← divX_hom_toFun, map_sum]
  refine Finset.sum_congr rfl fun i _ => ?_
  rw [divX_hom_toFun, smul_eq_C_mul, divX_C_mul, smul_eq_C_mul]

theorem batchedPolynomial_eq :
    batchedPolynomial tp parts = unshiftedPart tp parts + (shiftedPart tp parts).divX := by
  have less : numberUnshifted ≤ numberOfEntities := by decide
  rw [divX_shiftedPart, unshiftedPart, batchedPolynomial, ← Finset.sum_range_add_sum_Ico _ less,
    add_assoc]
  refine congrArg _ (congrArg₂ _ (Finset.sum_congr rfl fun i mem => ?_)
    (Finset.sum_congr rfl fun i mem => ?_))
  · rw [openedPolynomial, if_pos (Finset.mem_range.mp mem)]
  · rw [openedPolynomial, if_neg (Finset.mem_Ico.mp mem).1.not_gt]

theorem multilinearValue_of_levels (positive : 0 < logN)
    (folds : ∀ j < logN, levelDefect tp parts value logN j = 0) :
    multilinearValue (uChallenge tp) logN (batchedPolynomial tp parts) = value := by
  have chain : multilinearValue (uChallenge tp) logN (foldLevel tp parts value logN 0) = value := by
    refine multilinearValue_of_isFold two_ne_zero_fr (fun j less => ?_) (if_pos rfl)
    have isFold := isFold_of_foldDefect (folds j less)
    rw [foldLevel, if_neg less.ne]
    by_cases first : j = 0
    · rw [if_pos first]
      rw [if_pos first, if_pos first] at isFold
      rwa [batchedPolynomial_eq]
    · rw [if_neg first]
      rwa [if_neg first, if_neg first, divX_zero, add_zero] at isFold
  rwa [foldLevel, if_neg positive.ne, if_pos rfl] at chain

variable {proof : Proof}

theorem eval_levelDefect {j : ℕ} (less : j < logN) (challenge : tp.geminiR ≠ 0)
    (distance : foldDenominator tp j ≠ 0)
    (positive : ∀ i < logN, (positiveClaim proof tp logN parts i).Holds)
    (negative : (negativeClaim proof tp parts j).Holds) :
    (levelDefect tp parts (batchedEvaluation proof tp) logN j).eval (tp.geminiR ^ 2 ^ j) = 0 := by
  have square : (tp.geminiR ^ 2 ^ j) ^ 2 = tp.geminiR ^ 2 ^ (j + 1) := by
    rw [← pow_mul, pow_succ]
  have next : (foldLevel tp parts (batchedEvaluation proof tp) logN (j + 1)).eval
      ((tp.geminiR ^ 2 ^ j) ^ 2) = foldValue proof tp logN (logN - (j + 1)) := by
    rw [square, foldLevel]
    by_cases last : j + 1 = logN
    · rw [if_pos last, eval_C, ← last, Nat.sub_self, foldValue]
    · have claim := positive (j + 1) (by omega)
      rw [OpeningClaim.Holds, positiveClaim, if_neg (Nat.succ_ne_zero j)] at claim
      rw [if_neg last, if_neg (Nat.succ_ne_zero j), claim]
  have index : logN - j = logN - (j + 1) + 1 := by omega
  have back : logN - (logN - (j + 1) + 1) = j := by omega
  have here := positive j less
  simp only [OpeningClaim.Holds, positiveClaim] at here
  simp only [OpeningClaim.Holds, negativeClaim] at negative
  refine eval_foldDefect_eq_zero (v := foldValue proof tp logN (logN - j))
    (a := geminiAEvaluation proof j) (pow_ne_zero _ challenge) distance next ?_ ?_ ?_
  · by_cases first : j = 0
    · subst first
      rw [if_pos rfl, eval_add, eval_smul, smul_eq_mul] at here
      rw [if_pos rfl, if_pos rfl, ← here, pow_zero, pow_one]
    · rw [if_neg first] at here
      rw [if_neg first, if_neg first, eval_zero, mul_zero, add_zero, here]
  · by_cases first : j = 0
    · subst first
      rw [if_pos rfl, eval_sub, eval_smul, smul_eq_mul] at negative
      rw [if_pos rfl, if_pos rfl, ← negative, pow_zero, pow_one]
    · rw [if_neg first] at negative
      rw [if_neg first, if_neg first, eval_zero, mul_zero, sub_zero, negative]
  · rw [index, foldValue, back]
    rfl

end Levels

section Degrees

variable {tp : Transcript} {parts : OpenedParts Fr[X]} {logN d : ℕ}

structure BoundedParts (d : ℕ) (parts : OpenedParts Fr[X]) : Prop where
  hidingPolynomial : parts.hidingPolynomial.natDegree ≤ d
  entity (i : ℕ) : i < numberOfEntities → (parts.entity i).natDegree ≤ d
  fold (j : ℕ) : (parts.fold j).natDegree ≤ d
  concatenation : parts.concatenation.natDegree ≤ d
  grandSum : parts.grandSum.natDegree ≤ d
  quotient : parts.quotient.natDegree ≤ d

namespace BoundedParts

variable (bounded : BoundedParts d parts)
include bounded

theorem unshiftedPart : (unshiftedPart tp parts).natDegree ≤ d := by
  have less : numberUnshifted ≤ numberOfEntities := by decide
  refine (natDegree_add_le _ _).trans (max_le bounded.hidingPolynomial ?_)
  refine natDegree_sum_le_of_forall_le _ _ fun i mem => (natDegree_smul_le _ _).trans ?_
  exact bounded.entity i ((Finset.mem_range.mp mem).trans_le less)

theorem shiftedPart : (shiftedPart tp parts).natDegree ≤ d := by
  refine natDegree_sum_le_of_forall_le _ _ fun i mem => (natDegree_smul_le _ _).trans ?_
  exact bounded.entity i (Finset.mem_Ico.mp mem).2

theorem foldLevel (value : Fr) (j : ℕ) : (foldLevel tp parts value logN j).natDegree ≤ d := by
  rw [Verifier.foldLevel]
  split_ifs
  · rw [natDegree_C]
    exact Nat.zero_le d
  · rw [batchedPolynomial_eq]
    refine (natDegree_add_le _ _).trans (max_le bounded.unshiftedPart ?_)
    exact natDegree_divX_le.trans bounded.shiftedPart
  · exact bounded.fold j

theorem levelDefect (value : Fr) (j : ℕ) :
    (levelDefect tp parts value logN j).natDegree ≤ 2 * d + 2 := by
  refine natDegree_foldDefect_le ?_ ?_ (bounded.foldLevel value (j + 1))
  · split_ifs
    · exact bounded.unshiftedPart
    · exact bounded.fold j
  · split_ifs
    · exact bounded.shiftedPart
    · rw [natDegree_zero]
      exact Nat.zero_le d

theorem openingClaim (proof : Proof) (e : ℕ) :
    (openingClaim proof tp logN parts e).commitment.natDegree ≤ d := by
  have first : (Verifier.unshiftedPart tp parts).natDegree ≤ d := bounded.unshiftedPart
  have second : (tp.geminiR⁻¹ • Verifier.shiftedPart tp parts).natDegree ≤ d :=
    (natDegree_smul_le _ _).trans bounded.shiftedPart
  have mask (index : ℕ) : (libraClaim proof tp parts index).commitment.natDegree ≤ d := by
    rcases index with _ | _ | _ | index
    · exact bounded.concatenation
    · exact bounded.grandSum
    · exact bounded.grandSum
    · exact bounded.quotient
  rw [Verifier.openingClaim]
  split_ifs
  · exact mask _
  · simp only [positiveClaim]
    split_ifs
    · exact (natDegree_add_le _ _).trans (max_le first second)
    · exact bounded.fold _
  · simp only [negativeClaim]
    split_ifs
    · exact (natDegree_sub_le _ _).trans (max_le first second)
    · exact bounded.fold _

end BoundedParts

end Degrees

section Counting

variable {G : Type} [AddCommGroup G] [Module Fr G] {OnCurve : G1Point → Prop}
  {denote : G1Point → G} {polys : OpenedParts Fr[X]} {sent : Proof} {prover : OpeningProver}
  {tp : Transcript} {logN d : ℕ}

theorem card_claimPowers_le (le : logN ≤ constProofSizeLogN) : (claimPowers logN).card ≤ 60 := by
  have most : constProofSizeLogN = 28 := rfl
  refine (Finset.card_union_le _ _).trans ?_
  rw [Finset.card_range, Nat.card_Ico]
  omega

theorem le_of_mem_claimPowers (le : logN ≤ constProofSizeLogN) {e : ℕ} (mem : e ∈ claimPowers logN) :
    e ≤ 61 := by
  have most : constProofSizeLogN = 28 := rfl
  have power : libraPower = 58 := rfl
  rcases Finset.mem_union.mp mem with fold | mask
  · have := Finset.mem_range.mp fold
    omega
  · have := (Finset.mem_Ico.mp mask).2
    omega

variable (polys sent prover tp) in
/-- A level with a defect leaves some claim wrong, but for few points. -/
theorem exists_wrong_claim (le : logN ≤ constProofSizeLogN) (ρ r : Fr) {j : ℕ} (less : j < logN)
    (challenge : r ≠ 0) (distances : ∀ i < logN, foldDenominator (tp.opening ρ r 0 0) i ≠ 0)
    (missing : (levelDefect (tp.opening ρ r 0 0) { polys with fold := prover.fold ρ }
      (batchedEvaluation (prover.claims sent ρ r) (tp.opening ρ r 0 0)) logN j).eval
        (r ^ 2 ^ j) ≠ 0) :
    ∃ e ∈ claimPowers logN, ¬ (prover.openingClaim polys sent tp logN ρ r e).Holds := by
  by_contra none
  have holds (e : ℕ) (mem : e ∈ claimPowers logN) :
      (prover.openingClaim polys sent tp logN ρ r e).Holds :=
    not_not.mp fun wrong => none ⟨e, mem, wrong⟩
  have inside {e : ℕ} (small : e < 2 * logN) : e ∈ claimPowers logN :=
    Finset.mem_union_left _ (Finset.mem_range.mpr small)
  refine missing (eval_levelDefect less challenge (distances j less) (fun i within => ?_) ?_)
  · have claim := holds (2 * i) (inside (by omega))
    rwa [OpeningProver.openingClaim, openingClaim_positive (by omega)] at claim
  · have claim := holds (2 * j + 1) (inside (by omega))
    rwa [OpeningProver.openingClaim, openingClaim_negative (by omega)] at claim

theorem evaluationErrors_ne_zero {u : ℕ → Fr}
    (wrong : sent.hidingPolynomialEvaluation ≠ multilinearValue u logN polys.hidingPolynomial ∨
      ∃ i < numberOfEntities, sent.sumcheckEvaluations.toList.getD i 0 ≠
        multilinearValue u logN (openedPolynomial polys i)) :
    evaluationErrors polys sent u logN ≠ 0 := by
  intro zero
  rcases wrong with first | ⟨i, less, column⟩
  · have coeff := coeff_evaluationErrors_zero polys sent u logN
    rw [zero, coeff_zero] at coeff
    exact first (sub_eq_zero.mp coeff.symm)
  · have coeff := coeff_evaluationErrors_succ polys sent u logN less
    rw [zero, coeff_zero] at coeff
    exact column (sub_eq_zero.mp coeff.symm)

variable (polys prover) in
theorem exists_levelDefect (positive : 0 < logN) {ρ : Fr}
    (lucky : (evaluationErrors polys sent (uChallenge tp) logN).eval ρ ≠ 0) :
    ∃ j < logN, levelDefect (tp.opening ρ 0 0 0) { polys with fold := prover.fold ρ }
      (batchedEvaluation sent (tp.opening ρ 0 0 0)) logN j ≠ 0 := by
  by_contra none
  have folds (j : ℕ) (less : j < logN) : levelDefect (tp.opening ρ 0 0 0)
      { polys with fold := prover.fold ρ } (batchedEvaluation sent (tp.opening ρ 0 0 0)) logN j = 0 :=
    not_not.mp fun missing => none ⟨j, less, missing⟩
  have value := multilinearValue_of_levels positive folds
  rw [eval_evaluationErrors ρ 0 0 0, ← value] at lucky
  exact lucky (sub_self _)

variable (positive : 0 < logN) (le : logN ≤ constProofSizeLogN)
  (free : denote G1Point.generator ≠ 0)
  (bounded : ∀ ρ, BoundedParts d { polys with fold := prover.fold ρ })
  (divided : ∀ ρ r ν, (prover.quotient ρ r ν).natDegree ≤ d)
  (opened : ∀ ρ r ν z, (prover.witness ρ r ν z).natDegree ≤ d)
include positive le free bounded divided opened

theorem card_wrong_claim_le {ρ r : Fr} {e : ℕ} (mem : e ∈ claimPowers logN)
    (wrong : ¬ (prover.openingClaim polys sent tp logN ρ r e).Holds)
    (passed : Finset (Fr × Fr × Fr))
    (accepted : ∀ draw ∈ passed, ∃ proof vk curve, OpeningAnswer OnCurve denote logN polys sent
      prover ρ r draw.1 draw.2.1 draw.2.2 proof vk curve ∧
        verifyShplemini proof (tp.opening ρ r draw.1 draw.2.1) curve vk = .ok ()) :
    passed.card ≤ (2 * d + 122) * modulus ^ 2 := by
  have points : (claimPoints (claimPowers logN)
      (prover.openingClaim polys sent tp logN ρ r)).card ≤ 60 :=
    Finset.card_image_le.trans (card_claimPowers_le le)
  have bound := card_opens_le mem wrong (fun e mem => le_of_mem_claimPowers le mem)
    (fun e _ => (bounded ρ).openingClaim _ e) (prover.quotient ρ r) (divided ρ r)
    (prover.witness ρ r) (opened ρ r) passed (fun draw inside => ?_) fun draw inside => ?_
  · simp only [ZMod.card] at bound
    refine bound.trans (Nat.mul_le_mul_right _ ?_)
    omega
  · obtain ⟨proof, vk, curve, answer, ok⟩ := accepted draw inside
    obtain ⟨outside, -, -⟩ := answer.vanishes positive le free ok
    intro here
    obtain ⟨k, found, same⟩ := Finset.mem_image.mp here
    rw [← OpeningProver.openingClaim_eq draw.1 draw.2.1] at same
    exact openingClaim_point_ne le positive outside found same.symm
  · obtain ⟨proof, vk, curve, answer, ok⟩ := accepted draw inside
    exact (answer.vanishes positive le free ok).2.2

/-- A prover who claims a wrong evaluation of a column is accepted for few of the challenges,
whatever it answers to them. -/
theorem shplemini_rejects_wrong_evaluations
    (wrong : sent.hidingPolynomialEvaluation ≠
        multilinearValue (uChallenge tp) logN polys.hidingPolynomial ∨
      ∃ i < numberOfEntities, sent.sumcheckEvaluations.toList.getD i 0 ≠
        multilinearValue (uChallenge tp) logN (openedPolynomial polys i))
    (passed : Finset (Fr × Fr × Fr × Fr × Fr))
    (accepted : ∀ draw ∈ passed, ∃ proof vk curve, OpeningAnswer OnCurve denote logN polys sent
      prover draw.1 draw.2.1 draw.2.2.1 draw.2.2.2.1 draw.2.2.2.2 proof vk curve ∧
        verifyShplemini proof (tp.opening draw.1 draw.2.1 draw.2.2.1 draw.2.2.2.1) curve vk =
          .ok ()) :
    passed.card ≤ (2 ^ logN * (d + 1) + 2 * d + 162) * modulus ^ 4 := by
  obtain ⟨cancelling, cancels⟩ :=
    exists_members fun ρ => (evaluationErrors polys sent (uChallenge tp) logN).eval ρ = 0
  have weights := card_roots_le (evaluationErrors_ne_zero wrong)
    (natDegree_evaluationErrors (uChallenge tp)) cancelling fun ρ mem => (cancels ρ).mp mem
  have fibers : ∀ ρ ∉ cancelling, ∀ fiber : Finset (Fr × Fr × Fr × Fr),
      (∀ later ∈ fiber, (ρ, later) ∈ passed) → fiber.card ≤
        2 ^ logN * (d + 1) * modulus ^ 3 + modulus * ((2 * d + 122) * modulus ^ 2) := by
    intro ρ lucky fiber inside
    obtain ⟨j, less, missing⟩ := exists_levelDefect polys prover positive
      fun zero => lucky ((cancels ρ).mpr zero)
    have expanded := (expand_ne_zero (Nat.two_pow_pos j)).mpr missing
    have degree : (expand Fr (2 ^ j) (levelDefect (tp.opening ρ 0 0 0)
        { polys with fold := prover.fold ρ } (batchedEvaluation sent (tp.opening ρ 0 0 0)) logN
          j)).natDegree ≤ 2 ^ logN * (d + 1) := by
      rw [natDegree_expand]
      have bound : (levelDefect (tp.opening ρ 0 0 0) { polys with fold := prover.fold ρ }
          (batchedEvaluation sent (tp.opening ρ 0 0 0)) logN j).natDegree ≤ 2 * d + 2 :=
        (bounded ρ).levelDefect _ j
      have power : 2 ^ (j + 1) ≤ 2 ^ logN := Nat.pow_le_pow_right two_pos less
      calc _ ≤ (2 * d + 2) * 2 ^ j := Nat.mul_le_mul_right _ bound
        _ = 2 ^ (j + 1) * (d + 1) := by ring
        _ ≤ 2 ^ logN * (d + 1) := Nat.mul_le_mul_right _ power
    obtain ⟨meeting, meets⟩ := exists_members fun r => (expand Fr (2 ^ j) (levelDefect
      (tp.opening ρ 0 0 0) { polys with fold := prover.fold ρ }
        (batchedEvaluation sent (tp.opening ρ 0 0 0)) logN j)).eval r = 0
    have points := card_roots_le expanded degree meeting fun r mem => (meets r).mp mem
    have pairs := card_pairs_le (k := (2 * d + 122) * modulus ^ 2) points fiber
      fun r good later chosen => ?_
    · simpa only [Fintype.card_prod, ZMod.card, pow_succ, pow_zero, one_mul, mul_assoc] using pairs
    · by_cases used : later.Nonempty
      · obtain ⟨draw, some⟩ := used
        obtain ⟨proof, vk, curve, answer, ok⟩ := accepted _ (inside _ (chosen draw some))
        obtain ⟨outside, distances, -⟩ := answer.vanishes positive le free ok
        obtain ⟨e, mem, false⟩ := exists_wrong_claim polys sent prover tp le ρ r less
          outside.challenge distances fun zero =>
            good ((meets r).mpr ((expand_eval _ _ _).trans zero))
        exact card_wrong_claim_le positive le free bounded divided opened mem false later
          fun draw mem => accepted _ (inside _ (chosen draw mem))
      · rw [Finset.not_nonempty_iff_eq_empty.mp used, Finset.card_empty]
        exact Nat.zero_le _
  have total := card_pairs_le weights passed fibers
  have entities : numberOfEntities = 40 := rfl
  simp only [Fintype.card_prod, ZMod.card] at total
  calc passed.card ≤ numberOfEntities * (modulus * (modulus * (modulus * modulus))) +
        modulus * (2 ^ logN * (d + 1) * modulus ^ 3 + modulus * ((2 * d + 122) * modulus ^ 2)) :=
        total
    _ = (2 ^ logN * (d + 1) + 2 * d + 162) * modulus ^ 4 := by
      rw [entities]
      ring

end Counting

section Sample

noncomputable def vanishingParts : OpenedParts Fr[X] where
  hidingPolynomial := 0
  entity _ := 0
  fold _ := 0
  concatenation := 0
  grandSum := 0
  quotient := 0

def overstatedProof : Proof := { smallProof with hidingPolynomialEvaluation := 1 }

noncomputable def vanishingProver : OpeningProver where
  fold _ _ := 0
  opposites _ _ := Vector.replicate _ 0
  mask _ _ := Vector.replicate _ 0
  quotient _ _ _ := 0
  witness _ _ _ _ := 0

theorem shplemini_rejects_wrong_evaluations_sample :
    ∃ passed : Finset (Fr × Fr × Fr × Fr × Fr),
      (∀ draw, draw ∈ passed ↔ ∃ proof vk curve,
        OpeningAnswer (fun _ => True) exponentOf 1 vanishingParts overstatedProof vanishingProver
          draw.1 draw.2.1 draw.2.2.1 draw.2.2.2.1 draw.2.2.2.2 proof vk curve ∧
        verifyShplemini proof (smallTranscript.opening draw.1 draw.2.1 draw.2.2.1 draw.2.2.2.1)
          curve vk = .ok ()) ∧
      passed.card ≤ (2 ^ 1 * (0 + 1) + 2 * 0 + 162) * modulus ^ 4 := by
  have generator : exponentOf G1Point.generator ≠ 0 := by decide
  have zero : (0 : Fr[X]).natDegree ≤ 0 := natDegree_zero.le
  have wrong : overstatedProof.hidingPolynomialEvaluation ≠
      multilinearValue (uChallenge smallTranscript) 1 vanishingParts.hidingPolynomial := by
    have value : multilinearValue (uChallenge smallTranscript) 1 0 = 0 := by
      simp [multilinearValue]
    exact fun same => one_ne_zero (same.trans value)
  obtain ⟨passed, passes⟩ := exists_members fun draw : Fr × Fr × Fr × Fr × Fr =>
    ∃ proof vk curve,
      OpeningAnswer (fun _ => True) exponentOf 1 vanishingParts overstatedProof vanishingProver
        draw.1 draw.2.1 draw.2.2.1 draw.2.2.2.1 draw.2.2.2.2 proof vk curve ∧
      verifyShplemini proof (smallTranscript.opening draw.1 draw.2.1 draw.2.2.1 draw.2.2.2.1)
        curve vk = .ok ()
  refine ⟨passed, passes, ?_⟩
  have bound := shplemini_rejects_wrong_evaluations (d := 0) (by decide) (by decide) generator
    (fun _ => ⟨zero, fun _ _ => zero, fun _ => zero, zero, zero, zero⟩) (fun _ _ _ => zero)
    (fun _ _ _ _ => zero) (.inl wrong) passed fun draw mem => (passes draw).mp mem
  exact bound

end Sample

end Zicket.Verifier
