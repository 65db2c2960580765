import Zicket.Foundation.SumcheckSoundness
import Zicket.Results.Forgery
import Zicket.Verifier.TraceRows

/-! A prover whose columns satisfy the relations. Its rounds are the sums over the rest of the
cube, masked by the polynomials of the concatenation; the proof that it writes is accepted by the
contract. -/

namespace Zicket.Verifier

open Host Foundation Polynomial

section Masks

variable {n : ℕ} {t t' : Transcript} {P : Fr[X]}

noncomputable def roundMask (P : Fr[X]) (k : ℕ) : Fr[X] :=
  ∑ j ∈ Finset.range batchedRelationPartialLength,
    monomial j (P.eval (subgroupGenerator ^ (1 + batchedRelationPartialLength * k + j)))

theorem natDegree_roundMask_le (k : ℕ) : (roundMask P k).natDegree ≤ 8 := by
  refine natDegree_sum_le_of_forall_le _ _ fun j mem => (natDegree_monomial_le _).trans ?_
  exact Nat.lt_succ_iff.mp (Finset.mem_range.mp mem)

noncomputable def maskAt (P : Fr[X]) (u : Fin n → Fr) : Fr :=
  P.eval 1 + ∑ k : Fin n, (roundMask P k).eval (u k)

theorem maskAt_degree (P : Fr[X]) : HasDegree 8 (maskAt (n := n) P) := by
  have rounds : HasDegree 8 fun u : Fin n → Fr => ∑ k : Fin n, (roundMask P k).eval (u k) :=
    HasDegree.sum fun k _ => (HasDegree.coordinate _ k).mono (natDegree_roundMask_le _)
  exact ((HasDegree.const (P.eval 1)).add rounds).mono (by decide)

/-- No round behind the circuit is masked. -/
def MasksOnly (P : Fr[X]) (n : ℕ) : Prop :=
  ∀ k, n ≤ k → k < constProofSizeLogN → ∀ j < batchedRelationPartialLength,
    P.eval (subgroupGenerator ^ (1 + batchedRelationPartialLength * k + j)) = 0

theorem maskValue_eq (masks : MasksOnly P n) (le : n ≤ constProofSizeLogN) :
    maskValue P t.sumcheckUChallenges = maskAt P (challengePoint t n) := by
  have value (k : ℕ) : (roundMask P k).eval (uChallenge t k) =
      ∑ j ∈ Finset.range batchedRelationPartialLength,
        P.eval (subgroupGenerator ^ (1 + batchedRelationPartialLength * k + j)) *
          t.sumcheckUChallenges.toList.getD k 0 ^ j := by
    rw [roundMask, eval_finsetSum]
    exact Finset.sum_congr rfl fun j _ => eval_monomial
  have later (k : ℕ) (mem : k ∈ Finset.range constProofSizeLogN) (outside : k ∉ Finset.range n) :
      (roundMask P k).eval (uChallenge t k) = 0 := by
    rw [value]
    refine Finset.sum_eq_zero fun j within => mul_eq_zero_of_left ?_ _
    exact masks k (by simpa using outside) (Finset.mem_range.mp mem) j (Finset.mem_range.mp within)
  have rounds : Finset.range n ⊆ Finset.range constProofSizeLogN := Finset.range_mono le
  rw [maskValue, maskAt, ← Finset.sum_congr rfl fun k _ => value k,
    ← Finset.sum_subset rounds later, Finset.sum_range]
  rfl

end Masks

section Honest

variable {n d : ℕ} {t t' : Transcript} {key : ℕ → Fr[X]}

/-- The columns that a prover computes from the challenges of the columns, and its masks. -/
structure Assignment (n d : ℕ) where
  pairing : Vector Fr pairingPointsSize
  column : RelationParameters → ℕ → Fr[X]
  hidingPolynomial : Fr[X]
  concatenation : Fr[X]
  wires (rp rp' : RelationParameters) (i : ℕ) : i < 3 → column rp i = column rp' i
  memory (rp rp' : RelationParameters) (i : ℕ) : rp.eta = rp'.eta → rp.etaTwo = rp'.etaTwo →
    rp.etaThree = rp'.etaThree → i = 3 ∨ 6 ≤ i → column rp i = column rp' i
  small (rp : RelationParameters) (i : ℕ) : i < 8 → (column rp i).natDegree < 2 ^ n
  starts (rp : RelationParameters) (i : ℕ) : i < 5 → (column rp i).coeff 0 = 0
  hidingSmall : hidingPolynomial.natDegree < 2 ^ n
  masked : concatenation.natDegree ≤ d
  masksOnly : MasksOnly concatenation n
  enough : subgroupSize - 1 ≤ d
  rows : 2 ^ n ≤ d + 1

namespace Assignment

variable (assignment : Assignment n d) (key : ℕ → Fr[X]) (t : Transcript)

noncomputable def columns (rp : RelationParameters) : Columns n :=
  traceColumns key (assignment.column rp) n

noncomputable def summed (u : Fin n → Fr) : Fr :=
  summand (assignment.columns key t.relParams) (maskAt assignment.concatenation) t u

theorem exists_walk (challenges : Vector Fr constProofSizeLogN) :
    ∃ walk : Fr[X] × Fr[X], walk.1.natDegree ≤ d ∧ walk.2.natDegree ≤ d ∧
      libraIdentity challenges assignment.concatenation walk.1 walk.2
        (maskValue assignment.concatenation challenges) = 0 := by
  obtain ⟨A, T, walked, divided, identity⟩ :=
    exists_identity assignment.enough assignment.masked challenges
      (maskValue assignment.concatenation challenges)
  exact ⟨(A, T), walked, divided, identity⟩

noncomputable def walk (challenges : Vector Fr constProofSizeLogN) : Fr[X] × Fr[X] :=
  (assignment.exists_walk challenges).choose

theorem walk_spec (challenges : Vector Fr constProofSizeLogN) :
    (assignment.walk challenges).1.natDegree ≤ d ∧ (assignment.walk challenges).2.natDegree ≤ d ∧
      libraIdentity challenges assignment.concatenation (assignment.walk challenges).1
        (assignment.walk challenges).2 (maskValue assignment.concatenation challenges) = 0 :=
  (assignment.exists_walk challenges).choose_spec

noncomputable def univariates :
    Vector (Vector Fr batchedRelationPartialLength) constProofSizeLogN :=
  .ofFn fun r => .ofFn fun k => if less : r.val < n then
    ∑ z ∈ partialPoints (challengePoint t n) ⟨r, less⟩ (k.val : Fr), assignment.summed key t z
  else 0

noncomputable def honest : CommittedProver where
  pairingPointObject := assignment.pairing
  column t := assignment.column t.relParams
  concatenation := assignment.concatenation
  libraSum := ∑ z ∈ cube n, maskAt assignment.concatenation z
  univariates := assignment.univariates key
  hidingPolynomial _ := assignment.hidingPolynomial
  claimed t := maskAt assignment.concatenation (challengePoint t n)
  grandSum t := (assignment.walk t.sumcheckUChallenges).1
  quotient t := (assignment.walk t.sumcheckUChallenges).2

end Assignment

end Honest

section Written

variable {G : Type} [AddCommGroup G] [Module Fr G] {curve : Bn254} {OnCurve : G1Point → Prop}
  {denote : G1Point → G} {τ : Fr} {vk : VerificationKey} {n d : ℕ} {t t' : Transcript}
  {key : ℕ → Fr[X]} {commit : Fr[X] → G1Point} {assignment : Assignment n d}

open CommittedProver

theorem summand_congr {cols : Columns n} {mask : (Fin n → Fr) → Fr} {u : Fin n → Fr}
    (same : Before 5 t t') : summand cols mask t u = summand cols mask t' u := by
  have params := Before.relParams (same.mono (by decide))
  have alphas : t.alphas = t'.alphas := same .alphas (by decide)
  have gates : t.gateChallenges = t'.gateChallenges := same .gates (by decide)
  have libra : t.libraChallenge = t'.libraChallenge := same .libra (by decide)
  simp only [summand, relationAt, rowSeparator, params, alphas, gates, libra]

theorem honest_isCausal (le : n ≤ constProofSizeLogN) : (assignment.honest key).IsCausal where
  wires t t' i less := assignment.wires t.relParams t'.relParams i less
  memory t t' i same place := by
    obtain ⟨eta, etaTwo, etaThree⟩ := same .eta (by decide)
    exact assignment.memory t.relParams t'.relParams i eta etaTwo etaThree place
  products t t' same := congrArg assignment.column same.relParams
  rounds t t' r same := by
    have before : Before 5 t t' := same.mono (Nat.le_add_right 5 r)
    have params := Before.relParams (before.mono (by decide))
    have points (inside : r.val < n) (k : Fr) :
        partialPoints (challengePoint t n) ⟨r, inside⟩ k =
          partialPoints (challengePoint t' n) ⟨r, inside⟩ k := by
      refine partialPoints_congr (fun j less => ?_) k
      have earlier : j.val < constProofSizeLogN := j.isLt.trans_le le
      have challenge := same (.sumcheck ⟨j, earlier⟩) (Nat.add_lt_add_left less 5)
      change t.sumcheckUChallenges.toList.getD j 0 = t'.sumcheckUChallenges.toList.getD j 0
      rw [List.getD_eq_getElem?_getD, List.getD_eq_getElem?_getD, Vector.getElem?_toList,
        Vector.getElem?_toList, Vector.getElem?_eq_getElem earlier,
        Vector.getElem?_eq_getElem earlier]
      exact challenge
    change (Vector.ofFn _)[r.val] = (Vector.ofFn _)[r.val]
    rw [Vector.getElem_ofFn, Vector.getElem_ofFn]
    refine congrArg Vector.ofFn (funext fun k => ?_)
    split
    case isTrue inside =>
      rw [points]
      simp only [Assignment.summed, params, summand_congr before]
    case isFalse => rfl
  hidden _ _ _ := rfl
  masked t t' same := by
    refine ⟨?_, ?_, ?_⟩
    · exact congrArg (maskAt assignment.concatenation) (challengePoint_congr same)
    · exact congrArg (fun challenges => (assignment.walk challenges).1) same.challenges
    · exact congrArg (fun challenges => (assignment.walk challenges).2) same.challenges

theorem honest_sized (fixed : ∀ i < 27, (key i).natDegree < 2 ^ n) :
    (assignment.honest key).Sized key n d where
  enough := assignment.rows
  key := fixed
  column t := assignment.small t.relParams
  starts t := assignment.starts t.relParams
  hidingPolynomial _ := assignment.hidingSmall
  concatenation := assignment.masked
  grandSum t := (assignment.walk_spec t.sumcheckUChallenges).1
  quotient t := (assignment.walk_spec t.sumcheckUChallenges).2.1

theorem openedPolynomial_honest (i : ℕ) :
    openedPolynomial ((assignment.honest key).unfolded key t) i =
      tracePolynomial key (assignment.column t.relParams) i := by
  have unshifted : numberUnshifted = 35 := rfl
  have entity (i : ℕ) : ((assignment.honest key).unfolded key t).entity i =
      if i < 27 then key i
      else if i < numberUnshifted then assignment.column t.relParams (i - 27)
      else assignment.column t.relParams (i - numberUnshifted) := rfl
  rw [openedPolynomial, tracePolynomial, entity]
  split_ifs <;> first | rfl | omega

theorem honest_sumcheck (le : n ≤ constProofSizeLogN) :
    HonestSumcheck (assignment.columns key t.relParams) (maskAt assignment.concatenation)
      ((assignment.honest key).proof key commit n t) t where
  libraSum := rfl
  rounds i k less := by
    have within : k < batchedRelationPartialLength := less
    have sent : ((assignment.honest key).proof key commit n t).sumcheckUnivariates =
        assignment.univariates key t := rfl
    rw [roundUnivariate, sent, Assignment.univariates,
      getD_toList_ofFn (i.isLt.trans_le le), getD_toList_ofFn within, dif_pos i.isLt]
    rfl
  evaluations := by
    have sent : ((assignment.honest key).proof key commit n t).sumcheckEvaluations =
        .ofFn fun i : Fin numberOfEntities => (assignment.honest key).evaluation key n t i := rfl
    funext wire
    rw [evaluationOf, sent, getD_toList_ofFn (ctorIdx_lt wire)]
    refine (multilinearValue_congr (fun j less => ?_) _).trans
      (congrArg (multilinearValue _ n) (openedPolynomial_honest _))
    exact (extended_lt (challengePoint t n) ⟨j, less⟩).symm
  claimed := rfl

theorem honest_libra (le : n ≤ constProofSizeLogN)
    (away : ∀ i < subgroupSize, t.geminiR ≠ subgroupGenerator ^ i) :
    checkLibraEvaluationsConsistency ((assignment.honest key).proof key commit n t) t =
      .ok () := by
  obtain ⟨-, -, identity⟩ := assignment.walk_spec t.sumcheckUChallenges
  refine checkLibra_of_identity identity rfl away ⟨rfl, rfl, rfl, rfl⟩ ?_
  exact (maskValue_eq assignment.masksOnly le).symm

section Accepted

variable {contract : AnonymousClaimVerifier} {s : Statement} {inputs : Vector Fr 5}
  {hash32 : Bytes → BytesN 32}

/-- The contract accepts the proof of columns that satisfy the relations at their challenges, unless
the challenges are degenerate. -/
theorem honest_accepted (deployed : contract.toProving = honkProving hash32 curve)
    (loaded : loadVkFromBytes contract.verificationKey = .ok vk) (fits : s.Fits vk inputs)
    (laws : CurveLaws curve OnCurve denote τ) (setup : Setup OnCurve denote τ d commit)
    (keyed : KeyOf OnCurve denote τ vk key)
    (fixed : ∀ i < 27, (key i).natDegree < 2 ^ vk.logCircuitSize)
    (assignment : Assignment vk.logCircuitSize d) :
    ∃ (t : Transcript) (proof : Proof),
      proof = (assignment.honest key).proof key commit vk.logCircuitSize t ∧
      t = (s.withProof proof).transcript hash32 ∧
      (Nondegenerate (s.withProof proof) t vk.logCircuitSize →
        Satisfied (assignment.columns key t.relParams) t.relParams →
          contract.verify proof.toBytes (pushScalars inputs) = some true) := by
  have wellFormed := wellFormed_of_load loaded
  have sized : (assignment.honest key).Sized key vk.logCircuitSize d := honest_sized fixed
  obtain ⟨t, proof, written, answers, accepted⟩ := exists_accepted (honest_isCausal wellFormed.le)
    deployed loaded fits laws setup sized keyed
  refine ⟨t, proof, written, answers, fun nondegenerate satisfied =>
    accepted nondegenerate ?_ ?_⟩
  · have messages : HonestSumcheck (assignment.columns key t.relParams)
        (maskAt assignment.concatenation) proof t := by
      rw [written]
      exact honest_sumcheck wellFormed.le
    have rounds := messages.target (maskAt_degree _) satisfied
    exact (verifySumcheck_of_target wellFormed.positive wellFormed.le rfl rounds
      messages.evaluations messages.claimed).mpr rfl
  · rw [written]
    exact honest_libra wellFormed.le nondegenerate.away

end Accepted

end Written

section Sample

/-- Zero at the coefficients of the rounds that the circuit does not have, and nowhere else. -/
noncomputable def threeRoundMask : Fr[X] :=
  ∏ i ∈ Finset.Ico 28 253, (X - C (subgroupGenerator ^ i))

theorem threeRoundMask_masksOnly : MasksOnly threeRoundMask 3 := by
  intro k above below j within
  rw [batchedRelationPartialLength] at within ⊢
  rw [constProofSizeLogN] at below
  rw [threeRoundMask, eval_prod]
  refine Finset.prod_eq_zero (i := 1 + 9 * k + j) (Finset.mem_Ico.mpr (by omega)) ?_
  rw [eval_sub, eval_X, eval_C, sub_self]

theorem natDegree_threeRoundMask_le : threeRoundMask.natDegree ≤ 255 := by
  refine (natDegree_prod_le _ _).trans ?_
  simp only [natDegree_X_sub_C, Finset.sum_const, Nat.card_Ico]
  decide

/-- Eight rows of free wires: no gate of the key is on. -/
noncomputable def freeAssignment : Assignment 3 255 where
  pairing := blankPairing
  column _ i := if i < 4 then X else 0
  hidingPolynomial := X + 1
  concatenation := threeRoundMask
  wires _ _ _ _ := rfl
  memory _ _ _ _ _ _ _ := rfl
  small _ i _ := by
    split
    · exact natDegree_X_le.trans_lt (by decide)
    · exact natDegree_zero.trans_lt (by decide)
  starts _ i _ := by
    split
    · exact coeff_X_zero
    · exact coeff_zero 0
  hidingSmall := (natDegree_X_add_C (1 : Fr)).trans_lt (by decide)
  masked := natDegree_threeRoundMask_le
  masksOnly := threeRoundMask_masksOnly
  enough := le_rfl
  rows := by decide

def Wire.isFree : Wire → Bool
  | .wl | .wr | .wo | .w4 | .wlShift | .wrShift | .woShift | .w4Shift => true
  | _ => false

theorem freeAssignment_column (rp : RelationParameters) {wire : Wire} (fixed : wire.isFree = false)
    (u : Fin 3 → Fr) : (freeAssignment.columns 0 rp).column wire u = 0 := by
  have blank : tracePolynomial 0 (freeAssignment.column rp) wire.ctorIdx = 0 := by
    cases wire <;> first | exact absurd fixed (by decide) | rfl | exact divX_zero
  change multilinearValue _ 3 (tracePolynomial 0 (freeAssignment.column rp) wire.ctorIdx) = 0
  simp [blank, multilinearValue]

theorem subrelations_free {p : Wire → Fr} (fixed : ∀ wire : Wire, wire.isFree = false → p wire = 0)
    (rp : RelationParameters) (domainSep : Fr) :
    subrelations p rp domainSep = List.replicate 26 0 := by
  unfold subrelations accumulateArithmeticRelation accumulatePermutationRelation
    accumulateLogDerivativeLookupRelation accumulateDeltaRangeRelation accumulateEllipticRelation
    accumulateAuxiliaryRelation accumulatePoseidonExternalRelation
    accumulatePoseidonInternalRelation
  simp (disch := decide) only [fixed]
  simp [List.replicate]

theorem freeAssignment_satisfied (rp : RelationParameters) :
    Satisfied (freeAssignment.columns 0 rp) rp := by
  have row (u : Fin 3 → Fr) : (freeAssignment.columns 0 rp).row u rp = List.replicate 26 0 :=
    subrelations_free (fun _ fixed => freeAssignment_column rp fixed u) rp 1
  refine ⟨fun z _ k _ => ?_, Finset.sum_eq_zero fun z _ => ?_⟩
  · rw [row, getD_replicate_zero]
  · rw [row, getD_replicate_zero]

theorem honest_accepted_sample : ∃ (t : Transcript) (proof : Proof),
    proof = (freeAssignment.honest 0).proof 0 (exponentCommit 5) 3 t ∧
      t = (eightRowStatement.withProof proof).transcript lengthHash ∧
      blankContract.verify proof.toBytes (pushScalars smallInputs) = some true := by
  have deployed : blankContract.toProving = honkProving lengthHash (exponentCurve 5) := rfl
  have loaded : loadVkFromBytes blankContract.verificationKey = .ok blankKey := blankKey_loads
  have fits : eightRowStatement.Fits blankKey smallInputs := ⟨rfl, rfl, rfl, rfl⟩
  have fixed (i : ℕ) (_ : i < 27) :
      ((0 : ℕ → Fr[X]) i).natDegree < 2 ^ blankKey.logCircuitSize :=
    natDegree_zero.trans_lt (by decide)
  obtain ⟨t, proof, written, answers, accepted⟩ := honest_accepted deployed loaded fits
    (exponentCurve_laws 5) (exponent_setup 5 255) (blank_keyed rfl) fixed freeAssignment
  refine ⟨t, proof, written, answers,
    accepted (eightRows_nondegenerate ?_ answers) (freeAssignment_satisfied _)⟩
  rw [written]
  rfl

end Sample

end Zicket.Verifier
