import Zicket.Results.CommittedProver
import Zicket.Results.HonestTrace

/-! A proof for columns that need not satisfy anything. All rounds of the sumcheck are silent, and
what the relations leave is put into the mask: its claimed evaluation is not bound to the
commitment, since the grand sum of the mask may start where it has to. -/

namespace Zicket.Verifier

open Host Foundation Polynomial

variable {G : Type} [AddCommGroup G] [Module Fr G] {curve : Bn254} {OnCurve : G1Point → Prop}
  {denote : G1Point → G} {τ : Fr} {vk : VerificationKey} {n d : ℕ} {t t' : Transcript}

section Forger

theorem exists_walk (challenges : Vector Fr constProofSizeLogN) (claimed : Fr) :
    ∃ walk : Fr[X] × Fr[X], walk.1.natDegree ≤ subgroupSize - 1 ∧
      walk.2.natDegree ≤ subgroupSize - 1 ∧
        libraIdentity challenges 0 walk.1 walk.2 claimed = 0 := by
  obtain ⟨A, T, walked, divided, identity⟩ :=
    exists_identity le_rfl (natDegree_zero.trans_le (Nat.zero_le _)) challenges claimed
  exact ⟨(A, T), walked, divided, identity⟩

noncomputable def walk (challenges : Vector Fr constProofSizeLogN) (claimed : Fr) : Fr[X] × Fr[X] :=
  (exists_walk challenges claimed).choose

theorem walk_spec (challenges : Vector Fr constProofSizeLogN) (claimed : Fr) :
    (walk challenges claimed).1.natDegree ≤ subgroupSize - 1 ∧
      (walk challenges claimed).2.natDegree ≤ subgroupSize - 1 ∧
        libraIdentity challenges 0 (walk challenges claimed).1 (walk challenges claimed).2
          claimed = 0 :=
  (exists_walk challenges claimed).choose_spec

variable (pairing : Vector Fr pairingPointsSize) (column : ℕ → Fr[X])

noncomputable def unmaskedProver : CommittedProver where
  pairingPointObject := pairing
  column _ := column
  concatenation := 0
  libraSum := 0
  univariates _ := Vector.replicate _ (Vector.replicate _ 0)
  hidingPolynomial _ := 0
  claimed _ := 0
  grandSum _ := 0
  quotient _ := 0

variable (key : ℕ → Fr[X]) (n : ℕ)

noncomputable def residue (t : Transcript) : Fr :=
  accumulateRelationEvaluations
    (.ofFn fun i => (unmaskedProver pairing column).evaluation key n t i) t.relParams t.alphas
    (separator t n) * (1 - lastRows (challengePoint t n))

noncomputable def forgedClaim (t : Transcript) : Fr :=
  -(residue pairing column key n t * t.libraChallenge⁻¹)

/-- The silent prover, with a mask that makes up for the residue. -/
noncomputable def forger : CommittedProver :=
  { unmaskedProver pairing column with
    claimed := forgedClaim pairing column key n
    grandSum := fun t => (walk t.sumcheckUChallenges (forgedClaim pairing column key n t)).1
    quotient := fun t => (walk t.sumcheckUChallenges (forgedClaim pairing column key n t)).2 }

end Forger

section Forged

variable {pairing : Vector Fr pairingPointsSize} {column key : ℕ → Fr[X]}
  {commit : Fr[X] → G1Point}

open CommittedProver

theorem challengePoint_congr (same : CommittedProver.Before 33 t t') :
    challengePoint t n = challengePoint t' n := by
  funext j
  rw [challengePoint, challengePoint, same.uChallenge]

theorem residue_congr (same : Before 33 t t') :
    residue pairing column key n t = residue pairing column key n t' := by
  have params := Before.relParams (same.mono (by decide))
  have alphas : t.alphas = t'.alphas := same .alphas (by decide)
  have gates : t.gateChallenges = t'.gateChallenges := same .gates (by decide)
  have points : challengePoint t n = challengePoint t' n := challengePoint_congr same
  have columns (i : ℕ) : (unmaskedProver pairing column).evaluation key n t i =
      (unmaskedProver pairing column).evaluation key n t' i := by
    rw [evaluation, evaluation, same.uChallenge]
    rfl
  simp only [residue, columns, params, alphas, separator, gates, same.uChallenge, points]

theorem forger_isCausal : (forger pairing column key n).IsCausal where
  wires _ _ _ _ := rfl
  memory _ _ _ _ _ := rfl
  products _ _ _ := rfl
  rounds _ _ _ _ := rfl
  hidden _ _ _ := rfl
  masked t t' same := by
    have libra : t.libraChallenge = t'.libraChallenge := same .libra (by decide)
    have claim : forgedClaim pairing column key n t = forgedClaim pairing column key n t' := by
      rw [forgedClaim, forgedClaim, residue_congr same, libra]
    refine ⟨claim, ?_, ?_⟩
    · simp only [forger, claim, same.challenges]
    · simp only [forger, claim, same.challenges]

theorem roundUnivariate_forged (round : ℕ) :
    roundUnivariate ((forger pairing column key n).proof key commit n t) round =
      List.replicate batchedRelationPartialLength 0 := by
  have sent : ((forger pairing column key n).proof key commit n t).sumcheckUnivariates =
      Vector.replicate _ (Vector.replicate _ 0) := rfl
  rw [roundUnivariate, sent, Vector.toList_replicate, List.getD_eq_getElem?_getD,
    List.getElem?_replicate]
  split <;> simp

/-- The mask makes up for what the relations leave. -/
theorem forged_sumcheck (positive : 0 < n) (le : n ≤ constProofSizeLogN)
    (size : vk.logCircuitSize = n) (libra : t.libraChallenge ≠ 0) :
    verifySumcheck ((forger pairing column key n).proof key commit n t) t vk = .ok () := by
  have rounds : sumcheckRoundsTarget ((forger pairing column key n).proof key commit n t) t n =
      .ok (0, separator t n) := by
    have honest : Honest ((forger pairing column key n).proof key commit n t) t
        (0 : MvPolynomial (Fin n) Fr) := by
      intro i k _
      rw [roundUnivariate_forged, getD_replicate_zero]
      simp [partialSum]
    have sum : ((forger pairing column key n).proof key commit n t).libraSum = 0 := rfl
    have silent := sumcheckRoundsTarget_eq (fun i => by simp) (by simp [sum]) honest le_rfl
    simpa [fixedSum] using silent
  refine (verifySumcheck_of_rounds positive le size rounds).mpr ?_
  change residue pairing column key n t + forgedClaim pairing column key n t * t.libraChallenge = 0
  rw [forgedClaim, neg_mul, inv_mul_cancel_right₀ libra, add_neg_cancel]

theorem forged_libra (away : ∀ i < subgroupSize, t.geminiR ≠ subgroupGenerator ^ i) :
    checkLibraEvaluationsConsistency ((forger pairing column key n).proof key commit n t) t =
      .ok () := by
  obtain ⟨-, -, identity⟩ :=
    walk_spec t.sumcheckUChallenges (forgedClaim pairing column key n t)
  exact checkLibra_of_identity identity rfl away ⟨rfl, rfl, rfl, rfl⟩ rfl

structure AnyColumns (column : ℕ → Fr[X]) (n : ℕ) : Prop where
  small (i : ℕ) : i < 8 → (column i).natDegree < 2 ^ n
  starts (i : ℕ) : i < 5 → (column i).coeff 0 = 0

theorem forger_sized (columns : AnyColumns column n)
    (fixed : ∀ i < 27, (key i).natDegree < 2 ^ n) (rows : 2 ^ n ≤ d + 1)
    (enough : subgroupSize - 1 ≤ d) : (forger pairing column key n).Sized key n d where
  enough := rows
  key := fixed
  column _ := columns.small
  starts _ := columns.starts
  hidingPolynomial _ := natDegree_zero.trans_lt (Nat.two_pow_pos n)
  concatenation := natDegree_zero.trans_le (Nat.zero_le d)
  grandSum _ := (walk_spec _ _).1.trans enough
  quotient _ := (walk_spec _ _).2.1.trans enough

variable {contract : AnonymousClaimVerifier} {s : Statement} {inputs : Vector Fr 5}
  {hash32 : Bytes → BytesN 32}

/-- The contract accepts a proof for any columns and any inputs: the one that the forger writes
round by round, unless its challenges are degenerate. -/
theorem forgery_accepted (deployed : contract.toProving = honkProving hash32 curve)
    (loaded : loadVkFromBytes contract.verificationKey = .ok vk) (fits : s.Fits vk inputs)
    (laws : CurveLaws curve OnCurve denote τ) (setup : Setup OnCurve denote τ d commit)
    (enough : subgroupSize - 1 ≤ d) (rows : 2 ^ vk.logCircuitSize ≤ d + 1)
    (keyed : KeyOf OnCurve denote τ vk key)
    (fixed : ∀ i < 27, (key i).natDegree < 2 ^ vk.logCircuitSize)
    (columns : AnyColumns column vk.logCircuitSize) (pairing : Vector Fr pairingPointsSize) :
    ∃ (t : Transcript) (forged : Proof),
      forged = (forger pairing column key vk.logCircuitSize).proof key commit vk.logCircuitSize t ∧
      t = (s.withProof forged).transcript hash32 ∧
      (Nondegenerate (s.withProof forged) t vk.logCircuitSize →
        contract.verify forged.toBytes (pushScalars inputs) = some true) := by
  have wellFormed := wellFormed_of_load loaded
  have sized : (forger pairing column key vk.logCircuitSize).Sized key vk.logCircuitSize d :=
    forger_sized columns fixed rows enough
  obtain ⟨t, forged, written, answers, accepted⟩ :=
    exists_accepted forger_isCausal deployed loaded fits laws setup sized keyed
  refine ⟨t, forged, written, answers, fun nondegenerate => accepted nondegenerate ?_ ?_⟩
  · rw [written]
    exact forged_sumcheck wellFormed.positive wellFormed.le rfl nondegenerate.libra
  · rw [written]
    exact forged_libra nondegenerate.away

end Forged

section Sample

def blankKeyBytes : Bytes :=
  toBigEndian 8 8 ++ (toBigEndian 8 3 ++ (toBigEndian 8 21 ++ (toBigEndian 8 1 ++
    List.replicate 1728 0)))

def blankKey : VerificationKey := ⟨8, 3, 21, 1, List.replicate 27 (List.replicate 64 0)⟩

set_option maxRecDepth 10000 in
theorem blankKey_loads : loadVkFromBytes blankKeyBytes = .ok blankKey := by
  decide +kernel

def smallInputs : Vector Fr 5 := .ofFn fun i => Fr.fromU64 (i + 1)

def blankPairing : Vector Fr pairingPointsSize := Vector.replicate _ 0

def eightRowStatement : Statement where
  proof := default
  publicInputs := pushScalars smallInputs
  circuitSize := 8
  publicInputsSize := 21
  pubInputsOffset := 1
  circuitSize_lt := by decide
  publicInputsSize_lt := by decide
  pubInputsOffset_lt := by decide
  counted := congrArg (· + pairingPointsSize * 32) (pushScalars_length smallInputs)

/-- A hash that looks at the length only: of a round of the sumcheck or the last round, or else. -/
def lengthHash (bytes : Bytes) : BytesN 32 :=
  (Fr.fromU64 (if bytes.length = 160 ∨ bytes.length = 320 then 3 else 2)).toBytes

theorem hashToFr_lengthHash (bytes : Bytes) : hashToFr lengthHash bytes =
    Fr.fromU64 (if bytes.length = 160 ∨ bytes.length = 320 then 3 else 2) :=
  Fr.fromArray_toBytes _

theorem splitChallenge_small : splitChallenge (Fr.fromU64 2) = (Fr.fromU64 2, 0) ∧
    splitChallenge (Fr.fromU64 3) = (Fr.fromU64 3, 0) := by
  decide

set_option maxRecDepth 20000 in
theorem small_delta :
    (deltaState (pushScalars smallInputs) blankPairing (Fr.fromU64 2) 0 1 8).denominator ≠ 0 := by
  decide +kernel

variable {p : Proof} {t : Transcript}

theorem splitChallenge_lengthHash {c : Fr} {block : Bytes} (last : block.length ≠ 128)
    (round : block.length ≠ 288) :
    splitChallenge (hashToFr lengthHash (pushScalar c ++ block)) = (Fr.fromU64 2, 0) := by
  rw [hashToFr_lengthHash, List.length_append, pushScalar_length, if_neg (by omega)]
  exact splitChallenge_small.1

section Challenges

variable (s : Statement) (hash32 : Bytes → BytesN 32)

theorem transcript_split :
    ((s.transcript hash32).relParams.beta, (s.transcript hash32).relParams.gamma) =
      splitChallenge (hashToFr hash32 (pushScalar (s.afterEta hash32) ++
        pushPoints [s.proof.lookupReadCounts, s.proof.lookupReadTags, s.proof.w4])) ∧
    (s.transcript hash32).libraChallenge = (splitChallenge (hashToFr hash32
      (pushScalar (s.afterGates hash32) ++ s.proof.libraBlock))).1 ∧
    (s.transcript hash32).geminiR = (splitChallenge (hashToFr hash32
      (pushScalar (s.afterRho hash32) ++ s.proof.geminiBlock))).1 ∧
    (s.transcript hash32).shplonkZ = (splitChallenge (hashToFr hash32
      (pushScalar (s.afterShplonkNu hash32) ++ pushPoint s.proof.shplonkQ))).1 := by
  refine ⟨rfl, ?_, rfl, rfl⟩
  exact congrArg (fun challenge => (splitChallenge challenge).1) s.afterLibra_eq

theorem transcript_round {k : ℕ} (less : k < constProofSizeLogN) : ∃ previous,
    uChallenge (s.transcript hash32) k = (splitChallenge (hashToFr hash32
      (pushScalar previous ++ pushScalars s.proof.sumcheckUnivariates[k]))).1 := by
  have here : s.proof.sumcheckUnivariates.toList[k]? = some s.proof.sumcheckUnivariates[k] := by
    rw [Vector.getElem?_toList, Vector.getElem?_eq_getElem less]
  refine ⟨sumcheckRounds hash32 (s.afterLibra hash32)
    (s.proof.sumcheckUnivariates.toList.take k), ?_⟩
  change (Vector.ofFn fun r : Fin constProofSizeLogN => (splitChallenge (sumcheckRounds hash32
    (s.afterLibra hash32) (s.proof.sumcheckUnivariates.toList.take (r + 1)))).1).toList.getD k 0 = _
  rw [CommittedProver.getD_toList_ofFn less, List.take_add_one, here, sumcheckRounds,
    List.foldl_append]
  rfl

end Challenges

theorem eightRows_challenges (answers : t = (eightRowStatement.withProof p).transcript lengthHash) :
    (t.relParams.beta = Fr.fromU64 2 ∧ t.relParams.gamma = 0) ∧ t.libraChallenge = Fr.fromU64 2 ∧
      (∀ k < constProofSizeLogN, uChallenge t k = uChallenge smallTranscript k) ∧
      t.geminiR = smallTranscript.geminiR ∧ t.shplonkZ = smallTranscript.shplonkZ := by
  subst answers
  obtain ⟨products, libra, point, common⟩ :=
    transcript_split (eightRowStatement.withProof p) lengthHash
  have folds : (eightRowStatement.withProof p).proof.geminiBlock.length = 27 * 128 := by
    rw [Proof.geminiBlock, pushPoints_length, Vector.length_toList]
    rfl
  rw [splitChallenge_lengthHash (by simp) (by simp), Prod.mk.injEq] at products
  rw [splitChallenge_lengthHash (by simp [Proof.libraBlock]) (by simp [Proof.libraBlock])] at libra
  rw [splitChallenge_lengthHash (by simp [folds]) (by simp [folds])] at point
  rw [hashToFr_lengthHash, List.length_append, pushScalar_length, pushPoint_length,
    if_pos (by decide), splitChallenge_small.2] at common
  refine ⟨products, libra, fun k less => ?_, point, common⟩
  obtain ⟨previous, challenge⟩ :=
    transcript_round (eightRowStatement.withProof p) lengthHash less
  rw [hashToFr_lengthHash, List.length_append, pushScalar_length, pushScalars_length,
    if_pos (by decide), splitChallenge_small.2] at challenge
  exact challenge.trans (smallTranscript_uChallenge less).symm

theorem eightRows_nondegenerate (pairing : p.pairingPointObject = blankPairing)
    (answers : t = (eightRowStatement.withProof p).transcript lengthHash) :
    CommittedProver.Nondegenerate (eightRowStatement.withProof p) t 3 := by
  obtain ⟨⟨beta, gamma⟩, libra, challenges, point, common⟩ := eightRows_challenges answers
  have two : (Fr.fromU64 2) ≠ 0 := two_ne_zero_fr
  obtain ⟨nonzero, points, mask⟩ := smallTranscript_outside
  rw [← common, ← point] at mask points
  rw [← point] at nonzero
  refine ⟨?_, libra ▸ two, ⟨nonzero, points, mask⟩, fun j less => ?_, fun i less => ?_⟩
  · rw [beta, gamma, Statement.delta]
    simp only [Statement.withProof, pairing]
    exact small_delta
  · rw [foldDenominator, challenges j (less.trans (by decide)), point]
    exact smallTranscript_distances j less
  · rw [point]
    exact smallTranscript_not_power i less

def blankContract : AnonymousClaimVerifier :=
  { honkProving lengthHash (exponentCurve 5) with verificationKey := blankKeyBytes }

/-- Eight rows. A column `X` is one in the row 1 and zero elsewhere, the column of the products of
the permutation too. -/
theorem forgery_accepted_sample : ∃ (t : Transcript) (forged : Proof),
    forged = (forger blankPairing (fun _ => X) 0 3).proof 0 (exponentCommit 5) 3 t ∧
      t = (eightRowStatement.withProof forged).transcript lengthHash ∧
      blankContract.verify forged.toBytes (pushScalars smallInputs) = some true := by
  have deployed : blankContract.toProving = honkProving lengthHash (exponentCurve 5) := rfl
  have loaded : loadVkFromBytes blankContract.verificationKey = .ok blankKey := blankKey_loads
  have fits : eightRowStatement.Fits blankKey smallInputs := ⟨rfl, rfl, rfl, rfl⟩
  have fixed (i : ℕ) (_ : i < 27) :
      ((0 : ℕ → Fr[X]) i).natDegree < 2 ^ blankKey.logCircuitSize :=
    natDegree_zero.trans_lt (by decide)
  have columns : AnyColumns (fun _ => X) blankKey.logCircuitSize :=
    ⟨fun _ _ => natDegree_X_le.trans_lt (by decide), fun _ _ => coeff_X_zero⟩
  obtain ⟨t, forged, written, answers, accepted⟩ := forgery_accepted deployed loaded fits
    (exponentCurve_laws 5) (exponent_setup 5 255) (by decide) (by decide) (blank_keyed rfl) fixed
    columns blankPairing
  refine ⟨t, forged, written, answers, accepted (eightRows_nondegenerate ?_ answers)⟩
  rw [written]
  rfl

end Sample

end Zicket.Verifier
