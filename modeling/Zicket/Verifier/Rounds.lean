import Zicket.Verifier.Transcript

/-! The rounds of the transcript as one hash chain: the block each round puts behind the challenge
before it, in the order of the proof. -/

namespace Zicket.Verifier

open Host Foundation

/-- What a transcript is generated from. The inputs are whole words, and their number is counted
with the pairing points. -/
structure Statement where
  proof : Proof
  publicInputs : Bytes
  circuitSize : ℕ
  publicInputsSize : ℕ
  pubInputsOffset : ℕ
  circuitSize_lt : circuitSize < 2 ^ 64
  publicInputsSize_lt : publicInputsSize < 2 ^ 64
  pubInputsOffset_lt : pubInputsOffset < 2 ^ 64
  counted : publicInputs.length + pairingPointsSize * 32 = publicInputsSize * 32

/-- A round ends with the running challenge it leaves. -/
inductive Round where
  | eta
  | betaGamma
  | alphas
  | gates
  | libra
  | sumcheck (r : Fin constProofSizeLogN)
  | rho
  | geminiR
  | shplonkNu
  | shplonkZ

namespace Round

def sumchecks : List Round := (List.finRange constProofSizeLogN).map .sumcheck

def upTo : Round → List Round
  | .eta => [.eta]
  | .betaGamma => [.eta, .betaGamma]
  | .alphas => [.eta, .betaGamma, .alphas]
  | .gates => [.eta, .betaGamma, .alphas, .gates]
  | .libra => [.eta, .betaGamma, .alphas, .gates, .libra]
  | .sumcheck r => [.eta, .betaGamma, .alphas, .gates, .libra] ++ sumchecks.take (r + 1)
  | .rho => [.eta, .betaGamma, .alphas, .gates, .libra] ++ sumchecks ++ [.rho]
  | .geminiR => [.eta, .betaGamma, .alphas, .gates, .libra] ++ sumchecks ++ [.rho, .geminiR]
  | .shplonkNu =>
    [.eta, .betaGamma, .alphas, .gates, .libra] ++ sumchecks ++ [.rho, .geminiR, .shplonkNu]
  | .shplonkZ =>
    [.eta, .betaGamma, .alphas, .gates, .libra] ++ sumchecks ++
      [.rho, .geminiR, .shplonkNu, .shplonkZ]

theorem mem_upTo_last (round : Round) : round ∈ upTo .shplonkZ := by
  cases round with
  | sumcheck r => simp [upTo, sumchecks]
  | _ => simp [upTo]

end Round

namespace Proof

variable (proof : Proof)

def libraBlock : Bytes :=
  pushPoint proof.libraConcatenationCommitment ++ pushScalar proof.libraSum

def rhoBlock : Bytes :=
  pushScalars proof.sumcheckEvaluations ++ (pushScalar proof.libraClaimedEvaluation ++
    (pushPoint proof.libraGrandSumCommitment ++ (pushPoint proof.libraQuotientCommitment ++
    (pushPoint proof.hidingPolynomialCommitment ++
      pushScalar proof.hidingPolynomialEvaluation))))

def geminiBlock : Bytes := pushPoints proof.geminiFoldComms.toList

def nuBlock : Bytes :=
  pushScalars proof.geminiAEvaluations ++ pushScalars proof.libraPolynomialEvaluations

end Proof

namespace Statement

variable (s : Statement)

def header : Bytes :=
  u64ToBe32 s.circuitSize ++ (u64ToBe32 s.publicInputsSize ++ (u64ToBe32 s.pubInputsOffset ++
    (s.publicInputs ++ (pushScalars s.proof.pairingPointObject ++
      pushPoints [s.proof.w1, s.proof.w2, s.proof.w3]))))

/-- The blocks behind the first challenge. The duplex steps hash nothing of the proof. -/
def blocks : Round → List Bytes
  | .eta => [[]]
  | .betaGamma => [pushPoints [s.proof.lookupReadCounts, s.proof.lookupReadTags, s.proof.w4]]
  | .alphas => pushPoints [s.proof.lookupInverses, s.proof.zPerm] :: List.replicate 12 []
  | .gates => List.replicate 28 []
  | .libra => [s.proof.libraBlock]
  | .sumcheck r => [pushScalars s.proof.sumcheckUnivariates[r]]
  | .rho => [s.proof.rhoBlock]
  | .geminiR => [s.proof.geminiBlock]
  | .shplonkNu => [s.proof.nuBlock]
  | .shplonkZ => [pushPoint s.proof.shplonkQ]

section Running

variable (hash32 : Bytes → BytesN 32)

def afterEta : Fr :=
  (generateEtaChallenge hash32 s.proof s.publicInputs s.circuitSize s.publicInputsSize
    s.pubInputsOffset).2.2.2

def afterRelations : Fr :=
  (generateRelationParametersChallenges hash32 s.proof s.publicInputs s.circuitSize
    s.publicInputsSize s.pubInputsOffset).2

def afterAlphas : Fr := (generateAlphaChallenges hash32 (s.afterRelations hash32) s.proof).2

def afterGates : Fr := (generateGateChallenges hash32 (s.afterAlphas hash32)).2

def afterLibra : Fr := (generateLibraChallenge hash32 s.proof (s.afterGates hash32)).2

def afterSumcheck : Fr := (generateSumcheckChallenges hash32 s.proof (s.afterLibra hash32)).2

def afterRho : Fr := (generateRhoChallenge hash32 s.proof (s.afterSumcheck hash32)).2

def afterGeminiR : Fr := (generateGeminiRChallenge hash32 s.proof (s.afterRho hash32)).2

def afterShplonkNu : Fr := (generateShplonkNuChallenge hash32 s.proof (s.afterGeminiR hash32)).2

def afterShplonkZ : Fr := (generateShplonkZChallenge hash32 s.proof (s.afterShplonkNu hash32)).2

def runningChallenge : Round → Fr
  | .eta => s.afterEta hash32
  | .betaGamma => s.afterRelations hash32
  | .alphas => s.afterAlphas hash32
  | .gates => s.afterGates hash32
  | .libra => s.afterLibra hash32
  | .sumcheck r =>
    sumcheckRounds hash32 (s.afterLibra hash32) (s.proof.sumcheckUnivariates.toList.take (r + 1))
  | .rho => s.afterRho hash32
  | .geminiR => s.afterGeminiR hash32
  | .shplonkNu => s.afterShplonkNu hash32
  | .shplonkZ => s.afterShplonkZ hash32

/-- The challenges of the transcript are halves of the running challenges. -/
theorem generateTranscript_eq : ∃ transcript,
    generateTranscript hash32 s.proof s.publicInputs s.circuitSize s.publicInputsSize
      s.pubInputsOffset = .ok transcript ∧
    (transcript.relParams.beta, transcript.relParams.gamma) =
      splitChallenge (s.runningChallenge hash32 .betaGamma) ∧
    transcript.libraChallenge = (splitChallenge (s.runningChallenge hash32 .libra)).1 ∧
    (∀ r : Fin constProofSizeLogN, transcript.sumcheckUChallenges[r] =
      (splitChallenge (s.runningChallenge hash32 (.sumcheck r))).1) ∧
    transcript.rho = (splitChallenge (s.runningChallenge hash32 .rho)).1 ∧
    transcript.geminiR = (splitChallenge (s.runningChallenge hash32 .geminiR)).1 ∧
    transcript.shplonkNu = (splitChallenge (s.runningChallenge hash32 .shplonkNu)).1 ∧
    transcript.shplonkZ = (splitChallenge (s.runningChallenge hash32 .shplonkZ)).1 := by
  unfold generateTranscript
  rw [validateProof_eq_ok]
  refine ⟨_, rfl, rfl, rfl, fun r => ?_, rfl, rfl, rfl, rfl⟩
  exact Vector.getElem_ofFn r.isLt

section Chain

variable {hash32 : Bytes → BytesN 32} {c : Fr} {s : Statement}

def chain (hash32 : Bytes → BytesN 32) (c : Fr) (blocks : List Bytes) : Fr :=
  squeeze (hashToFr hash32) pushScalar c blocks

theorem duplex_eq (count : ℕ) :
    duplex hash32 c count = chain hash32 c (List.replicate count []) := by
  induction count with
  | zero => rfl
  | succ count ih =>
    rw [duplex, ih, List.replicate_succ', chain, chain, squeeze_append, squeeze_cons, squeeze_nil,
      absorb, List.append_nil]

theorem sumcheckRounds_eq (univariates : List (Vector Fr batchedRelationPartialLength)) :
    sumcheckRounds hash32 c univariates = chain hash32 c (univariates.map pushScalars) := by
  rw [chain, squeeze, List.foldl_map]
  rfl

theorem chain_append (front back : List Bytes) :
    chain hash32 c (front ++ back) = chain hash32 (chain hash32 c front) back :=
  squeeze_append

theorem afterEta_eq : s.afterEta hash32 = chain hash32 (hashToFr hash32 s.header) (s.blocks .eta) := by
  have data : u64ToBe32 s.circuitSize ++ u64ToBe32 s.publicInputsSize ++
      u64ToBe32 s.pubInputsOffset ++ s.publicInputs ++ pushScalars s.proof.pairingPointObject ++
      pushPoints [s.proof.w1, s.proof.w2, s.proof.w3] = s.header := by
    simp only [header, List.append_assoc]
  change hashToFr hash32 (pushScalar (hashToFr hash32 _)) = hashToFr hash32 (pushScalar _ ++ [])
  rw [data, List.append_nil]

theorem afterRelations_eq : s.afterRelations hash32 =
    chain hash32 (s.afterEta hash32) (s.blocks .betaGamma) := rfl

theorem afterAlphas_eq : s.afterAlphas hash32 =
    chain hash32 (s.afterRelations hash32) (s.blocks .alphas) := by
  rw [afterAlphas, generateAlphaChallenges, duplex_eq]
  rfl

theorem afterGates_eq : s.afterGates hash32 =
    chain hash32 (s.afterAlphas hash32) (s.blocks .gates) := by
  rw [afterGates, generateGateChallenges, duplex_eq]
  rfl

theorem afterLibra_eq : s.afterLibra hash32 =
    chain hash32 (s.afterGates hash32) (s.blocks .libra) := by
  change hashToFr hash32 (_ ++ _ ++ _) = hashToFr hash32 (_ ++ (_ ++ _))
  rw [List.append_assoc]

theorem sumchecks_take_blocks (count : ℕ) : (Round.sumchecks.take count).flatMap s.blocks =
    (s.proof.sumcheckUnivariates.toList.take count).map pushScalars := by
  have rows : s.proof.sumcheckUnivariates.toList =
      (List.finRange constProofSizeLogN).map fun r => s.proof.sumcheckUnivariates[r] :=
    List.ext_getElem (by simp) fun i _ _ => by simp
  rw [rows, Round.sumchecks, ← List.map_take, ← List.map_take, List.map_map, List.flatMap_map]
  exact List.map_eq_flatMap.symm

theorem sumchecks_blocks (s : Statement) : Round.sumchecks.flatMap s.blocks =
    s.proof.sumcheckUnivariates.toList.map pushScalars := by
  have rows := sumchecks_take_blocks (s := s) constProofSizeLogN
  rwa [List.take_of_length_le (by simp [Round.sumchecks]),
    List.take_of_length_le (by simp)] at rows

theorem afterRho_eq : s.afterRho hash32 =
    chain hash32 (s.afterSumcheck hash32) (s.blocks .rho) := by
  change hashToFr hash32 _ = hashToFr hash32 (pushScalar _ ++ s.proof.rhoBlock)
  simp only [Proof.rhoBlock, List.append_assoc]

theorem afterGeminiR_eq : s.afterGeminiR hash32 =
    chain hash32 (s.afterRho hash32) (s.blocks .geminiR) := rfl

theorem afterShplonkNu_eq : s.afterShplonkNu hash32 =
    chain hash32 (s.afterGeminiR hash32) (s.blocks .shplonkNu) := by
  change hashToFr hash32 (_ ++ _ ++ _) = hashToFr hash32 (_ ++ (_ ++ _))
  rw [List.append_assoc]

theorem afterShplonkZ_eq : s.afterShplonkZ hash32 =
    chain hash32 (s.afterShplonkNu hash32) (s.blocks .shplonkZ) := rfl

theorem chain_rounds_nil : chain hash32 c (([] : List Round).flatMap s.blocks) = c := rfl

theorem chain_rounds_cons (round : Round) (rounds : List Round) :
    chain hash32 c ((round :: rounds).flatMap s.blocks) =
      chain hash32 (chain hash32 c (s.blocks round)) (rounds.flatMap s.blocks) := by
  rw [List.flatMap_cons, chain_append]

theorem afterLibra_chain : chain hash32 (hashToFr hash32 s.header)
    ([Round.eta, .betaGamma, .alphas, .gates, .libra].flatMap s.blocks) =
      s.afterLibra hash32 := by
  simp only [chain_rounds_cons, chain_rounds_nil, ← afterEta_eq, ← afterRelations_eq,
    ← afterAlphas_eq, ← afterGates_eq, ← afterLibra_eq]

theorem afterSumcheck_chain : chain hash32 (hashToFr hash32 s.header)
    (([Round.eta, .betaGamma, .alphas, .gates, .libra] ++ Round.sumchecks).flatMap s.blocks) =
      s.afterSumcheck hash32 := by
  rw [List.flatMap_append, chain_append, afterLibra_chain, sumchecks_blocks, ← sumcheckRounds_eq]
  rfl

/-- The running challenge of a round is the chain over the rounds up to it. -/
theorem runningChallenge_eq (round : Round) : s.runningChallenge hash32 round =
    chain hash32 (hashToFr hash32 s.header) (round.upTo.flatMap s.blocks) := by
  cases round with
  | sumcheck r =>
    rw [Round.upTo, List.flatMap_append, chain_append, afterLibra_chain, sumchecks_take_blocks,
      ← sumcheckRounds_eq, runningChallenge]
  | rho | geminiR | shplonkNu | shplonkZ =>
    -- the rounds behind the sumcheck
    rw [Round.upTo, List.flatMap_append, chain_append, afterSumcheck_chain]
    simp only [runningChallenge, chain_rounds_cons, chain_rounds_nil, ← afterRho_eq,
      ← afterGeminiR_eq, ← afterShplonkNu_eq, ← afterShplonkZ_eq]
  | _ =>
    simp only [runningChallenge, Round.upTo, chain_rounds_cons, chain_rounds_nil, ← afterEta_eq,
      ← afterRelations_eq, ← afterAlphas_eq, ← afterGates_eq, ← afterLibra_eq]

end Chain

end Running

end Statement

end Zicket.Verifier
