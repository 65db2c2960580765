import Zicket.Foundation.HashChain
import Zicket.Verifier.Proof

/-! The Fiat–Shamir transcript: what each round hashes, and the challenges that are split from
the digests. The hash of the host is a parameter. -/

namespace Zicket.Verifier

open Host Foundation

def numberOfSubrelations : ℕ := 26

def numberOfAlphas : ℕ := numberOfSubrelations - 1

structure RelationParameters where
  eta : Fr
  etaTwo : Fr
  etaThree : Fr
  beta : Fr
  gamma : Fr
  publicInputsDelta : Fr
  deriving Inhabited

structure Transcript where
  relParams : RelationParameters
  alphas : Vector Fr numberOfAlphas
  gateChallenges : Vector Fr constProofSizeLogN
  libraChallenge : Fr
  sumcheckUChallenges : Vector Fr constProofSizeLogN
  rho : Fr
  geminiR : Fr
  shplonkNu : Fr
  shplonkZ : Fr
  deriving Inhabited

def splitChallengeFromBe32 (challengeBytes : BytesN 32) : Fr × Fr :=
  (Fr.fromArray (toArray 32 (List.replicate 16 0 ++ challengeBytes.toList.drop 16)),
    Fr.fromArray (toArray 32 (List.replicate 16 0 ++ challengeBytes.toList.take 16)))

def splitChallenge (challenge : Fr) : Fr × Fr := splitChallengeFromBe32 challenge.toBytes

def u64ToBe32 (x : ℕ) : Bytes := List.replicate 24 0 ++ toBigEndian 8 x

section Rounds

variable (hash32 : Bytes → BytesN 32)

def hashToFr (bytes : Bytes) : Fr := Fr.fromArray (hash32 bytes)

/-- The challenge is hashed alone, `count` times in a row. -/
def duplex (challenge : Fr) : (count : ℕ) → Fr
  | 0 => challenge
  | count + 1 => hashToFr hash32 (pushScalar (duplex challenge count))

def generateEtaChallenge (proof : Proof) (publicInputs : Bytes)
    (circuitSize publicInputsSize pubInputsOffset : ℕ) : Fr × Fr × Fr × Fr :=
  let data := u64ToBe32 circuitSize ++ u64ToBe32 publicInputsSize ++ u64ToBe32 pubInputsOffset ++
    publicInputs ++ pushScalars proof.pairingPointObject ++
    pushPoints [proof.w1, proof.w2, proof.w3]
  let first := hashToFr hash32 data
  let (eta, etaTwo) := splitChallenge first
  let second := hashToFr hash32 (pushScalar first)
  let (etaThree, _) := splitChallenge second
  (eta, etaTwo, etaThree, second)

def generateBetaAndGammaChallenges (previousChallenge : Fr) (proof : Proof) : Fr × Fr × Fr :=
  let data := pushScalar previousChallenge ++
    pushPoints [proof.lookupReadCounts, proof.lookupReadTags, proof.w4]
  let nextPreviousChallenge := hashToFr hash32 data
  let (beta, gamma) := splitChallenge nextPreviousChallenge
  (beta, gamma, nextPreviousChallenge)

/-- Two of the alphas come from each digest, but one from the last: their number is odd. -/
def generateAlphaChallenges (previousChallenge : Fr) (proof : Proof) :
    Vector Fr numberOfAlphas × Fr :=
  let data := pushScalar previousChallenge ++ pushPoints [proof.lookupInverses, proof.zPerm]
  let first := hashToFr hash32 data
  let alphas := .ofFn fun i =>
    let (lo, hi) := splitChallenge (duplex hash32 first (i / 2))
    if i.val % 2 = 0 then lo else hi
  (alphas, duplex hash32 first (numberOfAlphas / 2))

def generateRelationParametersChallenges (proof : Proof) (publicInputs : Bytes)
    (circuitSize publicInputsSize pubInputsOffset : ℕ) : RelationParameters × Fr :=
  let (eta, etaTwo, etaThree, previousChallenge) :=
    generateEtaChallenge hash32 proof publicInputs circuitSize publicInputsSize pubInputsOffset
  let (beta, gamma, nextPreviousChallenge) :=
    generateBetaAndGammaChallenges hash32 previousChallenge proof
  -- the delta is filled in later by the verifier
  ({ eta, etaTwo, etaThree, beta, gamma, publicInputsDelta := 0 }, nextPreviousChallenge)

def generateGateChallenges (previousChallenge : Fr) : Vector Fr constProofSizeLogN × Fr :=
  (.ofFn fun i => (splitChallenge (duplex hash32 previousChallenge (i + 1))).1,
    duplex hash32 previousChallenge constProofSizeLogN)

def generateLibraChallenge (proof : Proof) (previousChallenge : Fr) : Fr × Fr :=
  let data := pushScalar previousChallenge ++ pushPoint proof.libraConcatenationCommitment ++
    pushScalar proof.libraSum
  let nextPreviousChallenge := hashToFr hash32 data
  ((splitChallenge nextPreviousChallenge).1, nextPreviousChallenge)

/-- The running challenge after the univariates of a list, one round for each. -/
def sumcheckRounds (previousChallenge : Fr)
    (univariates : List (Vector Fr batchedRelationPartialLength)) : Fr :=
  univariates.foldl
    (fun challenge univariate => hashToFr hash32 (pushScalar challenge ++ pushScalars univariate))
    previousChallenge

def generateSumcheckChallenges (proof : Proof) (previousChallenge : Fr) :
    Vector Fr constProofSizeLogN × Fr :=
  let univariates := proof.sumcheckUnivariates.toList
  (.ofFn fun r =>
    (splitChallenge (sumcheckRounds hash32 previousChallenge (univariates.take (r + 1)))).1,
    sumcheckRounds hash32 previousChallenge univariates)

def generateRhoChallenge (proof : Proof) (previousChallenge : Fr) : Fr × Fr :=
  let data := pushScalar previousChallenge ++ pushScalars proof.sumcheckEvaluations ++
    pushScalar proof.libraClaimedEvaluation ++ pushPoint proof.libraGrandSumCommitment ++
    pushPoint proof.libraQuotientCommitment ++ pushPoint proof.hidingPolynomialCommitment ++
    pushScalar proof.hidingPolynomialEvaluation
  let nextPreviousChallenge := hashToFr hash32 data
  ((splitChallenge nextPreviousChallenge).1, nextPreviousChallenge)

def generateGeminiRChallenge (proof : Proof) (previousChallenge : Fr) : Fr × Fr :=
  let data := pushScalar previousChallenge ++ pushPoints proof.geminiFoldComms.toList
  let nextPreviousChallenge := hashToFr hash32 data
  ((splitChallenge nextPreviousChallenge).1, nextPreviousChallenge)

def generateShplonkNuChallenge (proof : Proof) (previousChallenge : Fr) : Fr × Fr :=
  let data := pushScalar previousChallenge ++ pushScalars proof.geminiAEvaluations ++
    pushScalars proof.libraPolynomialEvaluations
  let nextPreviousChallenge := hashToFr hash32 data
  ((splitChallenge nextPreviousChallenge).1, nextPreviousChallenge)

def generateShplonkZChallenge (proof : Proof) (previousChallenge : Fr) : Fr × Fr :=
  let data := pushScalar previousChallenge ++ pushPoint proof.shplonkQ
  let nextPreviousChallenge := hashToFr hash32 data
  ((splitChallenge nextPreviousChallenge).1, nextPreviousChallenge)

/-- The types of the arrays leave nothing to fail here. -/
def validateProof (proof : Proof) : Checked Unit := do
  ensure (proof.pairingPointObject.size = pairingPointsSize)
    (.error "invalid pairing_point_object size")
  ensure (proof.sumcheckUnivariates.size = constProofSizeLogN)
    (.error "invalid sumcheck_univariates size")
  proof.sumcheckUnivariates.toList.forM fun univ =>
    ensure (univ.size = batchedRelationPartialLength)
      (.error "invalid sumcheck_univariate coefficient count")
  ensure (proof.sumcheckEvaluations.size = numberOfEntities)
    (.error "invalid sumcheck_evaluations size")
  ensure (proof.geminiFoldComms.size = constProofSizeLogN - 1)
    (.error "invalid gemini_fold_comms size")
  ensure (proof.geminiAEvaluations.size = constProofSizeLogN)
    (.error "invalid gemini_a_evaluations size")

theorem validateProof_eq_ok (proof : Proof) : validateProof proof = .ok () := by
  have rows : proof.sumcheckUnivariates.toList.forM (fun univ =>
      (ensure (univ.size = batchedRelationPartialLength)
        (.error "invalid sumcheck_univariate coefficient count") : Checked Unit)) = .ok () :=
    forM_eq_ok.mpr fun univ _ => ensure_eq_ok.mpr rfl
  unfold validateProof
  rw [rows]
  rfl

def generateTranscript (proof : Proof) (publicInputs : Bytes)
    (circuitSize publicInputsSize pubInputsOffset : ℕ) : Checked Transcript := do
  validateProof proof
  let (relParams, previousChallenge) := generateRelationParametersChallenges hash32 proof
    publicInputs circuitSize publicInputsSize pubInputsOffset
  let (alphas, previousChallenge) := generateAlphaChallenges hash32 previousChallenge proof
  let (gateChallenges, previousChallenge) := generateGateChallenges hash32 previousChallenge
  let (libraChallenge, previousChallenge) := generateLibraChallenge hash32 proof previousChallenge
  let (sumcheckUChallenges, previousChallenge) :=
    generateSumcheckChallenges hash32 proof previousChallenge
  let (rho, previousChallenge) := generateRhoChallenge hash32 proof previousChallenge
  let (geminiR, previousChallenge) := generateGeminiRChallenge hash32 proof previousChallenge
  let (shplonkNu, previousChallenge) := generateShplonkNuChallenge hash32 proof previousChallenge
  let (shplonkZ, _) := generateShplonkZChallenge hash32 proof previousChallenge
  return { relParams, alphas, gateChallenges, libraChallenge, sumcheckUChallenges, rho, geminiR,
           shplonkNu, shplonkZ }

end Rounds

end Zicket.Verifier
