import Zicket.Foundation.CausalAnswers
import Zicket.Verifier.Honk

/-! A prover that answers the challenges of its own transcript. The challenge of a round is hashed
from the messages up to it, so messages that look at the challenges before them only settle in one
proof, the one that a prover writes round by round. -/

namespace Zicket.Verifier

open Host Foundation

namespace Round

def index : Round → ℕ
  | .eta => 0
  | .betaGamma => 1
  | .alphas => 2
  | .gates => 3
  | .libra => 4
  | .sumcheck r => 5 + r
  | .rho => 33
  | .geminiR => 34
  | .shplonkNu => 35
  | .shplonkZ => 36

def count : ℕ := 37

theorem index_lt (round : Round) : round.index < count := by
  have rounds : constProofSizeLogN = 28 := rfl
  cases round with
  | sumcheck r =>
    have less := r.isLt
    simp only [index, count]
    omega
  | _ => decide

theorem index_le_of_mem_upTo {earlier round : Round} (mem : earlier ∈ round.upTo) :
    earlier.index ≤ round.index := by
  have rounds : constProofSizeLogN = 28 := rfl
  have sumcheck (r : Fin constProofSizeLogN) : (sumcheck r).index < 33 := by
    have less := r.isLt
    simp only [index]
    omega
  have front (before : earlier ∈ [eta, betaGamma, alphas, gates, libra]) : earlier.index ≤ 4 := by
    fin_cases before <;> decide
  cases round with
  | sumcheck r =>
    rcases List.mem_append.mp mem with before | taken
    · exact (front before).trans (by simp only [index]; omega)
    · obtain ⟨k, within, rfl⟩ := List.mem_iff_getElem.mp taken
      have less : k < r + 1 := (List.length_take_le _ _).trans_lt' within
      simp only [sumchecks, List.getElem_take, List.getElem_map, List.getElem_finRange, index,
        Fin.val_cast]
      omega
  | rho | geminiR | shplonkNu | shplonkZ =>
    rcases List.mem_append.mp mem with first | later
    · rcases List.mem_append.mp first with before | middle
      · exact (front before).trans (by decide)
      · obtain ⟨r, -, rfl⟩ := List.mem_map.mp middle
        exact (sumcheck r).le.trans (by decide)
    · fin_cases later <;> decide
  | _ => fin_cases mem <;> decide

end Round

/-- The messages of a round, before its challenge. -/
def SameMessage (p q : Proof) : Round → Prop
  | .eta =>
    p.pairingPointObject = q.pairingPointObject ∧ p.w1 = q.w1 ∧ p.w2 = q.w2 ∧ p.w3 = q.w3
  | .betaGamma =>
    p.lookupReadCounts = q.lookupReadCounts ∧ p.lookupReadTags = q.lookupReadTags ∧ p.w4 = q.w4
  | .alphas => p.lookupInverses = q.lookupInverses ∧ p.zPerm = q.zPerm
  | .gates => True
  | .libra =>
    p.libraConcatenationCommitment = q.libraConcatenationCommitment ∧ p.libraSum = q.libraSum
  | .sumcheck r => p.sumcheckUnivariates.get r = q.sumcheckUnivariates.get r
  | .rho =>
    p.sumcheckEvaluations = q.sumcheckEvaluations ∧
      p.libraClaimedEvaluation = q.libraClaimedEvaluation ∧
      p.libraGrandSumCommitment = q.libraGrandSumCommitment ∧
      p.libraQuotientCommitment = q.libraQuotientCommitment ∧
      p.hidingPolynomialCommitment = q.hidingPolynomialCommitment ∧
      p.hidingPolynomialEvaluation = q.hidingPolynomialEvaluation
  | .geminiR => p.geminiFoldComms = q.geminiFoldComms
  | .shplonkNu =>
    p.geminiAEvaluations = q.geminiAEvaluations ∧
      p.libraPolynomialEvaluations = q.libraPolynomialEvaluations
  | .shplonkZ => p.shplonkQ = q.shplonkQ

def SameChallenge (t t' : Transcript) : Round → Prop
  | .eta => t.relParams.eta = t'.relParams.eta ∧ t.relParams.etaTwo = t'.relParams.etaTwo ∧
      t.relParams.etaThree = t'.relParams.etaThree
  | .betaGamma => t.relParams.beta = t'.relParams.beta ∧ t.relParams.gamma = t'.relParams.gamma ∧
      t.relParams.publicInputsDelta = t'.relParams.publicInputsDelta
  | .alphas => t.alphas = t'.alphas
  | .gates => t.gateChallenges = t'.gateChallenges
  | .libra => t.libraChallenge = t'.libraChallenge
  | .sumcheck r => t.sumcheckUChallenges.get r = t'.sumcheckUChallenges.get r
  | .rho => t.rho = t'.rho
  | .geminiR => t.geminiR = t'.geminiR
  | .shplonkNu => t.shplonkNu = t'.shplonkNu
  | .shplonkZ => t.shplonkZ = t'.shplonkZ

theorem transcript_ext {t t' : Transcript} (same : ∀ round, SameChallenge t t' round) : t = t' := by
  obtain ⟨⟨eta, etaTwo, etaThree, beta, gamma, delta⟩, alphas, gates, libra, u, rho, r, nu, z⟩ := t
  obtain ⟨⟨eta', etaTwo', etaThree', beta', gamma', delta'⟩, alphas', gates', libra', u', rho', r',
    nu', z'⟩ := t'
  obtain ⟨rfl, rfl, rfl⟩ := same .eta
  obtain ⟨rfl, rfl, rfl⟩ := same .betaGamma
  obtain rfl : alphas = alphas' := same .alphas
  obtain rfl : gates = gates' := same .gates
  obtain rfl : libra = libra' := same .libra
  obtain rfl : u = u' := Vector.ext fun k less => same (.sumcheck ⟨k, less⟩)
  obtain rfl : rho = rho' := same .rho
  obtain rfl : r = r' := same .geminiR
  obtain rfl : nu = nu' := same .shplonkNu
  obtain rfl : z = z' := same .shplonkZ
  rfl

section Delta

/-- The grand product over the public inputs and the pairing points. -/
def deltaState (publicInputs : Bytes) (pairingPointObject : Vector Fr pairingPointsSize)
    (beta gamma : Fr) (offset n : ℕ) : DeltaState :=
  ((List.range ((publicInputs.length + 31) / 32)).map (frWord32 publicInputs) ++
    pairingPointObject.toList).foldl (DeltaState.step beta)
    { numerator := 1
      denominator := 1
      numeratorAcc := gamma + beta * Fr.fromU64 (n + offset)
      denominatorAcc := gamma - beta * Fr.fromU64 (offset + 1) }

variable {publicInputs : Bytes} {pairingPointObject : Vector Fr pairingPointsSize}
  {beta gamma : Fr} {offset n : ℕ}

theorem computePublicInputDelta_eq (small : n + offset < 2 ^ 64 ∧ offset + 1 < 2 ^ 64)
    (invertible :
      (deltaState publicInputs pairingPointObject beta gamma offset n).denominator ≠ 0) :
    computePublicInputDelta publicInputs pairingPointObject beta gamma offset n =
      .ok ((deltaState publicInputs pairingPointObject beta gamma offset n).numerator *
        (deltaState publicInputs pairingPointObject beta gamma offset n).denominator⁻¹) := by
  refine bind_eq_ok.mpr ⟨(), ensure_eq_ok.mpr small, bind_eq_ok.mpr ⟨(), ensure_eq_ok.mpr ?_, rfl⟩⟩
  exact isZero_eq_false.mpr invertible

end Delta

namespace Statement

variable (hash32 : Bytes → BytesN 32) (s : Statement)

def withProof (proof : Proof) : Statement := { s with proof }

def delta (beta gamma : Fr) : DeltaState :=
  deltaState s.publicInputs s.proof.pairingPointObject beta gamma s.pubInputsOffset s.circuitSize

def relationParameters : RelationParameters :=
  (generateRelationParametersChallenges hash32 s.proof s.publicInputs s.circuitSize
    s.publicInputsSize s.pubInputsOffset).1

/-- The transcript with the delta that the verifier fills in. -/
def transcript : Transcript :=
  let relParams := s.relationParameters hash32
  let state := s.delta relParams.beta relParams.gamma
  { relParams := { relParams with publicInputsDelta := state.numerator * state.denominator⁻¹ }
    alphas := (generateAlphaChallenges hash32 (s.afterRelations hash32) s.proof).1
    gateChallenges := (generateGateChallenges hash32 (s.afterAlphas hash32)).1
    libraChallenge := (generateLibraChallenge hash32 s.proof (s.afterGates hash32)).1
    sumcheckUChallenges := (generateSumcheckChallenges hash32 s.proof (s.afterLibra hash32)).1
    rho := (generateRhoChallenge hash32 s.proof (s.afterSumcheck hash32)).1
    geminiR := (generateGeminiRChallenge hash32 s.proof (s.afterRho hash32)).1
    shplonkNu := (generateShplonkNuChallenge hash32 s.proof (s.afterGeminiR hash32)).1
    shplonkZ := (generateShplonkZChallenge hash32 s.proof (s.afterShplonkNu hash32)).1 }

theorem generateTranscript_transcript : ∃ t,
    generateTranscript hash32 s.proof s.publicInputs s.circuitSize s.publicInputsSize
      s.pubInputsOffset = .ok t ∧
    t.relParams.beta = (s.transcript hash32).relParams.beta ∧
    t.relParams.gamma = (s.transcript hash32).relParams.gamma ∧
    { t with relParams := { t.relParams with
        publicInputsDelta := (s.transcript hash32).relParams.publicInputsDelta } } =
      s.transcript hash32 := by
  unfold generateTranscript
  rw [validateProof_eq_ok]
  exact ⟨_, rfl, rfl, rfl, rfl⟩

variable {hash32 s} {p q : Proof} {round : Round}

theorem blocks_congr (same : SameMessage p q round) :
    (s.withProof p).blocks round = (s.withProof q).blocks round := by
  cases round with
  | eta | gates => rfl
  | betaGamma =>
    obtain ⟨counts, tags, w4⟩ := same
    simp only [blocks, withProof, counts, tags, w4]
  | alphas =>
    obtain ⟨inverses, product⟩ := same
    simp only [blocks, withProof, inverses, product]
  | libra =>
    obtain ⟨concatenation, sum⟩ := same
    simp only [blocks, withProof, Proof.libraBlock, concatenation, sum]
  | sumcheck r => exact congrArg (fun univariate => [pushScalars univariate]) same
  | rho =>
    obtain ⟨evaluations, claimed, grandSum, quotient, hidden, value⟩ := same
    simp only [blocks, withProof, Proof.rhoBlock, evaluations, claimed, grandSum, quotient, hidden,
      value]
  | geminiR =>
    have folds : p.geminiFoldComms = q.geminiFoldComms := same
    simp only [blocks, withProof, Proof.geminiBlock, folds]
  | shplonkNu =>
    obtain ⟨evaluations, libra⟩ := same
    simp only [blocks, withProof, Proof.nuBlock, evaluations, libra]
  | shplonkZ =>
    have quotient : p.shplonkQ = q.shplonkQ := same
    simp only [blocks, withProof, quotient]

theorem header_congr (same : SameMessage p q .eta) :
    (s.withProof p).header = (s.withProof q).header := by
  obtain ⟨points, w1, w2, w3⟩ := same
  simp only [header, withProof, points, w1, w2, w3]

theorem runningChallenge_congr
    (same : ∀ earlier : Round, earlier.index ≤ round.index → SameMessage p q earlier) :
    (s.withProof p).runningChallenge hash32 round =
      (s.withProof q).runningChallenge hash32 round := by
  rw [runningChallenge_eq, runningChallenge_eq, header_congr (same .eta (Nat.zero_le _))]
  refine congrArg _ (List.flatMap_congr fun earlier mem => ?_)
  exact blocks_congr (same earlier (Round.index_le_of_mem_upTo mem))

theorem sameChallenge_of_sameMessage
    (same : ∀ earlier : Round, earlier.index ≤ round.index → SameMessage p q earlier) :
    SameChallenge ((s.withProof p).transcript hash32) ((s.withProof q).transcript hash32)
      round := by
  have running (earlier : Round) (before : earlier.index ≤ round.index) :
      (s.withProof p).runningChallenge hash32 earlier =
        (s.withProof q).runningChallenge hash32 earlier :=
    runningChallenge_congr fun first le => same first (le.trans before)
  have last := running round le_rfl
  cases round with
  | eta =>
    have head : generateEtaChallenge hash32 p s.publicInputs s.circuitSize s.publicInputsSize
        s.pubInputsOffset = generateEtaChallenge hash32 q s.publicInputs s.circuitSize
          s.publicInputsSize s.pubInputsOffset := by
      obtain ⟨points, w1, w2, w3⟩ := same .eta le_rfl
      simp only [generateEtaChallenge, points, w1, w2, w3]
    exact ⟨congrArg (·.1) head, congrArg (·.2.1) head, congrArg (·.2.2.1) head⟩
  | betaGamma =>
    obtain ⟨points, -⟩ := same .eta (Nat.zero_le _)
    have beta : ((s.withProof p).transcript hash32).relParams.beta =
        ((s.withProof q).transcript hash32).relParams.beta :=
      congrArg (fun challenge => (splitChallenge challenge).1) last
    have gamma : ((s.withProof p).transcript hash32).relParams.gamma =
        ((s.withProof q).transcript hash32).relParams.gamma :=
      congrArg (fun challenge => (splitChallenge challenge).2) last
    have state : (s.withProof p).delta ((s.withProof p).transcript hash32).relParams.beta
          ((s.withProof p).transcript hash32).relParams.gamma =
        (s.withProof q).delta ((s.withProof q).transcript hash32).relParams.beta
          ((s.withProof q).transcript hash32).relParams.gamma := by
      rw [beta, gamma]
      simp only [delta, withProof, points]
    exact ⟨beta, gamma, congrArg (fun state => state.numerator * state.denominator⁻¹) state⟩
  | alphas =>
    have before : (s.withProof p).afterRelations hash32 = (s.withProof q).afterRelations hash32 :=
      running .betaGamma (by decide)
    obtain ⟨inverses, product⟩ := same .alphas le_rfl
    change (generateAlphaChallenges hash32 ((s.withProof p).afterRelations hash32) p).1 =
      (generateAlphaChallenges hash32 ((s.withProof q).afterRelations hash32) q).1
    simp only [generateAlphaChallenges, before, inverses, product]
  | gates =>
    have before : (s.withProof p).afterAlphas hash32 = (s.withProof q).afterAlphas hash32 :=
      running .alphas (by decide)
    exact congrArg (fun challenge => (generateGateChallenges hash32 challenge).1) before
  | sumcheck r =>
    have entry (p : Proof) : ((s.withProof p).transcript hash32).sumcheckUChallenges[r] =
        (splitChallenge ((s.withProof p).runningChallenge hash32 (.sumcheck r))).1 :=
      Vector.getElem_ofFn r.isLt
    change ((s.withProof p).transcript hash32).sumcheckUChallenges[r] =
      ((s.withProof q).transcript hash32).sumcheckUChallenges[r]
    rw [entry, entry, last]
  | libra | rho | geminiR | shplonkNu | shplonkZ =>
    exact congrArg (fun challenge => (splitChallenge challenge).1) last

end Statement

section Answers

variable {answer : Transcript → Proof}

/-- The message of a round looks at the challenges before it only. -/
def CausalAnswer (answer : Transcript → Proof) : Prop :=
  ∀ (round : Round) (t t' : Transcript),
    (∀ earlier : Round, earlier.index < round.index → SameChallenge t t' earlier) →
      SameMessage (answer t) (answer t') round

/-- A prover that looks at the challenges so far writes one proof, which answers its own. -/
theorem CausalAnswer.existsUnique (causal : CausalAnswer answer) (hash32 : Bytes → BytesN 32)
    (s : Statement) : ∃! t, (s.withProof (answer t)).transcript hash32 = t := by
  have rounds : Causal
      (fun k t t' => ∀ round : Round, round.index < k → SameChallenge t t' round)
      (fun t => (s.withProof (answer t)).transcript hash32) := by
    refine ⟨fun t t' round none => absurd none (Nat.not_lt_zero _),
      fun k t t' before round less => ?_⟩
    refine Statement.sameChallenge_of_sameMessage fun earlier le => ?_
    exact causal earlier t t' fun first lt => before first (by omega)
  exact rounds.existsUnique_fixed Round.count fun t t' same =>
    transcript_ext fun round => same round round.index_lt

end Answers

end Zicket.Verifier
