import Zicket.Results.MaskBinding
import Zicket.Results.WrongOpening
import Zicket.Verifier.Writing

/-! A prover that keeps the polynomials of its columns and of its mask, and writes a whole proof of
them: the commitments, the evaluations, the folds and the two quotients. What it keeps may wait for
the challenges before it. The opening of such a proof is accepted. -/

namespace Zicket.Verifier

open Host Foundation Polynomial

variable {G : Type} [AddCommGroup G] [Module Fr G] {curve : Bn254} {OnCurve : G1Point → Prop}
  {denote : G1Point → G} {τ : Fr} {vk : VerificationKey} {n d : ℕ} {t t' : Transcript}

/-- The commitments of a setup with the first `d + 1` powers of the secret. -/
structure Setup (OnCurve : G1Point → Prop) (denote : G1Point → G) (τ : Fr) (d : ℕ)
    (commit : Fr[X] → G1Point) : Prop where
  onCurve (P : Fr[X]) : P.natDegree ≤ d → OnCurve (commit P)
  value (P : Fr[X]) : P.natDegree ≤ d →
    denote (commit P) = commitTo (denote G1Point.generator) τ P

structure KeyOf (OnCurve : G1Point → Prop) (denote : G1Point → G) (τ : Fr) (vk : VerificationKey)
    (key : ℕ → Fr[X]) : Prop where
  onCurve (c : Bytes) : c ∈ vk.commitments → OnCurve (toArray 64 c)
  value (i : ℕ) : i < 27 → denote ((vk.commitments.map (toArray 64)).getD i G1Point.infinity) =
    commitTo (denote G1Point.generator) τ (key i)

/-- What a prover keeps. The columns are those of the wires, the permutation and the lookups, in the
order of the commitments. -/
structure CommittedProver where
  pairingPointObject : Vector Fr pairingPointsSize
  column : Transcript → ℕ → Fr[X]
  concatenation : Fr[X]
  libraSum : Fr
  univariates : Transcript → Vector (Vector Fr batchedRelationPartialLength) constProofSizeLogN
  hidingPolynomial : Transcript → Fr[X]
  claimed : Transcript → Fr
  grandSum : Transcript → Fr[X]
  quotient : Transcript → Fr[X]

namespace CommittedProver

section Messages

variable (prover : CommittedProver) (key : ℕ → Fr[X]) (commit : Fr[X] → G1Point) (n : ℕ)
  (t : Transcript)

/-- The columns as they are opened, those of the key first and the shifted ones last. -/
def entity (i : ℕ) : Fr[X] :=
  if i < 27 then key i
  else if i < numberUnshifted then prover.column t (i - 27)
  else prover.column t (i - numberUnshifted)

noncomputable def unfolded : OpenedParts Fr[X] where
  hidingPolynomial := prover.hidingPolynomial t
  entity := prover.entity key t
  fold _ := 0
  concatenation := prover.concatenation
  grandSum := prover.grandSum t
  quotient := prover.quotient t

noncomputable def fold (j : ℕ) : Fr[X] :=
  foldMany (uChallenge t) j (batchedPolynomial t (prover.unfolded key t))

noncomputable def parts : OpenedParts Fr[X] :=
  { prover.unfolded key t with fold := prover.fold key t }

noncomputable def evaluation (i : ℕ) : Fr :=
  multilinearValue (uChallenge t) n (openedPolynomial (prover.unfolded key t) i)

noncomputable def opened : Proof where
  pairingPointObject := prover.pairingPointObject
  w1 := commit (prover.column t 0)
  w2 := commit (prover.column t 1)
  w3 := commit (prover.column t 2)
  w4 := commit (prover.column t 3)
  lookupReadCounts := commit (prover.column t 6)
  lookupReadTags := commit (prover.column t 7)
  lookupInverses := commit (prover.column t 5)
  zPerm := commit (prover.column t 4)
  libraConcatenationCommitment := commit prover.concatenation
  libraSum := prover.libraSum
  sumcheckUnivariates := prover.univariates t
  sumcheckEvaluations := .ofFn fun i => prover.evaluation key n t i
  libraClaimedEvaluation := prover.claimed t
  libraGrandSumCommitment := commit (prover.grandSum t)
  libraQuotientCommitment := commit (prover.quotient t)
  hidingPolynomialCommitment := commit (prover.hidingPolynomial t)
  hidingPolynomialEvaluation := multilinearValue (uChallenge t) n (prover.hidingPolynomial t)
  geminiFoldComms := .ofFn fun j => commit (prover.fold key t (j + 1))
  geminiAEvaluations := .ofFn fun j => (prover.fold key t j).eval (-t.geminiR ^ 2 ^ j.val)
  libraPolynomialEvaluations := .ofFn fun k =>
    if k = 0 then prover.concatenation.eval t.geminiR
    else if k = 1 then (prover.grandSum t).eval (subgroupGenerator * t.geminiR)
    else if k = 2 then (prover.grandSum t).eval t.geminiR
    else (prover.quotient t).eval t.geminiR
  shplonkQ := .infinity
  kzgQuotient := .infinity

noncomputable def claims : ℕ → OpeningClaim Fr Fr[X] :=
  openingClaim (prover.opened key commit n t) t n (prover.parts key t)

noncomputable def proof : Proof :=
  { prover.opened key commit n t with
    shplonkQ := commit (batchQuotient t.shplonkNu (claimPowers n) (prover.claims key commit n t))
    kzgQuotient := commit
      (batchWitness t.shplonkNu t.shplonkZ (claimPowers n) (prover.claims key commit n t)) }

end Messages

section Causality

def Before (place : ℕ) (t t' : Transcript) : Prop :=
  ∀ earlier : Round, earlier.index < place → SameChallenge t t' earlier

/-- What is kept waits only for the challenges before it is sent. -/
structure IsCausal (prover : CommittedProver) : Prop where
  wires (t t' : Transcript) (i : ℕ) : i < 3 → prover.column t i = prover.column t' i
  memory (t t' : Transcript) (i : ℕ) : Before 1 t t' → i = 3 ∨ 6 ≤ i →
    prover.column t i = prover.column t' i
  products (t t' : Transcript) : Before 2 t t' → prover.column t = prover.column t'
  rounds (t t' : Transcript) (r : Fin constProofSizeLogN) :
    Before (Round.sumcheck r).index t t' →
      (prover.univariates t).get r = (prover.univariates t').get r
  hidden (t t' : Transcript) : Before 33 t t' →
    prover.hidingPolynomial t = prover.hidingPolynomial t'
  masked (t t' : Transcript) : Before 33 t t' → prover.claimed t = prover.claimed t' ∧
    prover.grandSum t = prover.grandSum t' ∧ prover.quotient t = prover.quotient t'

variable {prover : CommittedProver} {key : ℕ → Fr[X]} {commit : Fr[X] → G1Point} {place : ℕ}

theorem Before.mono {k : ℕ} (same : Before place t t') (le : k ≤ place) : Before k t t' :=
  fun earlier less => same earlier (less.trans_le le)

theorem Before.challenges (same : Before 33 t t') :
    t.sumcheckUChallenges = t'.sumcheckUChallenges := by
  have rounds : constProofSizeLogN = 28 := rfl
  refine Vector.ext fun k less => same (.sumcheck ⟨k, less⟩) ?_
  simp only [Round.index]
  omega

theorem Before.uChallenge (same : Before 33 t t') : uChallenge t = uChallenge t' := by
  funext j
  rw [Verifier.uChallenge, Verifier.uChallenge, same.challenges]

theorem Before.relParams (same : Before 2 t t') : t.relParams = t'.relParams := by
  obtain ⟨eta, etaTwo, etaThree⟩ := same .eta (by decide)
  obtain ⟨beta, gamma, delta⟩ := same .betaGamma (by decide)
  have ext (p q : RelationParameters) : p.eta = q.eta → p.etaTwo = q.etaTwo →
      p.etaThree = q.etaThree → p.beta = q.beta → p.gamma = q.gamma →
        p.publicInputsDelta = q.publicInputsDelta → p = q := by
    cases p
    cases q
    rintro rfl rfl rfl rfl rfl rfl
    rfl
  exact ext _ _ eta etaTwo etaThree beta gamma delta

namespace IsCausal

variable (causal : prover.IsCausal)
include causal

theorem unfolded (same : Before 33 t t') : prover.unfolded key t = prover.unfolded key t' := by
  obtain ⟨-, grandSum, quotient⟩ := causal.masked t t' same
  have columns := causal.products t t' (same.mono (by decide))
  have entities : prover.entity key t = prover.entity key t' := by
    funext i
    rw [entity, entity, columns]
  rw [CommittedProver.unfolded, CommittedProver.unfolded, entities, grandSum, quotient,
    causal.hidden t t' same]

theorem fold (same : Before 34 t t') : prover.fold key t = prover.fold key t' := by
  have weight : t.rho = t'.rho := same .rho (by decide)
  have earlier := same.mono (by decide : 33 ≤ 34)
  funext j
  rw [CommittedProver.fold, CommittedProver.fold, earlier.uChallenge, batchedPolynomial,
    batchedPolynomial, weight, causal.unfolded earlier]

theorem parts (same : Before 34 t t') : prover.parts key t = prover.parts key t' := by
  rw [CommittedProver.parts, CommittedProver.parts, causal.fold same,
    causal.unfolded (same.mono (by decide))]

theorem sameClaims (same : Before 35 t t') :
    SameClaims (prover.opened key commit n t) (prover.opened key commit n t') t t' := by
  have earlier := same.mono (by decide : 33 ≤ 35)
  have point : t.geminiR = t'.geminiR := same .geminiR (by decide)
  obtain ⟨-, grandSum, quotient⟩ := causal.masked t t' earlier
  have folds : prover.fold key t = prover.fold key t' := causal.fold (same.mono (by decide))
  refine ⟨?_, ?_, ?_, ?_, earlier.challenges, same .rho (by decide), point⟩
  · simp only [opened, evaluation, earlier.uChallenge, causal.unfolded earlier]
  · simp only [opened, earlier.uChallenge, causal.hidden t t' earlier]
  · simp only [opened, folds, point]
  · simp only [opened, grandSum, quotient, point]

theorem claims (same : Before 35 t t') :
    prover.claims key commit n t = prover.claims key commit n t' := by
  funext e
  rw [CommittedProver.claims, CommittedProver.claims, causal.parts (same.mono (by decide))]
  exact (causal.sameClaims same).openingClaim _ e

theorem causalAnswer : CausalAnswer (prover.proof key commit n) := by
  intro round t t' same
  cases round with
  | eta =>
    exact ⟨rfl, congrArg commit (causal.wires t t' 0 (by decide)),
      congrArg commit (causal.wires t t' 1 (by decide)),
      congrArg commit (causal.wires t t' 2 (by decide))⟩
  | betaGamma =>
    exact ⟨congrArg commit (causal.memory t t' 6 same (.inr le_rfl)),
      congrArg commit (causal.memory t t' 7 same (.inr (by decide))),
      congrArg commit (causal.memory t t' 3 same (.inl rfl))⟩
  | alphas =>
    have columns := causal.products t t' same
    exact ⟨congrArg commit (congrFun columns 5), congrArg commit (congrFun columns 4)⟩
  | gates => trivial
  | libra => exact ⟨rfl, rfl⟩
  | sumcheck r => exact causal.rounds t t' r same
  | rho =>
    have earlier : Before 33 t t' := same
    obtain ⟨claimed, grandSum, quotient⟩ := causal.masked t t' earlier
    have hidden := causal.hidden t t' earlier
    refine ⟨?_, claimed, congrArg commit grandSum, congrArg commit quotient,
      congrArg commit hidden, ?_⟩
    · simp only [proof, opened, evaluation, earlier.uChallenge, causal.unfolded earlier]
    · simp only [proof, opened, earlier.uChallenge, hidden]
  | geminiR =>
    have folds : prover.fold key t = prover.fold key t' := causal.fold same
    simp only [SameMessage, proof, opened, folds]
  | shplonkNu =>
    have claims : SameClaims (prover.opened key commit n t) (prover.opened key commit n t') t t' :=
      causal.sameClaims same
    exact ⟨claims.opposites, claims.mask⟩
  | shplonkZ =>
    have claims : prover.claims key commit n t = prover.claims key commit n t' :=
      causal.claims (Before.mono same (by decide))
    have weight : t.shplonkNu = t'.shplonkNu := same .shplonkNu (by decide)
    simp only [SameMessage, proof, claims, weight]

end IsCausal

end Causality

section Openings

theorem getD_toList_ofFn {α : Type} {count k : ℕ} {f : Fin count → α} (less : k < count)
    {default : α} : (Vector.ofFn f).toList.getD k default = f ⟨k, less⟩ := by
  rw [Vector.toList_ofFn, List.getD_eq_getElem?_getD, List.getElem?_ofFn, dif_pos less]
  rfl

/-- What is kept fits in the rows and in the setup, and the shifted columns begin with a zero. -/
structure Sized (prover : CommittedProver) (key : ℕ → Fr[X]) (n d : ℕ) : Prop where
  enough : 2 ^ n ≤ d + 1
  key (i : ℕ) : i < 27 → (key i).natDegree < 2 ^ n
  column (t : Transcript) (i : ℕ) : i < 8 → (prover.column t i).natDegree < 2 ^ n
  starts (t : Transcript) (i : ℕ) : i < 5 → (prover.column t i).coeff 0 = 0
  hidingPolynomial (t : Transcript) : (prover.hidingPolynomial t).natDegree < 2 ^ n
  concatenation : prover.concatenation.natDegree ≤ d
  grandSum (t : Transcript) : (prover.grandSum t).natDegree ≤ d
  quotient (t : Transcript) : (prover.quotient t).natDegree ≤ d

variable {prover : CommittedProver} {key : ℕ → Fr[X]} {commit : Fr[X] → G1Point}

namespace Sized

variable (sized : prover.Sized key n d)
include sized

theorem entity {i : ℕ} (less : i < numberOfEntities) :
    (prover.entity key t i).natDegree < 2 ^ n := by
  have unshifted : numberUnshifted = 35 := rfl
  have all : numberOfEntities = 40 := rfl
  rw [CommittedProver.entity]
  split_ifs with fixed
  · exact sized.key i fixed
  · exact sized.column t _ (by omega)
  · exact sized.column t _ (by omega)

theorem unfolded : BoundedParts d (prover.unfolded key t) where
  hidingPolynomial := Nat.le_of_lt_succ ((sized.hidingPolynomial t).trans_le sized.enough)
  entity _ less := Nat.le_of_lt_succ ((sized.entity less).trans_le sized.enough)
  fold _ := natDegree_zero.trans_le (Nat.zero_le d)
  concatenation := sized.concatenation
  grandSum := sized.grandSum t
  quotient := sized.quotient t

theorem fold (j : ℕ) : (prover.fold key t j).natDegree ≤ d := by
  refine (natDegree_foldMany_le two_ne_zero_fr _ _ _).trans ?_
  rw [batchedPolynomial_eq]
  exact (natDegree_add_le _ _).trans
    (max_le sized.unfolded.unshiftedPart (natDegree_divX_le.trans sized.unfolded.shiftedPart))

theorem parts : BoundedParts d (prover.parts key t) :=
  { sized.unfolded with fold := sized.fold }

theorem claims (e : ℕ) : (prover.claims key commit n t e).commitment.natDegree ≤ d :=
  sized.parts.openingClaim _ e

theorem honest (le : n ≤ constProofSizeLogN) :
    HonestOpening (prover.parts key t) (prover.proof key commit n t) t n where
  starts i above below := by
    have unshifted : numberUnshifted = 35 := rfl
    have all : numberOfEntities = 40 := rfl
    change (prover.entity key t i).coeff 0 = 0
    rw [CommittedProver.entity, if_neg (by omega), if_neg (by omega)]
    exact sized.starts t _ (by omega)
  hidingSmall := sized.hidingPolynomial t
  small i less := by
    have bound := sized.entity (t := t) less
    rw [openedPolynomial]
    split
    · exact bound
    · exact natDegree_divX_le.trans_lt bound
  hidingEvaluation := rfl
  evaluations i less := by
    change (Vector.ofFn _).toList.getD i 0 = _
    rw [getD_toList_ofFn less]
    rfl
  folds _ _ _ := rfl
  opposites j less := by
    change (Vector.ofFn _).toList.getD j 0 = _
    rw [getD_toList_ofFn (less.trans_le le)]
    rfl
  concatenation := rfl
  shiftedGrandSum := rfl
  grandSum := rfl
  quotient := rfl

end Sized

section Points

variable (prover key commit n t) in
theorem foldComm {j : ℕ} (positive : 0 < j) (less : j < constProofSizeLogN) :
    (prover.proof key commit n t).geminiFoldComms.toList.getD (j - 1) G1Point.infinity =
      commit (prover.fold key t j) := by
  have index : j - 1 + 1 = j := Nat.sub_add_cancel positive
  have within : j - 1 < constProofSizeLogN - 1 := by omega
  have sent : (prover.proof key commit n t).geminiFoldComms =
      Vector.ofFn fun j => commit (prover.fold key t (j + 1)) := rfl
  rw [sent, getD_toList_ofFn within]
  exact congrArg (fun j => commit (prover.fold key t j)) index

theorem openingClaim_proof : openingClaim (prover.proof key commit n t) t n (prover.parts key t) =
    prover.claims key commit n t := by
  have same : SameClaims (prover.proof key commit n t) (prover.opened key commit n t) t t :=
    ⟨rfl, rfl, rfl, rfl, rfl, rfl, rfl⟩
  ext1 e
  exact same.openingClaim _ e

variable (setup : Setup OnCurve denote τ d commit) (sized : prover.Sized key n d)
  (keyed : KeyOf OnCurve denote τ vk key) (counted : vk.commitments.length = 27)
include setup sized keyed

theorem onCurve (laws : CurveLaws curve OnCurve denote τ) (c : G1Point)
    (mem : c ∈ commitments (prover.proof key commit n t) vk) : OnCurve c := by
  have column (i : ℕ) (less : i < 8) : OnCurve (commit (prover.column t i)) :=
    setup.onCurve _ (Nat.le_of_lt_succ ((sized.column t i less).trans_le sized.enough))
  have claims (e : ℕ) (_ : e ∈ claimPowers n) :
      (prover.claims key commit n t e).commitment.natDegree ≤ d := sized.claims e
  simp only [commitments, List.mem_append] at mem
  rcases mem with ((((first | fixed) | wires) | shifted) | folds) | last
  · simp only [List.mem_cons, List.not_mem_nil, or_false] at first
    rcases first with rfl | rfl
    · exact setup.onCurve _ (natDegree_batchQuotient_le claims)
    · exact setup.onCurve _ sized.parts.hidingPolynomial
  · obtain ⟨point, inside, rfl⟩ := List.mem_map.mp fixed
    exact keyed.onCurve point inside
  · simp only [List.mem_cons, List.not_mem_nil, or_false] at wires
    rcases wires with rfl | rfl | rfl | rfl | rfl | rfl | rfl | rfl <;> exact column _ (by decide)
  · simp only [List.mem_cons, List.not_mem_nil, or_false] at shifted
    rcases shifted with rfl | rfl | rfl | rfl | rfl <;> exact column _ (by decide)
  · change c ∈ (Vector.ofFn _).toList at folds
    rw [Vector.toList_ofFn] at folds
    obtain ⟨j, rfl⟩ := List.mem_ofFn.mp folds
    exact setup.onCurve _ (sized.fold _)
  · simp only [List.mem_cons, List.not_mem_nil, or_false] at last
    rcases last with rfl | rfl | rfl | rfl | rfl
    · exact setup.onCurve _ sized.concatenation
    · exact setup.onCurve _ (sized.grandSum t)
    · exact setup.onCurve _ (sized.quotient t)
    · exact laws.generator
    · exact setup.onCurve _ (natDegree_batchWitness_le claims)

include counted

theorem commits (le : n ≤ constProofSizeLogN) : Commits (denote G1Point.generator) τ n
    ((openedPoints (prover.proof key commit n t) vk).map denote) (prover.parts key t) where
  hidingPolynomial := setup.value _ sized.parts.hidingPolynomial
  entity i less := by
    have unshifted : numberUnshifted = 35 := rfl
    have all : numberOfEntities = 40 := rfl
    have fixed : (vk.commitments.map (toArray 64)).length = 27 := by rw [List.length_map, counted]
    have points : entityCommitments (prover.proof key commit n t) vk =
        vk.commitments.map (toArray 64) ++
          (List.range 8).map (fun k => commit (prover.column t k)) ++
            (List.range 5).map (fun k => commit (prover.column t k)) := rfl
    have column (count k : ℕ) (within : k < count) :
        ((List.range count).map fun k => commit (prover.column t k)).getD k G1Point.infinity =
          commit (prover.column t k) := by
      simp [List.getD_eq_getElem?_getD, within]
    have value := setup.value (prover.entity key t i) (sized.parts.entity i less)
    change denote ((entityCommitments _ vk).getD i G1Point.infinity) =
      commitTo _ τ (prover.entity key t i)
    rw [points]
    by_cases first : i < 27
    · rw [List.append_assoc, List.getD_append _ _ _ _ (by omega), keyed.value i first, entity,
        if_pos first]
    · rw [← value, entity, if_neg first]
      by_cases second : i < numberUnshifted
      · rw [List.getD_append _ _ _ _ (by simp [fixed]; omega),
          List.getD_append_right _ _ _ _ (by omega), fixed, column 8 _ (by omega), if_pos second]
      · rw [List.getD_append_right _ _ _ _ (by simp [fixed]; omega), List.length_append, fixed,
          List.length_map, List.length_range, column 5 _ (by omega), if_neg second]
        rfl
  fold j positive less := by
    have sent := foldComm n t prover key commit positive (less.trans_le le)
    have opened (proof : Proof) : ((openedPoints proof vk).map denote).fold j =
        denote (proof.geminiFoldComms.toList.getD (j - 1) G1Point.infinity) := rfl
    have part : (prover.parts key t).fold j = prover.fold key t j := rfl
    rw [opened, sent, part]
    exact setup.value (prover.fold key t j) (sized.fold j)
  concatenation := setup.value _ sized.concatenation
  grandSum := setup.value _ (sized.grandSum t)
  quotient := setup.value _ (sized.quotient t)

theorem opening_accepted (laws : CurveLaws curve OnCurve denote τ) (positive : 0 < n)
    (le : n ≤ constProofSizeLogN) (size : vk.logCircuitSize = n) (outside : OpensOutside t n)
    (distances : ∀ j < n, foldDenominator t j ≠ 0)
    (libra : checkLibraEvaluationsConsistency (prover.proof key commit n t) t = .ok ()) :
    verifyShplemini (prover.proof key commit n t) t curve vk = .ok () := by
  have claims (e : ℕ) (_ : e ∈ claimPowers n) :
      (prover.claims key commit n t e).commitment.natDegree ≤ d := sized.claims e
  refine accepts_of_batchOpens positive le size counted laws (onCurve setup sized keyed laws)
    outside distances libra ?_
  have honest : HonestOpening (prover.parts key t) (prover.proof key commit n t) t n :=
    sized.honest le
  have batch := honest.batchOpens positive le outside distances
    (commits setup sized keyed counted le)
  rw [openingClaim_proof] at batch
  change BatchOpens _ τ _ _ _ _ (denote (commit _)) (denote (commit _))
  rw [setup.value _ (natDegree_batchQuotient_le claims),
    setup.value _ (natDegree_batchWitness_le claims)]
  exact batch

end Points

section Accepted

variable {s : Statement} {inputs : Vector Fr 5} {contract : AnonymousClaimVerifier}
  {hash32 : Bytes → BytesN 32}

/-- The challenges that leave a proof to be checked: no denominator vanishes, the mask has a weight,
and its point is outside the subgroup. -/
structure Nondegenerate (s : Statement) (t : Transcript) (n : ℕ) : Prop where
  invertible : (s.delta t.relParams.beta t.relParams.gamma).denominator ≠ 0
  libra : t.libraChallenge ≠ 0
  outside : OpensOutside t n
  distances (j : ℕ) : j < n → foldDenominator t j ≠ 0
  away (i : ℕ) : i < subgroupSize → t.geminiR ≠ subgroupGenerator ^ i

/-- The proof that is written round by round is accepted, if its sumcheck and its mask are. -/
theorem exists_accepted (causal : prover.IsCausal)
    (deployed : contract.toProving = honkProving hash32 curve)
    (loaded : loadVkFromBytes contract.verificationKey = .ok vk) (fits : s.Fits vk inputs)
    (laws : CurveLaws curve OnCurve denote τ) (setup : Setup OnCurve denote τ d commit)
    (sized : prover.Sized key vk.logCircuitSize d) (keyed : KeyOf OnCurve denote τ vk key) :
    ∃ (t : Transcript) (written : Proof),
      written = prover.proof key commit vk.logCircuitSize t ∧
      t = (s.withProof written).transcript hash32 ∧
      (Nondegenerate (s.withProof written) t vk.logCircuitSize →
        verifySumcheck written t vk = .ok () →
          checkLibraEvaluationsConsistency written t = .ok () →
            contract.verify written.toBytes (pushScalars inputs) = some true) := by
  have wellFormed := wellFormed_of_load loaded
  have answer : CausalAnswer (prover.proof key commit vk.logCircuitSize) := causal.causalAnswer
  obtain ⟨t, answers, -⟩ := answer.existsUnique hash32 s
  refine ⟨t, _, rfl, answers.symm, fun nondegenerate sumcheck libra => ?_⟩
  have opening := opening_accepted setup sized keyed wellFormed.counted laws wellFormed.positive
    wellFormed.le rfl nondegenerate.outside nondegenerate.distances libra
  have invertible := nondegenerate.invertible
  have sent : (s.withProof (prover.proof key commit vk.logCircuitSize t)).Fits vk inputs :=
    ⟨fits.publicInputs, fits.circuitSize, fits.publicInputsSize, fits.pubInputsOffset⟩
  refine accepted_of_checks deployed loaded sent ?_ ?_ ?_
  · rw [answers]
    exact invertible
  · rw [answers]
    exact sumcheck
  · rw [answers]
    exact opening

end Accepted

end Openings

end CommittedProver

section Complete

variable {polys : OpenedParts Fr[X]} {proof : Proof} {tp : Transcript} {logN : ℕ}

/-- The openings of an honest prover are accepted. -/
theorem shplemini_accepts_honest (positive : 0 < logN) (le : logN ≤ constProofSizeLogN)
    (size : vk.logCircuitSize = logN) (counted : vk.commitments.length = 27)
    (laws : CurveLaws curve OnCurve denote τ) (valid : ∀ c ∈ commitments proof vk, OnCurve c)
    (outside : OpensOutside tp logN) (distances : ∀ j < logN, foldDenominator tp j ≠ 0)
    (libra : checkLibraEvaluationsConsistency proof tp = .ok ())
    (commits : Commits (denote G1Point.generator) τ logN ((openedPoints proof vk).map denote) polys)
    (honest : HonestOpening polys proof tp logN)
    (quotient : denote proof.shplonkQ = commitTo (denote G1Point.generator) τ
      (batchQuotient tp.shplonkNu (claimPowers logN) (openingClaim proof tp logN polys)))
    (witness : denote proof.kzgQuotient = commitTo (denote G1Point.generator) τ
      (batchWitness tp.shplonkNu tp.shplonkZ (claimPowers logN)
        (openingClaim proof tp logN polys))) : verifyShplemini proof tp curve vk = .ok () := by
  refine accepts_of_batchOpens positive le size counted laws valid outside distances libra ?_
  rw [quotient, witness]
  exact honest.batchOpens positive le outside distances commits

theorem blank_keyed {vk : VerificationKey}
    (blank : vk.commitments = List.replicate 27 (List.replicate 64 0)) :
    KeyOf (fun _ => True) exponentOf τ vk 0 where
  onCurve _ _ := trivial
  value i _ := by
    have infinity : toArray 64 (List.replicate 64 0) = G1Point.infinity := by decide
    have points : (vk.commitments.map (toArray 64)).getD i G1Point.infinity =
        G1Point.infinity := by
      rw [blank, List.map_replicate, infinity, List.getD_eq_getElem?_getD, List.getElem?_replicate]
      split <;> rfl
    rw [points, Pi.zero_apply, map_zero]
    exact exponentOf_infinity

noncomputable def exponentCommit (τ : Fr) (P : Fr[X]) : G1Point :=
  pointOf (commitTo (exponentOf G1Point.generator) τ P)

theorem exponent_setup (τ : Fr) (d : ℕ) :
    Setup (fun _ => True) exponentOf τ d (exponentCommit τ) where
  onCurve _ _ := trivial
  value _ _ := exponentOf_pointOf _

/-- Its columns, its mask and its hiding polynomial are not zero. -/
noncomputable def smallProver (grandSum quotient : Fr[X]) : CommittedProver where
  pairingPointObject := Vector.replicate _ 0
  column _ i := C (i + 1 : Fr) * X
  concatenation := X
  libraSum := 0
  univariates _ := Vector.replicate _ (Vector.replicate _ 0)
  hidingPolynomial _ := X + 1
  claimed _ := Fr.fromU64 5
  grandSum _ := grandSum
  quotient _ := quotient

theorem smallProver_sized {grandSum quotient : Fr[X]}
    (walked : grandSum.natDegree ≤ subgroupSize - 1)
    (divided : quotient.natDegree ≤ subgroupSize - 1) :
    (smallProver grandSum quotient).Sized 0 3 (subgroupSize - 1) where
  enough := by decide
  key _ _ := natDegree_zero.trans_lt (by decide)
  column _ _ _ := ((natDegree_C_mul_le _ _).trans natDegree_X_le).trans_lt (by decide)
  starts _ i _ := by rw [smallProver, mul_coeff_zero, coeff_X_zero, mul_zero]
  hidingPolynomial _ := (natDegree_X_add_C (1 : Fr)).trans_lt (by decide)
  concatenation := natDegree_X_le.trans (by decide)
  grandSum _ := walked
  quotient _ := divided

theorem shplemini_accepts_honest_sample : ∃ grandSum quotient : Fr[X],
    verifyShplemini ((smallProver grandSum quotient).proof 0 (exponentCommit 5) 3 smallTranscript)
      smallTranscript (exponentCurve 5) (emptyKey 3) = .ok () := by
  obtain ⟨grandSum, quotient, walked, divided, identity⟩ := exists_identity le_rfl
    (natDegree_X_le.trans (by decide)) smallTranscript.sumcheckUChallenges (Fr.fromU64 5)
  refine ⟨grandSum, quotient, ?_⟩
  have sized := smallProver_sized walked divided
  have setup := exponent_setup 5 (subgroupSize - 1)
  have claims (e : ℕ) (_ : e ∈ claimPowers 3) : ((smallProver grandSum quotient).claims 0
      (exponentCommit 5) 3 smallTranscript e).commitment.natDegree ≤ subgroupSize - 1 := sized.claims e
  have size : (emptyKey 3).logCircuitSize = 3 := rfl
  refine shplemini_accepts_honest (by decide) (by decide) size rfl (exponentCurve_laws 5)
    (fun _ _ => trivial) smallTranscript_outside smallTranscript_distances ?_
    (CommittedProver.commits setup sized (blank_keyed rfl) rfl (by decide))
    (sized.honest (by decide)) ?_ ?_
  · exact checkLibra_of_identity identity rfl smallTranscript_not_power ⟨rfl, rfl, rfl, rfl⟩ rfl
  · rw [CommittedProver.openingClaim_proof]
    exact setup.value _ (natDegree_batchQuotient_le claims)
  · rw [CommittedProver.openingClaim_proof]
    exact setup.value _ (natDegree_batchWitness_le claims)

end Complete

end Zicket.Verifier
