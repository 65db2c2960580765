import Zicket.Results.Claims
import Zicket.Verifier.Canonical

/-! The nullifiers of new claims as the proof system sees them: residues of the scalar field. The
event contract compares the bytes, the verifier refuses words that are not canonical. -/

namespace Zicket.Events

open Host Foundation World
open Verifier (AnonymousClaimVerifier Proving modulus publicInputsAreCanonical canonical_iff
  canonical_inj)

variable {σ : Type} {net : Network σ} {d : Deployment} {w : World σ} {e : Symbol}
  {contract : AnonymousClaimVerifier}

/-- The field of `append_u32_field` as a word. -/
def u32Word (value : ℕ) : BytesN 32 := ⟨(u32Field value).toArray, rfl⟩

@[simp] theorem u32Word_toList (value : ℕ) : (u32Word value).toList = u32Field value := rfl

def anonymousClaimWords (net : Network σ) (env : Env) (e : Symbol) (tierId : ℕ)
    (claim : AnonymousTicketClaim) : List (BytesN 32) :=
  [anonymousClaimScope net env e, u32Word tierId, u32Word claim.expiryLedger, claim.nullifier,
    claim.ticketCommitment]

def Network.Serves (net : Network σ) (contract : AnonymousClaimVerifier) (a : Address) : Prop :=
  ∀ env proof inputs outside,
    (net.tryVerify env a proof inputs outside).1 = (contract.verify proof inputs == some true)

def Served (net : Network σ) (contract : AnonymousClaimVerifier) (e : Symbol) (w : World σ) :
    Step σ → Prop
  | .call _ (.claimAnonymousTicket e' _ _) =>
    e' = e → ∀ a, w.getAnonymousClaimVerifier = .ok a → net.Serves contract a
  | _ => True

/-- The nullifier to which the step newly sells a ticket of the event. -/
def mintedTo (net : Network σ) (d : Deployment) (e : Symbol) (w : World σ) :
    Step σ → Option (BytesN 32)
  | .call invocation (.claimAnonymousTicket e' tierId claim) =>
    if SellsTo net d e claim.nullifier w (.call invocation (.claimAnonymousTicket e' tierId claim))
    then some claim.nullifier else none
  | _ => none

section Encoding

theorem u32Field_eq (value : ℕ) :
    u32Field value = List.replicate 28 0 ++ toBigEndian 4 value := by
  simp [u32Field, toBigEndian, Nat.div_div_eq_div_mul]

theorem ofBigEndian_u32Field_lt (value : ℕ) : ofBigEndian (u32Field value) < 2 ^ 32 := by
  rw [u32Field_eq, ofBigEndian_zeros_append]
  simpa using ofBigEndian_lt (toBigEndian 4 value)

theorem u32Field_inj {a b : ℕ} (ha : a < 2 ^ 32) (hb : b < 2 ^ 32)
    (same : u32Field a = u32Field b) : a = b := by
  have values := congrArg ofBigEndian same
  rwa [u32Field_eq, u32Field_eq, ofBigEndian_zeros_append, ofBigEndian_zeros_append,
    ofBigEndian_toBigEndian ha, ofBigEndian_toBigEndian hb] at values

/-- The cleared half leaves 128 bits. -/
theorem ofBigEndian_scope_lt (env : Env) :
    ofBigEndian (anonymousClaimScope net env e).toList < 2 ^ 128 := by
  have upper : (anonymousClaimScope net env e).toList.take 16 = List.replicate 16 0 := by
    refine List.ext_getElem (by simp) fun i _ here => ?_
    have cleared : i < 16 := by simpa using here
    rw [List.getElem_replicate]
    simp [anonymousClaimScope, cleared]
  have lower : ((anonymousClaimScope net env e).toList.drop 16).length = 16 := by simp
  rw [← List.take_append_drop 16 (anonymousClaimScope net env e).toList, upper,
    ofBigEndian_zeros_append]
  have bound := ofBigEndian_lt ((anonymousClaimScope net env e).toList.drop 16)
  rw [lower] at bound
  exact bound

theorem anonymousClaimPublicInputs_eq (env : Env) (tierId : ℕ) (claim : AnonymousTicketClaim) :
    anonymousClaimPublicInputs net env e tierId claim =
      (anonymousClaimWords net env e tierId claim).flatMap Vector.toList := by
  simp [anonymousClaimPublicInputs, anonymousClaimWords]

theorem flatMap_words_inj {a b : List (BytesN 32)}
    (same : a.flatMap Vector.toList = b.flatMap Vector.toList) : a = b := by
  induction a generalizing b with
  | nil =>
    cases b with
    | nil => rfl
    | cons word b => exact absurd (congrArg List.length same) (by simp; omega)
  | cons word a ih =>
    cases b with
    | nil => exact absurd (congrArg List.length same) (by simp)
    | cons word' b =>
      obtain ⟨first, rest⟩ := List.append_inj same (by simp)
      rw [Vector.toList_inj.mp first, ih rest]

theorem anonymousClaimWords_inj {net' : Network σ} {env env' : Env} {e' : Symbol}
    {tierId tierId' : ℕ} {claim claim' : AnonymousTicketClaim}
    (tier : tierId < 2 ^ 32 ∧ tierId' < 2 ^ 32)
    (expiry : claim.expiryLedger < 2 ^ 32 ∧ claim'.expiryLedger < 2 ^ 32)
    (same : anonymousClaimPublicInputs net env e tierId claim =
      anonymousClaimPublicInputs net' env' e' tierId' claim') :
    anonymousClaimScope net env e = anonymousClaimScope net' env' e' ∧ tierId = tierId' ∧
      claim.expiryLedger = claim'.expiryLedger ∧ claim.nullifier = claim'.nullifier ∧
      claim.ticketCommitment = claim'.ticketCommitment := by
  rw [anonymousClaimPublicInputs_eq, anonymousClaimPublicInputs_eq] at same
  have words := flatMap_words_inj same
  simp only [anonymousClaimWords, List.cons.injEq, and_true] at words
  obtain ⟨scopes, tiers, expiries, nullifiers, commitments⟩ := words
  have fields {a b : ℕ} (same : u32Word a = u32Word b) : u32Field a = u32Field b :=
    congrArg Vector.toList same
  exact ⟨scopes, u32Field_inj tier.1 tier.2 (fields tiers),
    u32Field_inj expiry.1 expiry.2 (fields expiries), nullifiers, commitments⟩

end Encoding

section Minting

/-- What holds of the nullifiers of the event's new claims so far: each is stored and canonical,
and no two are congruent. -/
structure World.Unaliased (w : World σ) (proving : Proving) (e : Symbol)
    (past : List (BytesN 32)) : Prop where
  stored : ∀ n ∈ past, ∃ commitment, w.get (.anonymousNullifier e n) = some commitment
  canonical : ∀ n ∈ past, proving.Canonical n
  distinct : past.Pairwise fun m n =>
    ¬ ofBigEndian m.toList ≡ ofBigEndian n.toList [MOD modulus]

theorem mintedTo_iff {step : Step σ} {n : BytesN 32} : mintedTo net d e w step = some n ↔
    ∃ invocation tierId claim, step = .call invocation (.claimAnonymousTicket e tierId claim) ∧
      claim.nullifier = n ∧ SellsTo net d e n w step := by
  constructor
  · intro h
    unfold mintedTo at h
    split at h
    · split at h
      · rename_i invocation e' tierId claim sells
        cases h
        obtain ⟨_, _, _, ⟨⟩, -⟩ := claimsUnder_iff.mp sells.1
        exact ⟨_, _, _, rfl, rfl, sells⟩
      · cases h
    · cases h
  · rintro ⟨invocation, tierId, claim, rfl, rfl, sells⟩
    exact if_pos sells

/-- A new claim that is put to the verifier contract has a canonical nullifier. -/
theorem minted_canonical {step : Step σ} {n : BytesN 32}
    (minted : mintedTo net d e w step = some n) (served : Served net contract e w step) :
    contract.Canonical n := by
  obtain ⟨invocation, tierId, claim, rfl, rfl, sells⟩ := mintedTo_iff.mp minted
  have more := sells.2
  rw [World.next] at more
  cases result : (Call.claimAnonymousTicket e tierId claim).exec net ⟨d, invocation⟩ w with
  | error failure =>
    rw [result] at more
    exact absurd more (lt_irrefl _)
  | ok w' =>
    rw [result] at more
    obtain ⟨-, rfl⟩ | ⟨fresh, -⟩ := claimAnonymousTicket_cases result
    · exact absurd more (lt_irrefl _)
    · obtain ⟨verifier, outside, set, accepted⟩ := claimAnonymousTicket_accepted result fresh
      rw [served rfl verifier set, anonymousClaimPublicInputs_eq, beq_iff_eq] at accepted
      exact Verifier.verify_canonical accepted claim.nullifier (by simp [anonymousClaimWords])

theorem next_unaliased (reduces : contract.Reduces) {past : List (BytesN 32)}
    (h : w.Unaliased contract.toProving e past) {step : Step σ}
    (served : Served net contract e w step) :
    (w.next net d step).Unaliased contract.toProving e
      ((mintedTo net d e w step).toList ++ past) := by
  have kept (n : BytesN 32) (mem : n ∈ past) : ∃ commitment,
      (w.next net d step).get (.anonymousNullifier e n) = some commitment := by
    obtain ⟨commitment, stored⟩ := h.stored n mem
    exact ⟨commitment, (next_commitment stored step).1⟩
  cases minted : mintedTo net d e w step with
  | none => exact ⟨kept, h.canonical, h.distinct⟩
  | some n =>
    have canonical := minted_canonical minted served
    obtain ⟨invocation, tierId, claim, rfl, rfl, sells⟩ := mintedTo_iff.mp minted
    refine ⟨?_, ?_, ?_⟩
    · rintro m (_ | ⟨_, mem⟩)
      · exact ⟨_, sellsTo_stores sells⟩
      · exact kept m mem
    · rintro m (_ | ⟨_, mem⟩)
      · exact canonical
      · exact h.canonical m mem
    · refine List.pairwise_cons.mpr ⟨fun m mem congruent => ?_, h.distinct⟩
      -- congruent and canonical, it would be stored already
      obtain rfl := canonical_inj reduces canonical (h.canonical m mem) congruent
      obtain ⟨commitment, stored⟩ := h.stored _ mem
      exact (next_commitment stored _).2 sells

end Minting

/-- Along every run of the event contract, while the claims of an event are put to the verifier
contract: the nullifiers of its new claims are pairwise different modulo the scalar modulus. Of the
public inputs, only the nullifier and the commitment may fail to be canonical, and they encode
scope, tier, expiry, nullifier and commitment injectively. -/
theorem claims_unaliased (net : Network σ) (d : Deployment) (outside : σ)
    (contract : AnonymousClaimVerifier) (reduces : contract.Reduces) :
    (∀ e steps,
      Along (World.next net d) (Served net contract e) (deployed outside) steps →
      (told (World.next net d) (mintedTo net d e) (deployed outside) steps).Pairwise fun m n =>
        ¬ ofBigEndian m.toList ≡ ofBigEndian n.toList [MOD modulus]) ∧
    (∀ env e tierId claim,
      anonymousClaimPublicInputs net env e tierId claim =
        (anonymousClaimWords net env e tierId claim).flatMap Vector.toList ∧
      contract.Canonical (anonymousClaimScope net env e) ∧
      contract.Canonical (u32Word tierId) ∧
      contract.Canonical (u32Word claim.expiryLedger) ∧
      publicInputsAreCanonical contract.toProving
          (anonymousClaimPublicInputs net env e tierId claim) =
        .ok (decide (contract.Canonical claim.nullifier ∧
          contract.Canonical claim.ticketCommitment))) ∧
    (∀ env env' e e' tierId tierId' claim claim', tierId < 2 ^ 32 → tierId' < 2 ^ 32 →
      claim.expiryLedger < 2 ^ 32 → claim'.expiryLedger < 2 ^ 32 →
      anonymousClaimPublicInputs net env e tierId claim =
        anonymousClaimPublicInputs net env' e' tierId' claim' →
      anonymousClaimScope net env e = anonymousClaimScope net env' e' ∧ tierId = tierId' ∧
        claim.expiryLedger = claim'.expiryLedger ∧ claim.nullifier = claim'.nullifier ∧
        claim.ticketCommitment = claim'.ticketCommitment) := by
  refine ⟨fun e steps served => ?_, fun env e tierId claim => ?_, ?_⟩
  · have start : (deployed outside).Unaliased contract.toProving e [] := ⟨nofun, nofun, .nil⟩
    have final := told_invariant
      (I := fun past (w : World σ) => w.Unaliased contract.toProving e past)
      (fun past w step h served => next_unaliased reduces h served) served start
    rw [List.append_nil] at final
    exact final.distinct
  · have scope : contract.Canonical (anonymousClaimScope net env e) :=
      (canonical_iff reduces).mpr ((ofBigEndian_scope_lt env).trans (by decide))
    have field (value : ℕ) : contract.Canonical (u32Word value) :=
      (canonical_iff reduces).mpr ((ofBigEndian_u32Field_lt value).trans (by decide))
    refine ⟨anonymousClaimPublicInputs_eq env tierId claim, scope, field _, field _, ?_⟩
    rw [anonymousClaimPublicInputs_eq, Verifier.publicInputsAreCanonical_flatten]
    simp [anonymousClaimWords, scope, field]
  · intro env env' e e' tierId tierId' claim claim' tier tier' expiry expiry'
    exact anonymousClaimWords_inj ⟨tier, tier'⟩ ⟨expiry, expiry'⟩

namespace Sample

def proving : Proving where
  fromBytes word := ofBigEndian word.toList
  toBytes x := ⟨(toBigEndian 32 x.val).toArray, by simp⟩
  checkProof _ _ _ := .ok ()

def verifier : AnonymousClaimVerifier :=
  { proving with
    verificationKey := toBigEndian 8 4096 ++ toBigEndian 8 12 ++ toBigEndian 8 21 ++
      toBigEndian 8 1 ++ List.replicate (27 * 64) 0 }

def verifying : Network Unit :=
  { silent with
    tryVerify := fun _ _ proof inputs s => (verifier.verify proof inputs == some true, s) }

def proven (ledger : ℕ) (n : UInt8) : Step Unit :=
  let claim := { claim n with proof := List.replicate Verifier.proofBytes 0 }
  call ledger (.claimAnonymousTicket concert 0 claim)

def provenClaims : List (Step Unit) := [proven 20 1, proven 25 2, proven 30 2]

end Sample

theorem verifier_reduces : Sample.verifier.Reduces where
  fromBytes _ := rfl
  toBytes x := ofBigEndian_toBigEndian ((ZMod.val_lt x).trans (by decide))

theorem claims_unaliased_sample :
    (told (World.next Sample.verifying Sample.deployment)
      (mintedTo Sample.verifying Sample.deployment Sample.concert) (deployed ())
      (Sample.anonymous ++ Sample.provenClaims)).Pairwise fun m n =>
        ¬ ofBigEndian m.toList ≡ ofBigEndian n.toList [MOD modulus] := by
  have unaliased := claims_unaliased Sample.verifying Sample.deployment () Sample.verifier
    verifier_reduces
  refine unaliased.1 Sample.concert _ (along_of_forall (fun w step => ?_) _ _)
  unfold Served
  split
  · exact fun _ a _ _ _ _ _ => rfl
  · trivial

end Zicket.Events
