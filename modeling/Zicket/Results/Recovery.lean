import Zicket.Registry.Calls

/-! Recovery signatures over whole runs of the ticket contract. The signed message is the
address of the new owner and nothing else, so what a signature is good for is decided by
the keys that are stored. -/

namespace Zicket.Tickets

open Host Foundation

variable {d : Deployment}

def accepted (d : Deployment) (w : World) (step : Step) : Option (BytesN 64) :=
  match step.call with
  | .recoverTicket _ _ signature =>
    if step.call.succeeds ⟨d, step.invocation⟩ w = true then some signature else none
  | _ => none

def signaturesAccepted (d : Deployment) (steps : List Step) : List (BytesN 64) :=
  told (World.next d) (accepted d) deployed steps

/-- No signature was accepted twice, and none that was accepted would be again. -/
structure SignaturesSpent (d : Deployment) (steps : List Step) : Prop where
  once : (signaturesAccepted d steps).Nodup
  refused : ∀ invocation k newOwner, ∀ signature ∈ signaturesAccepted d steps,
    ¬ (Call.recoverTicket k newOwner signature).succeeds ⟨d, invocation⟩
      (run (World.next d) deployed steps) = true

/-- A key that is set accepts no signature that was accepted before, and a signature that
is accepted now is accepted by no key of another usable ticket; for any new owner. -/
def KeysUnrelated (d : Deployment) (before : List Step) (step : Step) : Prop :=
  let w := run (World.next d) deployed before
  step.call.succeeds ⟨d, step.invocation⟩ w = true →
  match step.call with
  | .setRecoveryKey _ _ publicKey =>
    ∀ newOwner, ∀ signature ∈ signaturesAccepted d before,
      d.crypto.ed25519Verify publicKey (d.crypto.addressXdr newOwner) signature = false
  | .recoverTicket id _ signature =>
    ∀ k t publicKey newOwner, k ≠ id → w.getTicket k = .ok t → t.Usable →
      w.getRecoveryKey k = some publicKey →
      d.crypto.ed25519Verify publicKey (d.crypto.addressXdr newOwner) signature = false
  | _ => True

def Registry.Refuses (crypto : Crypto) (signatures : List (BytesN 64)) (r : Registry) : Prop :=
  ∀ k t publicKey newOwner, r.ticket k = some t → t.Usable → r.key k = some publicKey →
    ∀ signature ∈ signatures,
      crypto.ed25519Verify publicKey (crypto.addressXdr newOwner) signature = false

section Refuses

open Registry

variable {crypto : Crypto} {signatures : List (BytesN 64)} {r : Registry}

theorem Registry.Refuses.put {t t' : Ticket} (h : r.Refuses crypto signatures)
    (stored : r.ticket t.ticketId = some t) (usable : t.Usable) (number : t'.ticketId = t.ticketId) :
    (r.putTicket t').Refuses crypto signatures := by
  intro k u publicKey newOwner hu usable' key
  obtain ⟨rfl, rfl⟩ | ⟨-, hu⟩ := update_eq_some.mp hu
  · exact h t.ticketId t publicKey newOwner stored usable (number ▸ key)
  · exact h k u publicKey newOwner hu usable' key

theorem refuses_apply (kept : r.Kept) (h : r.Refuses crypto signatures) {c : Change}
    (sound : r.Sound c)
    (unrelated : ∀ id publicKey, c = .setKey id publicKey → ∀ newOwner, ∀ signature ∈ signatures,
      crypto.ed25519Verify publicKey (crypto.addressXdr newOwner) signature = false) :
    (r.apply c).Refuses crypto signatures := by
  cases c with
  | mint t =>
    intro k u publicKey newOwner hu usable key
    obtain ⟨rfl, rfl⟩ | ⟨-, hu⟩ := update_eq_some.mp hu
    · -- a new ticket has no key
      obtain ⟨old, stored⟩ := Option.isSome_iff_exists.mp
        (kept.keyed _ (Option.isSome_of_mem key))
      have := (kept.numbered _ old stored).2
      exact absurd this (by rw [sound.1]; exact lt_irrefl _)
    · exact h k u publicKey newOwner hu usable key
  | move t dst => exact h.put sound.1 sound.2 rfl
  | mark t status isUsed => exact h.put sound.1 sound.2 rfl
  | setKey id publicKey =>
    intro k u publicKey' newOwner hu usable key
    obtain ⟨-, rfl⟩ | ⟨-, key⟩ := update_eq_some.mp key
    · exact unrelated id publicKey rfl newOwner
    · exact h k u publicKey' newOwner hu usable key
  | dropKey id =>
    intro k u publicKey newOwner hu usable key
    exact h k u publicKey newOwner hu usable (update_none_eq_some.mp key).2

theorem refuses_cons {signature : BytesN 64} : r.Refuses crypto (signature :: signatures) ↔
    r.Refuses crypto [signature] ∧ r.Refuses crypto signatures := by
  constructor
  · intro h
    refine ⟨fun k t key n stored usable hkey s mem => ?_,
      fun k t key n stored usable hkey s mem => ?_⟩
    · exact h k t key n stored usable hkey s
        (List.mem_cons.mpr (.inl (List.mem_singleton.mp mem)))
    · exact h k t key n stored usable hkey s (List.mem_cons_of_mem _ mem)
  · rintro ⟨first, rest⟩ k t key n stored usable hkey s mem
    obtain rfl | mem := List.mem_cons.mp mem
    · exact first k t key n stored usable hkey s (List.mem_singleton_self _)
    · exact rest k t key n stored usable hkey s mem

theorem refuses_recover {t : Ticket} {dst : Address} {signature : BytesN 64} :
    (run Registry.apply r [.move t dst, .dropKey t.ticketId]).Refuses crypto [signature] ↔
      ∀ k u publicKey newOwner, k ≠ t.ticketId → r.ticket k = some u → u.Usable →
        r.key k = some publicKey →
        crypto.ed25519Verify publicKey (crypto.addressXdr newOwner) signature = false := by
  have other {k : ℕ} (hk : k ≠ t.ticketId) :
      (run Registry.apply r [.move t dst, .dropKey t.ticketId]).ticket k = r.ticket k :=
    Function.update_of_ne hk ..
  constructor
  · intro h k u publicKey newOwner hk hu usable key
    exact h k u publicKey newOwner ((other hk).trans hu) usable
      (update_none_eq_some.mpr ⟨hk, key⟩) signature (List.mem_singleton_self _)
  · intro h k u publicKey newOwner hu usable key s mem
    obtain ⟨hk, key⟩ := update_none_eq_some.mp key
    rw [List.mem_singleton.mp mem]
    exact h k u publicKey newOwner hk ((other hk).symm.trans hu) usable key

end Refuses

theorem Makes.unset {env : Env} {r : Registry} {cs : List Change} {c : Call}
    (makes : Makes env r cs c) (other : ∀ owner id publicKey, c ≠ .setRecoveryKey owner id publicKey) :
    ∀ change ∈ cs, ∀ id publicKey, change ≠ .setKey id publicKey := by
  cases c with
  | batchMintTicket =>
    obtain rfl := makes
    intro change mem
    obtain ⟨id, -, rfl⟩ := List.mem_map.mp mem
    simp [World.minting]
  | transferTicket =>
    obtain ⟨-, t, -, -, -, rfl⟩ := makes
    simp
  | adminTransferTicket =>
    obtain ⟨t, -, -, -, rfl⟩ := makes
    simp
  | useTicket | cancelTicket =>
    obtain ⟨t, -, rfl⟩ := makes
    simp
  | setRecoveryKey owner id publicKey => exact absurd rfl (other owner id publicKey)
  | recoverTicket =>
    obtain ⟨t, publicKey, -, -, -, -, rfl⟩ := makes
    simp
  | mintTicket =>
    obtain rfl := makes
    simp [World.minting]
  | initialise | setPaymentsContract | setEventContract | migrate =>
    obtain rfl := makes
    simp

theorem accepted_failed {w : World} {step : Step}
    (failed : ¬ step.call.succeeds ⟨d, step.invocation⟩ w = true) : accepted d w step = none := by
  unfold accepted
  split
  · rw [if_neg failed]
  · rfl

theorem accepted_eq_some {w : World} {step : Step} {signature : BytesN 64}
    (h : accepted d w step = some signature) : ∃ k newOwner,
      (Call.recoverTicket k newOwner signature).succeeds ⟨d, step.invocation⟩ w = true := by
  unfold accepted at h
  split at h
  · rename_i k newOwner signature' call
    split at h
    · rename_i success
      cases h
      exact ⟨k, newOwner, call ▸ success⟩
    · cases h
  · cases h

/-- What a run refuses, it refuses after one more step exactly when the keys are unrelated. -/
theorem next_refuses {before : List Step} {step : Step}
    (kept : (run (World.next d) deployed before).registry.Kept)
    (h : (run (World.next d) deployed before).registry.Refuses d.crypto
      (signaturesAccepted d before)) :
    (run (World.next d) deployed (before ++ [step])).registry.Refuses d.crypto
      (signaturesAccepted d (before ++ [step])) ↔ KeysUnrelated d before step := by
  rw [signaturesAccepted, told_append_singleton, run_append, run_cons, run_nil]
  change _ ↔ _ → _
  by_cases success :
      step.call.succeeds ⟨d, step.invocation⟩ (run (World.next d) deployed before) = true
  · obtain ⟨cs, makes, sound, effect⟩ := succeeds_made kept success
    rw [← effect, forall_prop_of_true success]
    obtain ⟨invocation, c⟩ := step
    -- changes that set no key leave the refusals alone
    have keeps (unset : ∀ c ∈ cs, ∀ id publicKey, c ≠ .setKey id publicKey) :
        (run Registry.apply _ cs).Refuses d.crypto (signaturesAccepted d before) :=
      (run_invariant (I := fun r => r.Kept ∧ r.Refuses d.crypto (signaturesAccepted d before))
        (fun r c inv meets => ⟨Registry.apply_kept inv.1 meets.1,
          refuses_apply inv.1 inv.2 meets.1 fun id publicKey same =>
            absurd same (meets.2 id publicKey)⟩)
        (sound.and (along_of_mem (fun c mem _ => unset c mem) _)) ⟨kept, h⟩).2
    cases c with
    | setRecoveryKey owner id publicKey =>
      obtain ⟨-, t, stored, usable, -, rfl⟩ := makes
      constructor
      · intro after newOwner
        exact after id t publicKey newOwner stored usable (Function.update_self ..)
      · intro unrelated
        refine refuses_apply kept h sound.1 fun id' publicKey' same => ?_
        cases same
        exact unrelated
    | recoverTicket id newOwner signature =>
      have keeps := keeps (makes.unset (by simp))
      obtain ⟨t, publicKey, stored, -, -, -, rfl⟩ := makes
      obtain ⟨rfl, -⟩ := kept.numbered _ t stored
      have spent : accepted d (run (World.next d) deployed before)
          ⟨invocation, .recoverTicket t.ticketId newOwner signature⟩ = some signature :=
        if_pos success
      rw [spent, Option.toList_some, List.singleton_append, refuses_cons, refuses_recover]
      simp only [World.getTicket, okOr_eq_ok]
      exact and_iff_left keeps
    | mintTicket | batchMintTicket | transferTicket | adminTransferTicket | useTicket
    | cancelTicket | initialise | setPaymentsContract | setEventContract | migrate =>
      exact iff_of_true (keeps (makes.unset (by simp))) trivial
  · rw [next_failed success, accepted_failed success]
    exact iff_of_true h fun succeeded => absurd succeeded success

theorem refuses_iff (steps : List Step) :
    (run (World.next d) deployed steps).registry.Refuses d.crypto (signaturesAccepted d steps) ↔
      ∀ invocation k newOwner, ∀ signature ∈ signaturesAccepted d steps,
        ¬ (Call.recoverTicket k newOwner signature).succeeds ⟨d, invocation⟩
          (run (World.next d) deployed steps) = true := by
  have kept := reachable_kept d steps
  constructor
  · intro h invocation k newOwner signature mem success
    obtain ⟨t, publicKey, stored, usable, key, verified⟩ := (recover_succeeds_iff kept).mp success
    have := h k t publicKey newOwner stored usable key signature mem
    exact absurd (this.symm.trans verified) (by decide)
  · intro h k t publicKey newOwner stored usable key signature mem
    by_contra verified
    exact h Sample.invocation k newOwner signature mem ((recover_succeeds_iff kept).mpr
      ⟨t, publicKey, stored, usable, key, Bool.not_eq_false _ ▸ verified⟩)

/-- In every reached state the accepted signatures are spent exactly when every key that a
step of the run set or left usable was unrelated to them. -/
theorem recovery_signature_single_use (d : Deployment) (steps : List Step) :
    (∀ before, before <+: steps → SignaturesSpent d before) ↔
      Throughout (KeysUnrelated d) steps := by
  refine prefixes_iff_throughout ?_ fun before step spent => ?_
  · exact ⟨List.nodup_nil, fun _ _ _ _ mem => by cases mem⟩
  · have kept := reachable_kept d before
    rw [← next_refuses kept ((refuses_iff before).mpr spent.refused)]
    refine ⟨fun after => (refuses_iff _).mpr after.refused,
      fun refuses => ⟨?_, (refuses_iff _).mp refuses⟩⟩
    rw [signaturesAccepted, told_append_singleton]
    cases told : accepted d (run (World.next d) deployed before) step with
    | none => exact spent.once
    | some signature =>
      refine List.nodup_cons.mpr ⟨fun mem => ?_, spent.once⟩
      obtain ⟨k, newOwner, success⟩ := accepted_eq_some told
      exact spent.refused step.invocation k newOwner signature mem success

def Sample.recovered : List Step :=
  [Sample.call (.batchMintTicket Sample.concert Sample.organizer Sample.bob 2),
    Sample.call (.setRecoveryKey Sample.bob 1 (Sample.publicKey 6)),
    Sample.call (.setRecoveryKey Sample.bob 2 (Sample.publicKey 6)),
    Sample.call (.recoverTicket 1 Sample.amy (Sample.signature 6))]

/-- The signature then recovers the second ticket as well, and the first one again once
its key is set again. -/
theorem recovery_signature_reused :
    let again := Sample.call (.recoverTicket 2 Sample.amy (Sample.signature 6))
    let anew := [Sample.call (.setRecoveryKey Sample.amy 1 (Sample.publicKey 6)),
      Sample.call (.recoverTicket 1 Sample.amy (Sample.signature 6))]
    ¬ (signaturesAccepted Sample.deployment (Sample.recovered ++ [again])).Nodup ∧
      ¬ (signaturesAccepted Sample.deployment (Sample.recovered ++ anew)).Nodup := by
  decide

end Zicket.Tickets
