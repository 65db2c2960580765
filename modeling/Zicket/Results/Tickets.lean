import Zicket.Registry.Calls

/-! Tickets, their indexes and their recovery over whole runs of the ticket contract. -/

namespace Zicket.Tickets

open Host Foundation

variable {d : Deployment}

section Indexes

/-- The lists of tickets by owner and by event say what the ticket records say. -/
theorem indexes_exact (d : Deployment) (steps : List Step) :
    let w := run (World.next d) deployed steps
    (∀ owner, (w.getTicketsByOwner owner).Nodup ∧
      ∀ k, k ∈ w.getTicketsByOwner owner ↔ ∃ t, w.getTicket k = .ok t ∧ t.owner = owner) ∧
    (∀ e, w.getTicketsByEvent e = w.minted e ∧ (w.getTicketsByEvent e).Nodup ∧
      ∀ k, k ∈ w.getTicketsByEvent e ↔ ∃ t, w.getTicket k = .ok t ∧ t.eventId = e) ∧
    ∀ k t, w.getTicket k = .ok t → t.ticketId = k ∧ k < w.readNextTicketId := by
  intro w
  have kept : w.registry.Kept := reachable_kept d steps
  have stored (k : ℕ) (t : Ticket) : w.getTicket k = .ok t ↔ w.registry.ticket k = some t :=
    okOr_eq_ok
  have listed (e : Symbol) : w.getTicketsByEvent e = w.registry.minted e := congrFun kept.listed e
  simp only [stored]
  refine ⟨fun owner => ⟨(kept.wellFormed owner).nodup_items, fun k => ?_⟩, fun e => ?_, kept.numbered⟩
  · exact (kept.wellFormed owner).mem_items.trans (kept.owned owner k)
  · rw [listed]
    exact ⟨rfl, (kept.sorted e).imp Nat.ne_of_lt, kept.event e⟩

end Indexes

section RecoveryKeys

/-- Who set which recovery key of the ticket `k`, if the step did. -/
def registrar (d : Deployment) (k : ℕ) (w : World) (step : Step) : Option (Address × BytesN 32) :=
  match step.call with
  | .setRecoveryKey owner id publicKey =>
    if id = k ∧ step.invocation.authorized owner = true ∧
        step.call.succeeds ⟨d, step.invocation⟩ w = true then
      some (owner, publicKey)
    else none
  | _ => none

/-- After the run every stored recovery key was set by the present owner of its ticket,
and recoveries are signed under such a key. -/
structure KeysOfOwners (d : Deployment) (steps : List Step) : Prop where
  stored : ∀ k publicKey, (run (World.next d) deployed steps).getRecoveryKey k = some publicKey →
    ∃ t, (run (World.next d) deployed steps).getTicket k = .ok t ∧
      latest (World.next d) (registrar d k) deployed steps = some (t.owner, publicKey)
  recovered : ∀ invocation k newOwner signature,
    (Call.recoverTicket k newOwner signature).succeeds ⟨d, invocation⟩
        (run (World.next d) deployed steps) = true →
    ∃ t publicKey, (run (World.next d) deployed steps).getTicket k = .ok t ∧
      latest (World.next d) (registrar d k) deployed steps = some (t.owner, publicKey) ∧
      d.crypto.ed25519Verify publicKey (d.crypto.addressXdr newOwner) signature = true

/-- A ticket that `transfer_ticket` or `admin_transfer_ticket` gives to someone else has
no recovery key at that moment. -/
def TransfersKeyless (d : Deployment) (w : World) (step : Step) : Prop :=
  match step.call with
  | .transferTicket src dst id | .adminTransferTicket _ src dst id =>
    step.call.succeeds ⟨d, step.invocation⟩ w = true → src ≠ dst → w.getRecoveryKey id = none
  | _ => True

def Registry.KeyOf (r : Registry) (k : ℕ) (last : Option (Address × BytesN 32)) : Prop :=
  ∀ publicKey, r.key k = some publicKey → ∃ t, r.ticket k = some t ∧
    last = some (t.owner, publicKey)

section KeyOf

open Registry

variable {r : Registry} {k : ℕ} {last : Option (Address × BytesN 32)}

theorem Registry.KeyOf.put {t t' : Ticket} (h : r.KeyOf k last) (stored : r.ticket t.ticketId = some t)
    (number : t'.ticketId = t.ticketId) (owner : t'.owner = t.owner) : (r.putTicket t').KeyOf k last := by
  intro publicKey key
  obtain ⟨u, hu, set⟩ := h publicKey key
  by_cases same : k = t'.ticketId
  · subst same
    rw [number, stored] at hu
    cases hu
    exact ⟨t', Function.update_self .., owner ▸ set⟩
  · exact ⟨u, (Function.update_of_ne same ..).trans hu, set⟩

theorem keyOf_mint {t : Ticket} (kept : r.Kept) (h : r.KeyOf k last) (new : t.ticketId = r.next) :
    (r.apply (.mint t)).KeyOf k last := by
  intro publicKey key
  obtain ⟨u, hu, set⟩ := h publicKey key
  have other : k ≠ t.ticketId := by
    have := (kept.numbered k u hu).2
    omega
  exact ⟨u, (Function.update_of_ne other ..).trans hu, set⟩

theorem keyOf_move {t : Ticket} {dst : Address} (h : r.KeyOf k last)
    (stored : r.ticket t.ticketId = some t)
    (keyless : t.owner ≠ dst → r.key t.ticketId = none) : (r.apply (.move t dst)).KeyOf k last := by
  intro publicKey key
  obtain ⟨u, hu, set⟩ := h publicKey key
  by_cases same : k = t.ticketId
  · subst same
    rw [stored] at hu
    cases hu
    have owner : t.owner = dst := by
      by_contra other
      exact absurd ((keyless other).symm.trans key) (by simp)
    exact ⟨{ t with owner := dst }, Function.update_self .., owner ▸ set⟩
  · exact ⟨u, (Function.update_of_ne same ..).trans hu, set⟩

theorem keyOf_moveDrop {t : Ticket} {dst : Address} (h : r.KeyOf k last) :
    (run Registry.apply r [.move t dst, .dropKey t.ticketId]).KeyOf k last := by
  intro publicKey key
  change Function.update r.key t.ticketId none k = some publicKey at key
  obtain ⟨other, key⟩ := update_none_eq_some.mp key
  obtain ⟨u, hu, set⟩ := h publicKey key
  exact ⟨u, (Function.update_of_ne other ..).trans hu, set⟩

theorem keyOf_setKey {t : Ticket} {id : ℕ} {publicKey : BytesN 32} (h : r.KeyOf k last)
    (stored : r.ticket id = some t) :
    (r.apply (.setKey id publicKey)).KeyOf k
      ((if id = k then some (t.owner, publicKey) else none).or last) := by
  intro publicKey' key
  obtain ⟨rfl, rfl⟩ | ⟨other, key⟩ := update_eq_some.mp key
  · exact ⟨t, stored, by simp⟩
  · rw [if_neg (Ne.symm other), Option.none_or]
    exact h publicKey' key

end KeyOf

theorem registrar_failed {w : World} {step : Step} {k : ℕ}
    (failed : ¬ step.call.succeeds ⟨d, step.invocation⟩ w = true) :
    registrar d k w step = none := by
  unfold registrar
  split
  · rw [if_neg fun h => failed h.2.2]
  · rfl

theorem next_keyOf {w : World} {step : Step} {k : ℕ} {last : Option (Address × BytesN 32)}
    (kept : w.registry.Kept) (h : w.registry.KeyOf k last) (keyless : TransfersKeyless d w step) :
    (w.next d step).registry.KeyOf k ((registrar d k w step).or last) := by
  by_cases success : step.call.succeeds ⟨d, step.invocation⟩ w = true
  · obtain ⟨cs, makes, sound, effect⟩ := succeeds_made kept success
    rw [← effect]
    obtain ⟨invocation, c⟩ := step
    cases c with
    | mintTicket =>
      subst makes
      exact keyOf_mint kept h rfl
    | batchMintTicket =>
      subst makes
      have mints : Along Registry.apply (fun r c => r.Sound c ∧ ∃ t, c = .mint t) w.registry _ :=
        sound.and (along_of_mem (fun c mem _ => by
          obtain ⟨id, -, rfl⟩ := List.mem_map.mp mem
          exact ⟨_, rfl⟩) _)
      exact (run_invariant (I := fun r => r.Kept ∧ r.KeyOf k last)
        (by
          rintro r _ ⟨kept, keyOf⟩ ⟨sound, t, rfl⟩
          exact ⟨Registry.apply_kept kept sound, keyOf_mint kept keyOf sound.1⟩)
        mints ⟨kept, h⟩).2
    | transferTicket src dst id =>
      obtain ⟨-, t, stored, -, rfl, rfl⟩ := makes
      obtain ⟨rfl, -⟩ := kept.numbered id t stored
      exact keyOf_move h stored (keyless success)
    | adminTransferTicket admin src dst id =>
      obtain ⟨t, stored, -, rfl, rfl⟩ := makes
      obtain ⟨rfl, -⟩ := kept.numbered id t stored
      exact keyOf_move h stored (keyless success)
    | useTicket organizer owner id =>
      obtain ⟨t, stored, rfl⟩ := makes
      exact h.put sound.1.1 rfl rfl
    | cancelTicket id caller =>
      obtain ⟨t, stored, rfl⟩ := makes
      exact h.put sound.1.1 rfl rfl
    | setRecoveryKey owner id publicKey =>
      obtain ⟨authorized, t, stored, -, rfl, rfl⟩ := makes
      have set : registrar d k w ⟨invocation, .setRecoveryKey t.owner id publicKey⟩ =
          if id = k then some (t.owner, publicKey) else none := by
        simp only [registrar, success, and_true]
        split <;> simp_all
      rw [set]
      exact keyOf_setKey h stored
    | recoverTicket id newOwner signature =>
      obtain ⟨t, publicKey, stored, -, -, -, rfl⟩ := makes
      obtain ⟨rfl, -⟩ := kept.numbered id t stored
      exact keyOf_moveDrop h
    | initialise | setPaymentsContract | setEventContract | migrate =>
      obtain rfl := makes
      exact h
  · rw [next_failed success, registrar_failed success]
    exact h

theorem keysOfOwners_iff (steps : List Step) : KeysOfOwners d steps ↔
    ∀ k, (run (World.next d) deployed steps).registry.KeyOf k
      (latest (World.next d) (registrar d k) deployed steps) := by
  constructor
  · intro h k publicKey key
    obtain ⟨t, stored, set⟩ := h.stored k publicKey key
    exact ⟨t, okOr_eq_ok.mp stored, set⟩
  · intro h
    have stored : ∀ k publicKey,
        (run (World.next d) deployed steps).getRecoveryKey k = some publicKey →
        ∃ t, (run (World.next d) deployed steps).getTicket k = .ok t ∧
          latest (World.next d) (registrar d k) deployed steps = some (t.owner, publicKey) := by
      intro k publicKey key
      obtain ⟨t, stored, set⟩ := h k publicKey key
      exact ⟨t, okOr_eq_ok.mpr stored, set⟩
    refine ⟨stored, fun invocation k newOwner signature success => ?_⟩
    let recovers : Step := ⟨invocation, .recoverTicket k newOwner signature⟩
    have succeeds : recovers.call.succeeds ⟨d, recovers.invocation⟩
      (run (World.next d) deployed steps) = true := success
    have made := succeeds_made (reachable_kept d steps) succeeds
    obtain ⟨cs, ⟨t, publicKey, ht, -, key, verified, -⟩, -⟩ := made
    obtain ⟨t', ht', set⟩ := stored k publicKey key
    exact ⟨t', publicKey, ht', set, verified⟩

/-- Giving a ticket with a key to someone else leaves a key that is not its owner's. -/
theorem keyOf_transfer {w : World} {step : Step} {src dst : Address} {id : ℕ}
    {last : Option (Address × BytesN 32)} (kept : w.registry.Kept)
    (success : step.call.succeeds ⟨d, step.invocation⟩ w = true)
    (transfer : step.call = .transferTicket src dst id ∨
      ∃ admin, step.call = .adminTransferTicket admin src dst id)
    (before : w.registry.KeyOf id last)
    (after : (w.next d step).registry.KeyOf id last) (other : src ≠ dst) :
    w.getRecoveryKey id = none := by
  obtain ⟨cs, makes, -, effect⟩ := succeeds_made kept success
  have moved : ∃ t, w.registry.ticket id = some t ∧ t.owner = src ∧ cs = [.move t dst] := by
    obtain call | ⟨admin, call⟩ := transfer
    · rw [call] at makes
      obtain ⟨-, t, stored, -, owner, rfl⟩ := makes
      exact ⟨t, stored, owner, rfl⟩
    · rw [call] at makes
      obtain ⟨t, stored, -, owner, rfl⟩ := makes
      exact ⟨t, stored, owner, rfl⟩
  obtain ⟨t, stored, rfl, rfl⟩ := moved
  obtain ⟨rfl, -⟩ := kept.numbered id t stored
  by_contra key
  obtain ⟨publicKey, key⟩ := Option.ne_none_iff_exists'.mp key
  obtain ⟨u, hu, set⟩ := before publicKey key
  rw [stored] at hu
  cases hu
  rw [← effect] at after
  obtain ⟨u, hu, set'⟩ := after publicKey key
  have hu : some { t with owner := dst } = some u :=
    (Function.update_self (f := w.registry.ticket) ..).symm.trans hu
  cases hu
  rw [set] at set'
  exact other (congrArg Prod.fst (Option.some.inj set'))

/-- In every reached state recovery keys belong to the ticket owners exactly when no step
of the run transferred a ticket that had one. -/
theorem recovery_key_of_owner (d : Deployment) (steps : List Step) :
    (∀ before, before <+: steps → KeysOfOwners d before) ↔
      Along (World.next d) (TransfersKeyless d) deployed steps := by
  rw [along_iff_throughout]
  refine prefixes_iff_throughout ?_ fun before step held => ?_
  · refine (keysOfOwners_iff _).mpr fun k publicKey key => ?_
    cases key
  · have kept := reachable_kept d before
    have held := (keysOfOwners_iff _).mp held
    simp only [keysOfOwners_iff, run_append, latest_append_singleton, run_cons, run_nil]
    constructor
    · intro after
      unfold TransfersKeyless
      split
      · rename_i src dst id call
        intro success other
        have silent : registrar d id (run (World.next d) deployed before) step = none := by
          rw [registrar, call]
        have after := after id
        rw [silent, Option.none_or] at after
        exact keyOf_transfer kept success (.inl call) (held id) after other
      · rename_i admin src dst id call
        intro success other
        have silent : registrar d id (run (World.next d) deployed before) step = none := by
          rw [registrar, call]
        have after := after id
        rw [silent, Option.none_or] at after
        exact keyOf_transfer kept success (.inr ⟨admin, call⟩) (held id) after other
      · trivial
    · exact fun keyless k => next_keyOf kept (held k) keyless

def Sample.handedOver : List Step :=
  [Sample.call (.mintTicket Sample.concert Sample.organizer Sample.bob),
    Sample.call (.setRecoveryKey Sample.bob 1 (Sample.publicKey 5)),
    Sample.call (.transferTicket Sample.bob Sample.amy 1)]

/-- The key stays Bob's, and with it he takes the ticket back from Amy. -/
theorem recovery_key_outlives_transfer :
    let w := run (World.next Sample.deployment) deployed Sample.handedOver
    let takeBack := Sample.call (.recoverTicket 1 Sample.bob (Sample.signature 5))
    ¬ KeysOfOwners Sample.deployment Sample.handedOver ∧
      (w.get (.ticket 1)).map (·.owner) = some Sample.amy ∧
      ((w.next Sample.deployment takeBack).get (.ticket 1)).map (·.owner) = some Sample.bob := by
  refine ⟨fun held => ?_, by decide, by decide⟩
  obtain ⟨t, stored, set⟩ := held.stored 1 (Sample.publicKey 5) (by decide)
  have owner : (run (World.next Sample.deployment) deployed Sample.handedOver).getTicket 1 =
      .ok ⟨1, Sample.concert, Sample.organizer, Sample.amy, 1, .valid, true, false⟩ := by
    decide
  rw [owner] at stored
  cases stored
  exact absurd set (by decide)

end RecoveryKeys

end Zicket.Tickets
