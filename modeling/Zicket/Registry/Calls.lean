import Zicket.Registry.View

/-! Every step of the ticket contract, read as changes of the registry: a successful call
makes what `Makes` says, a failed call makes none. So every reachable registry is kept. -/

namespace Zicket.Tickets

open Host Foundation World Registry

/-- The changes of a successful call, and what the call checked first. -/
def Makes (env : Env) (r : Registry) (cs : List Change) : Call → Prop
  | .mintTicket e organizer owner => cs = [minting env e organizer owner r.next]
  | .batchMintTicket e organizer owner count =>
    cs = (List.range' r.next count).map (minting env e organizer owner)
  | .transferTicket src dst id =>
    src ≠ dst ∧ ∃ t, r.ticket id = some t ∧ t.Usable ∧ t.owner = src ∧ cs = [.move t dst]
  | .adminTransferTicket _ src dst id =>
    ∃ t, r.ticket id = some t ∧ t.Usable ∧ t.owner = src ∧ cs = [.move t dst]
  | .useTicket _ _ id => ∃ t, r.ticket id = some t ∧ cs = [.mark t .used true]
  | .cancelTicket id _ => ∃ t, r.ticket id = some t ∧ cs = [.mark t .cancelled t.isUsed]
  | .setRecoveryKey owner id publicKey =>
    env.authorized owner = true ∧ ∃ t, r.ticket id = some t ∧ t.Usable ∧ t.owner = owner ∧
      cs = [.setKey id publicKey]
  | .recoverTicket id newOwner signature =>
    ∃ t publicKey, r.ticket id = some t ∧ t.Usable ∧ r.key id = some publicKey ∧
      env.crypto.ed25519Verify publicKey (env.crypto.addressXdr newOwner) signature = true ∧
      cs = [.move t newOwner, .dropKey id]
  | .initialise .. | .setPaymentsContract .. | .setEventContract .. | .migrate .. => cs = []

def Made (env : Env) (r : Registry) (c : Call) (r' : Registry) : Prop :=
  ∃ cs, Makes env r cs c ∧ Along apply Sound r cs ∧ run apply r cs = r'

section Calls

variable {env : Env} {w w' : World}

/-- The loop writes the next number once, at its end; till then the stored one is stale. -/
theorem issueTickets_registry {e : Symbol} {organizer owner : Address} {stale : ℕ} (count : ℕ) :
    ∀ {r : Registry} {w w' : World} {ids : List ℕ} {last : ℕ},
      w.registry = { r with next := stale } →
      issueTickets env e organizer owner count r.next w = .ok (ids, last, w') →
      ids = List.range' r.next count ∧ ∃ r', Along apply Sound r
          ((List.range' r.next count).map (minting env e organizer owner)) ∧
        run apply r ((List.range' r.next count).map (minting env e organizer owner)) = r' ∧
        w'.registry = { r' with next := stale } ∧ r'.next = last := by
  induction count with
  | zero =>
    intro r w w' ids last view h
    simp only [issueTickets, pure_eq_ok] at h
    cases h
    exact ⟨rfl, r, trivial, rfl, view, rfl⟩
  | succ count ih =>
    intro r w w' ids last view h
    simp only [issueTickets, bind_eq_ok, pure_eq_ok, u64_eq_ok] at h
    obtain ⟨w₁, h₁, nextId, ⟨bound, rfl⟩, ⟨ids', last', w₂⟩, h₂, h₃⟩ := h
    cases h₃
    have view₁ : w₁.registry =
        { r.apply (minting env e organizer owner r.next) with next := stale } := by
      rw [issueTicket_registry h₁, view]
      rfl
    obtain ⟨rfl, r', sound, effect, view', next⟩ := ih view₁ h₂
    exact ⟨rfl, r', ⟨⟨rfl, ⟨rfl, rfl⟩, bound⟩, sound⟩, effect, view', next⟩

theorem issueTickets_annex {e : Symbol} {organizer owner : Address} {count id last : ℕ}
    {ids : List ℕ} (h : issueTickets env e organizer owner count id w = .ok (ids, last, w')) :
    w'.annex.credential = w.annex.credential ∧ w'.annex.eventContract = w.annex.eventContract := by
  induction count generalizing id ids w with
  | zero =>
    cases h
    exact ⟨rfl, rfl⟩
  | succ count ih =>
    simp only [issueTickets, bind_eq_ok, pure_eq_ok] at h
    obtain ⟨w₁, issued, _, -, ⟨ids', last', w₂⟩, rest, h⟩ := h
    cases h
    obtain ⟨credential, minter⟩ := issueTicket_annex issued
    obtain ⟨credential', minter'⟩ := ih rest
    exact ⟨credential'.trans credential, minter'.trans minter⟩

theorem mintTicket_made {e : Symbol} {organizer owner : Address} {id : ℕ}
    (h : mintTicket env e organizer owner w = .ok (id, w')) :
    id = w.registry.next ∧ Made env w.registry (.mintTicket e organizer owner) w'.registry := by
  simp only [mintTicket, bind_eq_ok, pure_eq_ok, u64_eq_ok] at h
  obtain ⟨-, -, w₁, h₁, nextId, ⟨bound, rfl⟩, h₂⟩ := h
  cases h₂
  refine ⟨rfl, _, rfl, ⟨⟨rfl, ⟨rfl, rfl⟩, bound⟩, trivial⟩, ?_⟩
  rw [writeNextTicketId_registry, issueTicket_registry h₁]
  rfl

theorem batchMintTicket_made {e : Symbol} {organizer owner : Address} {count : ℕ} {ids : List ℕ}
    (h : batchMintTicket env e organizer owner count w = .ok (ids, w')) :
    ids = List.range' w.registry.next count ∧
      Made env w.registry (.batchMintTicket e organizer owner count) w'.registry := by
  simp only [batchMintTicket, bind_eq_ok, pure_eq_ok, require_eq_ok] at h
  obtain ⟨-, -, -, -, ⟨ids', last, w₁⟩, h₁, h₂⟩ := h
  cases h₂
  have start : w.registry = { w.registry with next := w.registry.next } := rfl
  obtain ⟨rfl, r', sound, effect, view, rfl⟩ := issueTickets_registry count start h₁
  refine ⟨rfl, _, rfl, sound, ?_⟩
  rw [writeNextTicketId_registry, view, effect]

theorem move_made {t : Ticket} {src dst : Address} {id : ℕ} (kept : w.registry.Kept)
    (stored : w.registry.ticket id = some t) (usable : t.Usable) (owner : t.owner = src)
    (h : ((w.set (.ticket id) { t with owner := dst }).removeOwnerTicket src id).addOwnerTicket
      dst id = .ok w') :
    Sound w.registry (.move t dst) ∧ w.registry.apply (.move t dst) = w'.registry := by
  obtain ⟨rfl, -⟩ := kept.numbered id t stored
  subst owner
  refine ⟨⟨stored, usable⟩, ?_⟩
  rw [addOwnerTicket_registry h, removeOwnerTicket_registry, registry_set_ticket]
  rfl

theorem mark_made {t : Ticket} (status : TicketStatus) (isUsed : Bool) {id : ℕ}
    (kept : w.registry.Kept) (stored : w.registry.ticket id = some t) (usable : t.Usable) :
    Sound w.registry (.mark t status isUsed) ∧ w.registry.apply (.mark t status isUsed) =
      (w.set (.ticket id) { t with status, isUsed }).registry := by
  obtain ⟨rfl, -⟩ := kept.numbered id t stored
  exact ⟨⟨stored, usable⟩, (registry_set_ticket ..).symm⟩

theorem transferTicket_made {src dst : Address} {id : ℕ} (kept : w.registry.Kept)
    (h : transferTicket env src dst id w = .ok w') :
    Made env w.registry (.transferTicket src dst id) w'.registry := by
  simp only [transferTicket, bind_eq_ok, pure_eq_ok, require_eq_ok] at h
  obtain ⟨-, -, -, distinct, t, stored, -, owner, -, -, -, unused, -, valid, w₁, h₁, rfl⟩ := h
  have stored := getTicket_registry stored
  obtain ⟨sound, effect⟩ := move_made kept stored ⟨unused, valid⟩ owner h₁
  refine ⟨_, ⟨distinct, t, stored, ⟨unused, valid⟩, owner, rfl⟩, ⟨sound, trivial⟩, ?_⟩
  rw [emit_registry _ _ (by simp)]
  exact effect

theorem adminTransferTicket_made {admin src dst : Address} {id : ℕ} (kept : w.registry.Kept)
    (h : adminTransferTicket env admin src dst id w = .ok w') :
    Made env w.registry (.adminTransferTicket admin src dst id) w'.registry := by
  simp only [adminTransferTicket, bind_eq_ok, pure_eq_ok, require_eq_ok] at h
  obtain ⟨-, -, _, -, -, -, t, stored, -, owner, -, ⟨-, usable⟩, w₁, h₁, rfl⟩ := h
  have stored := getTicket_registry stored
  obtain ⟨rfl, -⟩ := kept.numbered id t stored
  obtain ⟨sound, effect⟩ := move_made kept stored usable owner h₁
  refine ⟨_, ⟨t, stored, usable, owner, rfl⟩, ⟨sound, trivial⟩, ?_⟩
  rw [emit_registry _ _ (by simp)]
  exact effect

theorem useTicket_made {organizer owner : Address} {id : ℕ} (kept : w.registry.Kept)
    (h : useTicket env organizer owner id w = .ok w') :
    Made env w.registry (.useTicket organizer owner id) w'.registry := by
  simp only [useTicket, bind_eq_ok, pure_eq_ok, require_eq_ok] at h
  obtain ⟨-, -, -, -, t, stored, -, -, -, -, -, unused, -, active, -, fresh, rfl⟩ := h
  have stored := getTicket_registry stored
  have valid : t.status = .valid := by
    cases status : t.status with
    | valid => rfl
    | used => exact absurd status fresh
    | cancelled => exact absurd status active
  obtain ⟨sound, effect⟩ := mark_made .used true kept stored ⟨unused, valid⟩
  refine ⟨_, ⟨t, stored, rfl⟩, ⟨sound, trivial⟩, ?_⟩
  rw [emit_registry _ _ (by simp), emit_registry _ _ (by simp)]
  exact effect

theorem cancelTicket_made {id : ℕ} {caller : Address} (kept : w.registry.Kept)
    (h : cancelTicket env id caller w = .ok w') :
    Made env w.registry (.cancelTicket id caller) w'.registry := by
  simp only [cancelTicket, bind_eq_ok, pure_eq_ok, require_eq_ok] at h
  obtain ⟨-, -, t, stored, -, -, -, unused, -, valid, rfl⟩ := h
  have stored := getTicket_registry stored
  obtain ⟨rfl, -⟩ := kept.numbered id t stored
  obtain ⟨sound, effect⟩ := mark_made .cancelled t.isUsed kept stored ⟨unused, valid⟩
  refine ⟨_, ⟨t, stored, rfl⟩, ⟨sound, trivial⟩, ?_⟩
  rw [emit_registry _ _ (by simp)]
  exact effect

theorem setRecoveryKey_made {owner : Address} {id : ℕ} {publicKey : BytesN 32}
    (h : setRecoveryKey env owner id publicKey w = .ok w') :
    Made env w.registry (.setRecoveryKey owner id publicKey) w'.registry := by
  simp only [setRecoveryKey, bind_eq_ok, pure_eq_ok, require_eq_ok, requireAuth_eq_ok] at h
  obtain ⟨-, authorized, t, stored, -, owner, -, usable, rfl⟩ := h
  have stored := getTicket_registry stored
  refine ⟨_, ⟨authorized, t, stored, usable, owner, rfl⟩, ⟨⟨t, stored, usable⟩, trivial⟩, ?_⟩
  rw [emit_registry _ _ (by simp)]
  exact (registry_set_recoveryKey ..).symm

/-- The index of the new owner has room, so a transfer never traps. -/
theorem move_succeeds {t : Ticket} (kept : w.registry.Kept)
    (stored : w.registry.ticket t.ticketId = some t) (dst : Address) :
    ∃ w', ((w.updateTicket { t with owner := dst }).removeOwnerTicket t.owner
      t.ticketId).addOwnerTicket dst t.ticketId = .ok w' := by
  have view : ((w.updateTicket { t with owner := dst }).removeOwnerTicket t.owner
      t.ticketId).registry.owned = (w.registry.removeOwned t.owner t.ticketId).owned := by
    rw [removeOwnerTicket_registry, World.updateTicket, registry_set_ticket]
    rfl
  have count : ((w.updateTicket { t with owner := dst }).removeOwnerTicket t.owner
      t.ticketId).getOwnerTicketsCount dst < w.registry.next := by
    refine lt_of_eq_of_lt ?_ (removeOwned_count kept stored dst)
    rw [← view]
    rfl
  simp only [addOwnerTicket, bind_eq_ok, pure_eq_ok, u64_eq_ok]
  exact ⟨_, _, ⟨lt_of_le_of_lt count kept.bounded, rfl⟩, rfl⟩

theorem recoverTicket_made {id : ℕ} {newOwner : Address} {signature : BytesN 64}
    (kept : w.registry.Kept) (h : recoverTicket env id newOwner signature w = .ok w') :
    Made env w.registry (.recoverTicket id newOwner signature) w'.registry := by
  simp only [recoverTicket, bind_eq_ok, pure_eq_ok, require_eq_ok, okOr_eq_ok, ensure_eq_ok] at h
  obtain ⟨t, stored, -, usable, publicKey, key, -, verified, w₁, h₁, rfl⟩ := h
  have stored := getTicket_registry stored
  obtain ⟨rfl, -⟩ := kept.numbered id t stored
  obtain ⟨sound, effect⟩ := move_made kept stored usable rfl h₁
  have moved : (w.registry.apply (.move t newOwner)).ticket t.ticketId =
      some { t with owner := newOwner } := Function.update_self ..
  refine ⟨_, ⟨t, publicKey, stored, usable, key, verified, rfl⟩,
    ⟨sound, ⟨_, moved, usable⟩, trivial⟩, ?_⟩
  rw [emit_registry _ _ (by simp), removeRecoveryKey, registry_remove_recoveryKey, ← effect]
  rfl

theorem exec_made {c : Call} (kept : w.registry.Kept) (h : c.exec env w = .ok w') :
    Made env w.registry c w'.registry := by
  cases c with
  | mintTicket e organizer owner =>
    simp only [Call.exec, bind_eq_ok, pure_eq_ok] at h
    obtain ⟨⟨id, w₁⟩, minted, rfl⟩ := h
    exact (mintTicket_made minted).2
  | batchMintTicket e organizer owner count =>
    simp only [Call.exec, bind_eq_ok, pure_eq_ok] at h
    obtain ⟨⟨ids, w₁⟩, minted, rfl⟩ := h
    exact (batchMintTicket_made minted).2
  | transferTicket src dst id => exact transferTicket_made kept h
  | adminTransferTicket admin src dst id => exact adminTransferTicket_made kept h
  | useTicket organizer owner id => exact useTicket_made kept h
  | cancelTicket id caller => exact cancelTicket_made kept h
  | setRecoveryKey owner id publicKey => exact setRecoveryKey_made h
  | recoverTicket id newOwner signature => exact recoverTicket_made kept h
  | initialise =>
    simp only [Call.exec, initializeContract, bind_eq_ok, pure_eq_ok] at h
    obtain ⟨-, -, -, -, rfl⟩ := h
    exact ⟨[], rfl, trivial, rfl⟩
  | setPaymentsContract =>
    simp only [Call.exec, setPaymentsContract, bind_eq_ok, pure_eq_ok] at h
    obtain ⟨-, -, rfl⟩ := h
    exact ⟨[], rfl, trivial, rfl⟩
  | setEventContract =>
    simp only [Call.exec, setEventContract, bind_eq_ok, pure_eq_ok] at h
    obtain ⟨-, -, rfl⟩ := h
    exact ⟨[], rfl, trivial, rfl⟩
  | migrate =>
    simp only [Call.exec, migrate, bind_eq_ok, pure_eq_ok] at h
    obtain ⟨_, ⟨-, -, -, -, rfl⟩, rfl⟩ := h
    exact ⟨[], rfl, trivial, rfl⟩

end Calls

theorem succeeds_iff {env : Env} {w : World} {c : Call} :
    c.succeeds env w = true ↔ ∃ w', c.exec env w = .ok w' := by
  unfold Call.succeeds
  cases c.exec env w <;> simp [Except.isOk, Except.toBool]

def Call.mints : Call → ℕ
  | .mintTicket .. => 1
  | .batchMintTicket _ _ _ count => count
  | _ => 0

theorem made_next {env : Env} {r r' : Registry} {c : Call} (made : Made env r c r') :
    r'.next = r.next + c.mints := by
  have minted (e : Symbol) (organizer owner : Address) (count : ℕ) : ∀ r : Registry,
      (run apply r ((List.range' r.next count).map (minting env e organizer owner))).next =
        r.next + count := by
    induction count with
    | zero => exact fun _ => rfl
    | succ count ih =>
      intro r
      have rest := ih (r.apply (minting env e organizer owner r.next))
      exact rest.trans (by change r.next + 1 + count = _; omega)
  obtain ⟨cs, makes, -, rfl⟩ := made
  cases c with
  | mintTicket =>
    obtain rfl := makes
    rfl
  | batchMintTicket e organizer owner count =>
    obtain rfl := makes
    exact minted e organizer owner count r
  | transferTicket =>
    obtain ⟨-, t, -, -, -, rfl⟩ := makes
    rfl
  | adminTransferTicket =>
    obtain ⟨t, -, -, -, rfl⟩ := makes
    rfl
  | useTicket =>
    obtain ⟨t, -, rfl⟩ := makes
    rfl
  | cancelTicket =>
    obtain ⟨t, -, rfl⟩ := makes
    rfl
  | setRecoveryKey =>
    obtain ⟨-, t, -, -, -, rfl⟩ := makes
    rfl
  | recoverTicket =>
    obtain ⟨t, publicKey, -, -, -, -, rfl⟩ := makes
    rfl
  | _ =>
    obtain rfl := makes
    rfl

/-- `recover_ticket` succeeds exactly on usable tickets whose key accepts the signature. -/
theorem recover_succeeds_iff {env : Env} {w : World} (kept : w.registry.Kept) {id : ℕ}
    {newOwner : Address} {signature : BytesN 64} :
    (Call.recoverTicket id newOwner signature).succeeds env w = true ↔
      ∃ t publicKey, w.registry.ticket id = some t ∧ t.Usable ∧
        w.registry.key id = some publicKey ∧
        env.crypto.ed25519Verify publicKey (env.crypto.addressXdr newOwner) signature = true := by
  rw [succeeds_iff]
  constructor
  · rintro ⟨w', result⟩
    obtain ⟨cs, ⟨t, publicKey, stored, usable, key, verified, -⟩, -⟩ := exec_made kept result
    exact ⟨t, publicKey, stored, usable, key, verified⟩
  · rintro ⟨t, publicKey, stored, usable, key, verified⟩
    obtain ⟨rfl, -⟩ := kept.numbered id t stored
    obtain ⟨w', moved⟩ := move_succeeds kept stored newOwner
    simp only [Call.exec, recoverTicket, bind_eq_ok, pure_eq_ok, require_eq_ok, okOr_eq_ok,
      ensure_eq_ok]
    exact ⟨_, t, okOr_eq_ok.mpr stored, (), usable, publicKey, key, (), verified, w', moved, rfl⟩

variable {d : Deployment}

theorem succeeds_made {w : World} {step : Step} (kept : w.registry.Kept)
    (h : step.call.succeeds ⟨d, step.invocation⟩ w = true) :
    Made ⟨d, step.invocation⟩ w.registry step.call (w.next d step).registry := by
  obtain ⟨w', result⟩ := succeeds_iff.mp h
  rw [World.next, result, commit_ok]
  exact exec_made kept result

theorem next_failed {w : World} {step : Step}
    (h : ¬ step.call.succeeds ⟨d, step.invocation⟩ w = true) : w.next d step = w := by
  rw [World.next]
  cases result : step.call.exec ⟨d, step.invocation⟩ w with
  | error e => rfl
  | ok w' => exact absurd (succeeds_iff.mpr ⟨w', result⟩) h

theorem next_kept {w : World} (step : Step) (kept : w.registry.Kept) :
    (w.next d step).registry.Kept := by
  by_cases success : step.call.succeeds ⟨d, step.invocation⟩ w = true
  · obtain ⟨cs, -, sound, effect⟩ := succeeds_made kept success
    rw [← effect]
    exact run_kept sound kept
  · rw [next_failed success]
    exact kept

theorem deployed_kept : deployed.registry.Kept where
  bounded := by decide
  numbered k t stored := by cases stored
  wellFormed o :=
    { place := by intro x i stored; cases stored
      slot := by intro i lt; cases lt }
  owned o k := by
    constructor
    · intro placed
      cases placed
    · rintro ⟨t, stored, -⟩
      cases stored
  listed := rfl
  sorted e := List.Pairwise.nil
  event e k := by
    constructor
    · intro mem
      cases mem
    · rintro ⟨t, stored, -⟩
      cases stored
  keyed k key := by cases key

theorem reachable_kept (d : Deployment) (steps : List Step) :
    (run (World.next d) deployed steps).registry.Kept :=
  run_invariant (I := fun w : World => w.registry.Kept) (fun _ step kept _ => next_kept step kept)
    (along_of_forall (fun _ _ => trivial) _ steps) deployed_kept

end Zicket.Tickets
