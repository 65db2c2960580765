import Zicket.Registry.Changes
import Zicket.Tickets.Contract

/-! The registry of a state of the ticket contract, and what each storage accessor does to
it. Credentials, linked addresses and the version are outside the registry: those that other
results read make up the annex. -/

namespace Zicket.Tickets.World

open Host Foundation

def ownerIndex (w : World) (owner : Address) : SlotIndex ℕ where
  count := w.getOwnerTicketsCount owner
  slot i := w.get (.ownerTicketIndex owner i)
  place id := w.get (.ownerTicket owner id)

/-- The tickets minted for `e`, oldest first, as published. -/
def minted (w : World) (e : Symbol) : List ℕ :=
  w.events.reverse.filterMap fun
    | .ticketMinted id event .. => if event = e then some id else none
    | _ => none

def registry (w : World) : Registry where
  ticket id := w.get (.ticket id)
  next := w.readNextTicketId
  owned := w.ownerIndex
  listed := w.getTicketsByEvent
  minted := w.minted
  key := w.getRecoveryKey

/-- What the tickets' own entries leave alone: the credentials, the minter and the log. -/
structure Annex where
  credential : ℕ → Option (BytesN 32)
  eventContract : Option Address
  events : List ContractEvent

def annex (w : World) : Annex where
  credential id := w.get (.attendanceCredential id)
  eventContract := w.get .eventContract
  events := w.events

section Tables

variable (w : World)

theorem registry_set_ticket (id : ℕ) (t : Ticket) :
    (w.set (.ticket id) t).registry =
      { w.registry with ticket := Function.update w.registry.ticket id (some t) } := by
  have table := Store.table_set DataKey.ticket (by simp)
    (fun _ (o : Option Ticket) => o) w.storage id t
  unfold registry
  congr 1

theorem registry_set_recoveryKey (id : ℕ) (publicKey : BytesN 32) :
    (w.set (.recoveryKey id) publicKey).registry =
      { w.registry with key := Function.update w.registry.key id (some publicKey) } := by
  have table := Store.table_set DataKey.recoveryKey (by simp)
    (fun _ (o : Option (BytesN 32)) => o) w.storage id publicKey
  unfold registry
  congr 1

theorem registry_remove_recoveryKey (id : ℕ) :
    (w.remove (.recoveryKey id)).registry =
      { w.registry with key := Function.update w.registry.key id none } := by
  have table := Store.table_remove DataKey.recoveryKey (by simp)
    (fun _ (o : Option (BytesN 32)) => o) w.storage id
  unfold registry
  congr 1

variable (o : Address)

theorem registry_set_ownerTicket (id i : ℕ) :
    (w.set (.ownerTicket o id) i).registry =
      { w.registry with
        owned := Function.update w.registry.owned o
          { w.registry.owned o with
            place := Function.update (w.registry.owned o).place id (some i) } } := by
  have table := Store.table_set (DataKey.ownerTicket o) (by simp)
    (fun _ (o : Option ℕ) => o) w.storage id i
  unfold registry
  congr 1
  refine Function.eq_update_iff.mpr ⟨SlotIndex.ext rfl rfl table, fun a other => ?_⟩
  exact SlotIndex.ext rfl rfl (funext fun k => Store.get_set_of_ne _ _ (by simp [other]))

theorem registry_remove_ownerTicket (id : ℕ) :
    (w.remove (.ownerTicket o id)).registry =
      { w.registry with
        owned := Function.update w.registry.owned o
          { w.registry.owned o with
            place := Function.update (w.registry.owned o).place id none } } := by
  have table := Store.table_remove (DataKey.ownerTicket o) (by simp)
    (fun _ (o : Option ℕ) => o) w.storage id
  unfold registry
  congr 1
  refine Function.eq_update_iff.mpr ⟨SlotIndex.ext rfl rfl table, fun a other => ?_⟩
  exact SlotIndex.ext rfl rfl (funext fun k => Store.get_remove_of_ne _ (by simp [other]))

theorem registry_set_ownerTicketIndex (i id : ℕ) :
    (w.set (.ownerTicketIndex o i) id).registry =
      { w.registry with
        owned := Function.update w.registry.owned o
          { w.registry.owned o with
            slot := Function.update (w.registry.owned o).slot i (some id) } } := by
  have table := Store.table_set (DataKey.ownerTicketIndex o) (by simp)
    (fun _ (o : Option ℕ) => o) w.storage i id
  unfold registry
  congr 1
  refine Function.eq_update_iff.mpr ⟨SlotIndex.ext rfl table rfl, fun a other => ?_⟩
  exact SlotIndex.ext rfl (funext fun k => Store.get_set_of_ne _ _ (by simp [other])) rfl

theorem registry_remove_ownerTicketIndex (i : ℕ) :
    (w.remove (.ownerTicketIndex o i)).registry =
      { w.registry with
        owned := Function.update w.registry.owned o
          { w.registry.owned o with
            slot := Function.update (w.registry.owned o).slot i none } } := by
  have table := Store.table_remove (DataKey.ownerTicketIndex o) (by simp)
    (fun _ (o : Option ℕ) => o) w.storage i
  unfold registry
  congr 1
  refine Function.eq_update_iff.mpr ⟨SlotIndex.ext rfl table rfl, fun a other => ?_⟩
  exact SlotIndex.ext rfl (funext fun k => Store.get_remove_of_ne _ (by simp [other])) rfl

theorem registry_set_ownerTicketsCount (n : ℕ) :
    (w.set (.ownerTicketsCount o) n).registry =
      { w.registry with
        owned := Function.update w.registry.owned o { w.registry.owned o with count := n } } := by
  have table := Store.table_set DataKey.ownerTicketsCount (by simp)
    (fun _ (o : Option ℕ) => o.getD 0) w.storage o n
  unfold registry
  congr 1
  refine Function.eq_update_iff.mpr ⟨?_, fun a other => ?_⟩
  · exact SlotIndex.ext ((congrFun table o).trans (Function.update_self ..)) rfl rfl
  · exact SlotIndex.ext ((congrFun table a).trans (Function.update_of_ne other ..)) rfl rfl

end Tables

section Accessors

variable {w w' : World} {o : Address} {id : ℕ}

theorem getTicket_registry {t : Ticket} (h : w.getTicket id = .ok t) :
    w.registry.ticket id = some t :=
  okOr_eq_ok.mp h

theorem writeNextTicketId_registry (w : World) (n : ℕ) :
    (w.writeNextTicketId n).registry = { w.registry with next := n } := rfl

theorem emit_registry (w : World) (event : ContractEvent)
    (silent : ∀ id e a b s, event ≠ .ticketMinted id e a b s) :
    (w.emit event).registry = w.registry := by
  have log : (w.emit event).minted = w.minted := by
    funext e
    unfold minted emit
    rw [List.reverse_cons, List.filterMap_append]
    cases event with
    | ticketMinted id e a b s => exact absurd rfl (silent id e a b s)
    | _ => simp
  unfold registry
  rw [log]
  rfl

theorem addOwnerTicket_registry (h : w.addOwnerTicket o id = .ok w') :
    w'.registry = w.registry.addOwned o id := by
  simp only [addOwnerTicket, bind_eq_ok, pure_eq_ok, u64_eq_ok] at h
  obtain ⟨count, ⟨-, rfl⟩, rfl⟩ := h
  rw [registry_set_ownerTicketsCount, registry_set_ownerTicketIndex, registry_set_ownerTicket]
  simp only [Function.update_self, Function.update_idem]
  rfl

theorem removeOwnerTicket_registry (w : World) (o : Address) (id : ℕ) :
    (w.removeOwnerTicket o id).registry = w.registry.removeOwned o id := by
  have view := registry_remove_ownerTicket w o id
  have count : (w.remove (.ownerTicket o id)).getOwnerTicketsCount o =
      (w.registry.owned o).count :=
    (congrArg (fun r : Registry => (r.owned o).count) view).trans (by simp)
  have slot (i : ℕ) : (w.remove (.ownerTicket o id)).get (.ownerTicketIndex o i) =
      (w.registry.owned o).slot i :=
    (congrArg (fun r : Registry => (r.owned o).slot i) view).trans (by simp)
  have stored : w.get (.ownerTicket o id) = (w.registry.owned o).place id := rfl
  unfold removeOwnerTicket Registry.removeOwned SlotIndex.remove
  simp only [stored, count, slot]
  cases (w.registry.owned o).place id with
  | none => exact view
  | some i =>
    simp only
    split
    · rw [registry_remove_ownerTicketIndex, view]
      simp only [Function.update_self, Function.update_idem]
    · rw [registry_set_ownerTicketsCount, registry_remove_ownerTicketIndex]
      split
      · unfold SlotIndex.swapIn
        cases (w.registry.owned o).slot ((w.registry.owned o).count - 1) with
        | none =>
          rw [view]
          simp only [Function.update_self, Function.update_idem]
        | some last =>
          simp only [registry_set_ownerTicket, registry_set_ownerTicketIndex, view,
            Function.update_self, Function.update_idem]
      · rw [view]
        simp only [Function.update_self, Function.update_idem]

theorem addEventTicket_registry {e : Symbol} (h : w.addEventTicket e id = .ok w') :
    w'.registry = { w.registry with
      listed := Function.update w.registry.listed e (w.registry.listed e ++ [id]) } := by
  simp only [addEventTicket, bind_eq_ok, pure_eq_ok, u64_eq_ok] at h
  obtain ⟨n, ⟨-, rfl⟩, rfl⟩ := h
  have counted : (w.set (.eventTicket e id) true).getEventTicketsCount e =
      w.getEventTicketsCount e := rfl
  rw [counted]
  have counts := Store.table_set DataKey.eventTicketsCount (by simp)
    (fun _ (o : Option ℕ) => o.getD 0) w.storage e (w.getEventTicketsCount e + 1)
  unfold registry
  congr 1
  funext e'
  have count := congrFun counts e'
  by_cases same : e' = e
  · subst same
    have slots := Store.table_set (DataKey.eventTicketIndex e') (by simp)
      (fun _ (o : Option ℕ) => o) w.storage (w.getEventTicketsCount e') id
    rw [Function.update_self] at count ⊢
    exact (congrArg₂ filled slots count).trans (filled_append ..)
  · have slots : (fun i => (w.storage.set (.eventTicketIndex e (w.getEventTicketsCount e)) id).get
        (.eventTicketIndex e' i)) = fun i => w.get (.eventTicketIndex e' i) :=
      funext fun i => Store.get_set_of_ne _ _ (by simp [same])
    rw [Function.update_of_ne same] at count ⊢
    exact congrArg₂ filled slots count

theorem emit_ticketMinted_registry (w : World) (e : Symbol) (a b : Address) (s : ℕ) :
    (w.emit (.ticketMinted id e a b s)).registry = { w.registry with
      minted := Function.update w.registry.minted e (w.registry.minted e ++ [id]) } := by
  unfold registry
  congr 1
  funext e'
  unfold minted emit
  rw [List.reverse_cons, List.filterMap_append]
  by_cases same : e' = e
  · subst same
    simp
  · simp [same, Ne.symm same]

theorem set_ticket_annex (w : World) (id : ℕ) (t : Ticket) :
    (w.set (.ticket id) t).annex = w.annex := by
  unfold annex
  congr 1

theorem addOwnerTicket_annex (h : w.addOwnerTicket o id = .ok w') : w'.annex = w.annex := by
  simp only [addOwnerTicket, bind_eq_ok, pure_eq_ok] at h
  obtain ⟨_, -, rfl⟩ := h
  rfl

theorem removeOwnerTicket_annex (w : World) (o : Address) (id : ℕ) :
    (w.removeOwnerTicket o id).annex = w.annex := by
  unfold removeOwnerTicket
  dsimp only
  split
  · rfl
  · split
    · rfl
    · split
      · split
        · rfl
        · rfl
      · rfl

def minting (env : Env) (e : Symbol) (organizer owner : Address) (id : ℕ) : Change :=
  .mint ⟨id, e, organizer, owner, env.timestamp, .valid, true, false⟩

theorem issueTicket_registry {env : Env} {e : Symbol} {organizer owner : Address}
    (h : issueTicket env e organizer owner id w = .ok w') :
    w'.registry = { w.registry.apply (minting env e organizer owner id) with
      next := w.registry.next } := by
  simp only [issueTicket, bind_eq_ok, pure_eq_ok] at h
  obtain ⟨w₁, h₁, w₂, h₂, rfl⟩ := h
  rw [emit_ticketMinted_registry, addEventTicket_registry h₂, addOwnerTicket_registry h₁,
    registry_set_ticket]
  rfl

theorem issueTicket_annex {env : Env} {e : Symbol} {organizer owner : Address}
    (h : issueTicket env e organizer owner id w = .ok w') :
    w'.annex.credential = w.annex.credential ∧ w'.annex.eventContract = w.annex.eventContract := by
  simp only [issueTicket, addEventTicket, bind_eq_ok, pure_eq_ok] at h
  obtain ⟨w₁, owned, w₂, ⟨_, -, rfl⟩, rfl⟩ := h
  have same : w₁.annex = w.annex := (addOwnerTicket_annex owned).trans (set_ticket_annex ..)
  have credential := congrArg Annex.credential same
  have minter := congrArg Annex.eventContract same
  exact ⟨credential, minter⟩

end Accessors

end Zicket.Tickets.World
