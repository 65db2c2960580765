import Zicket.Foundation.Run
import Zicket.Foundation.SlotIndex
import Zicket.Foundation.Tally
import Zicket.Tickets.Types

/-! The ticket registry: what the ticket contract is for, apart from how it stores things.
A change is one entry; `Sound` says when the contract may make it, and `Kept` is what
holds of every registry the contract builds. -/

namespace Zicket.Tickets

open Host Foundation

/-- Tickets by number, each owner's tickets, each event's tickets as stored and as they
were minted, and recovery keys by ticket. -/
structure Registry where
  ticket : ℕ → Option Ticket
  next : ℕ
  owned : Address → SlotIndex ℕ
  listed : Symbol → List ℕ
  minted : Symbol → List ℕ
  key : ℕ → Option (BytesN 32)

inductive Change where
  | mint (t : Ticket)
  | move (t : Ticket) (dst : Address)
  | mark (t : Ticket) (status : TicketStatus) (isUsed : Bool)
  | setKey (id : ℕ) (publicKey : BytesN 32)
  | dropKey (id : ℕ)

def Ticket.Usable (t : Ticket) : Prop := t.isUsed = false ∧ t.status = .valid

instance (t : Ticket) : Decidable t.Usable := inferInstanceAs (Decidable (_ ∧ _))

namespace Registry

def putTicket (r : Registry) (t : Ticket) : Registry :=
  { r with ticket := Function.update r.ticket t.ticketId (some t) }

def addOwned (r : Registry) (owner : Address) (id : ℕ) : Registry :=
  { r with owned := Function.update r.owned owner ((r.owned owner).add id) }

def removeOwned (r : Registry) (owner : Address) (id : ℕ) : Registry :=
  { r with owned := Function.update r.owned owner ((r.owned owner).remove id) }

def apply (r : Registry) : Change → Registry
  | .mint t =>
    { (r.putTicket t).addOwned t.owner t.ticketId with
      next := t.ticketId + 1
      listed := Function.update r.listed t.eventId (r.listed t.eventId ++ [t.ticketId])
      minted := Function.update r.minted t.eventId (r.minted t.eventId ++ [t.ticketId]) }
  | .move t dst =>
    ((r.putTicket { t with owner := dst }).removeOwned t.owner t.ticketId).addOwned dst t.ticketId
  | .mark t status isUsed => r.putTicket { t with status, isUsed }
  | .setKey id publicKey => { r with key := Function.update r.key id (some publicKey) }
  | .dropKey id => { r with key := Function.update r.key id none }

variable (r : Registry)

def Sound (r : Registry) : Change → Prop
  | .mint t => t.ticketId = r.next ∧ t.Usable ∧ t.ticketId + 1 < 2 ^ 64
  | .move t _ | .mark t _ _ => r.ticket t.ticketId = some t ∧ t.Usable
  | .setKey id _ | .dropKey id => ∃ t, r.ticket id = some t ∧ t.Usable

structure Kept (r : Registry) : Prop where
  bounded : r.next < 2 ^ 64
  numbered : ∀ k t, r.ticket k = some t → t.ticketId = k ∧ k < r.next
  wellFormed : ∀ o, (r.owned o).WellFormed
  owned : ∀ o k, ((r.owned o).place k).isSome ↔ ∃ t, r.ticket k = some t ∧ t.owner = o
  listed : r.listed = r.minted
  sorted : ∀ e, (r.minted e).Pairwise (· < ·)
  event : ∀ e k, k ∈ r.minted e ↔ ∃ t, r.ticket k = some t ∧ t.eventId = e
  keyed : ∀ k, (r.key k).isSome → (r.ticket k).isSome

end Registry

namespace Registry

variable {r : Registry}

theorem Kept.stored (h : r.Kept) {k : ℕ} {t : Ticket} (ht : r.ticket k = some t) :
    r.ticket t.ticketId = some t := by
  rw [(h.numbered k t ht).1]
  exact ht

theorem numbered_put (h : r.Kept) {t t' : Ticket} (stored : r.ticket t.ticketId = some t)
    (number : t'.ticketId = t.ticketId) (k : ℕ) (u : Ticket)
    (hu : (r.putTicket t').ticket k = some u) : u.ticketId = k ∧ k < r.next := by
  obtain ⟨rfl, rfl⟩ | ⟨-, hu⟩ := update_eq_some.mp hu
  · exact ⟨rfl, number ▸ (h.numbered _ t stored).2⟩
  · exact h.numbered k u hu

theorem event_put {t : Ticket} (t' : Ticket) (stored : r.ticket t.ticketId = some t)
    (number : t'.ticketId = t.ticketId) (event : t'.eventId = t.eventId) (e : Symbol) (k : ℕ) :
    (∃ u, (r.putTicket t').ticket k = some u ∧ u.eventId = e) ↔
      ∃ u, r.ticket k = some u ∧ u.eventId = e := by
  by_cases same : k = t'.ticketId
  · subst same
    simp [putTicket, number, stored, event]
  · simp [putTicket, same]

theorem keyed_put (h : r.Kept) (t : Ticket) (k : ℕ) (key : (r.key k).isSome) :
    ((r.putTicket t).ticket k).isSome := by
  by_cases same : k = t.ticketId
  · simp [putTicket, same]
  · simpa [putTicket, same] using h.keyed k key

theorem apply_mint (h : r.Kept) {t : Ticket} (new : t.ticketId = r.next)
    (bound : t.ticketId + 1 < 2 ^ 64) : (r.apply (.mint t)).Kept := by
  have fresh : r.ticket t.ticketId = none := by
    by_contra stored
    obtain ⟨u, hu⟩ := Option.ne_none_iff_exists'.mp stored
    have := (h.numbered _ u hu).2
    omega
  have unplaced : ∀ o, (r.owned o).place t.ticketId = none := by
    intro o
    by_contra placed
    obtain ⟨u, hu, -⟩ := (h.owned o t.ticketId).mp (Option.isSome_iff_ne_none.mpr placed)
    rw [fresh] at hu
    cases hu
  exact
    { bounded := bound
      numbered := by
        intro k u hu
        change k < t.ticketId + 1 |> fun lt => u.ticketId = k ∧ lt
        obtain ⟨rfl, rfl⟩ | ⟨-, hu⟩ := update_eq_some.mp hu
        · exact ⟨rfl, Nat.lt_succ_self _⟩
        · obtain ⟨number, lt⟩ := h.numbered k u hu
          exact ⟨number, by omega⟩
      wellFormed := by
        intro o
        change (Function.update r.owned t.owner ((r.owned t.owner).add t.ticketId) o).WellFormed
        by_cases same : o = t.owner
        · subst same
          rw [Function.update_self]
          exact (h.wellFormed _).add (unplaced _)
        · rw [Function.update_of_ne same]
          exact h.wellFormed o
      owned := by
        intro o k
        change ((Function.update r.owned t.owner ((r.owned t.owner).add t.ticketId) o).place
          k).isSome ↔ ∃ u, Function.update r.ticket t.ticketId (some t) k = some u ∧ u.owner = o
        by_cases same : o = t.owner
        · subst same
          rw [Function.update_self, SlotIndex.place_add, h.owned]
          by_cases hk : k = t.ticketId
          · subst hk
            simp
          · simp [hk]
        · rw [Function.update_of_ne same, h.owned]
          by_cases hk : k = t.ticketId
          · subst hk
            simp [fresh, Ne.symm same]
          · simp [hk]
      listed := by
        change Function.update r.listed _ _ = Function.update r.minted _ _
        rw [h.listed]
      sorted := by
        intro e
        change (Function.update r.minted t.eventId _ e).Pairwise _
        by_cases same : e = t.eventId
        · subst same
          rw [Function.update_self, List.pairwise_append]
          refine ⟨h.sorted _, List.pairwise_singleton .., fun k mem x last => ?_⟩
          obtain ⟨u, hu, -⟩ := (h.event _ k).mp mem
          rw [List.mem_singleton.mp last, new]
          exact (h.numbered k u hu).2
        · rw [Function.update_of_ne same]
          exact h.sorted e
      event := by
        intro e k
        change k ∈ Function.update r.minted t.eventId _ e ↔
          ∃ u, Function.update r.ticket t.ticketId (some t) k = some u ∧ u.eventId = e
        by_cases same : e = t.eventId
        · subst same
          rw [Function.update_self, List.mem_append, h.event, List.mem_singleton]
          by_cases hk : k = t.ticketId
          · subst hk
            simp
          · simp [hk]
        · rw [Function.update_of_ne same, h.event]
          by_cases hk : k = t.ticketId
          · subst hk
            simp [fresh, Ne.symm same]
          · simp [hk]
      keyed := keyed_put h t }

section Moved

variable (h : r.Kept) {t : Ticket} (stored : r.ticket t.ticketId = some t)

include h

omit stored in
theorem removeOwned_wellFormed (owner : Address) (id : ℕ) (o : Address) :
    ((r.removeOwned owner id).owned o).WellFormed := by
  change (Function.update r.owned owner _ o).WellFormed
  by_cases same : o = owner
  · subst same
    rw [Function.update_self]
    exact (h.wellFormed _).remove id
  · rw [Function.update_of_ne same]
    exact h.wellFormed o

include stored

theorem removeOwned_place (o : Address) (k : ℕ) :
    (((r.removeOwned t.owner t.ticketId).owned o).place k).isSome ↔
      k ≠ t.ticketId ∧ ((r.owned o).place k).isSome := by
  change ((Function.update r.owned t.owner _ o).place k).isSome ↔ _
  by_cases same : o = t.owner
  · subst same
    rw [Function.update_self]
    exact (h.wellFormed _).place_remove
  · rw [Function.update_of_ne same]
    refine ⟨fun placed => ⟨?_, placed⟩, And.right⟩
    rintro rfl
    obtain ⟨u, hu, owner⟩ := (h.owned o _).mp placed
    rw [stored] at hu
    cases hu
    exact same owner.symm

theorem removeOwned_absent (o : Address) :
    ((r.removeOwned t.owner t.ticketId).owned o).place t.ticketId = none := by
  by_contra placed
  exact ((removeOwned_place h stored o _).mp (Option.isSome_iff_ne_none.mpr placed)).1 rfl

theorem removeOwned_count (o : Address) :
    ((r.removeOwned t.owner t.ticketId).owned o).count < r.next := by
  refine (removeOwned_wellFormed h t.owner t.ticketId o).count_lt (h.numbered _ t stored).2
    (removeOwned_absent h stored o) fun k placed => ?_
  obtain ⟨-, placed⟩ := (removeOwned_place h stored o k).mp placed
  obtain ⟨u, hu, -⟩ := (h.owned o k).mp placed
  exact (h.numbered k u hu).2

/-- A move takes the ticket out of one index and puts it into another, or back. -/
theorem apply_move (dst : Address) : (r.apply (.move t dst)).Kept where
  bounded := h.bounded
  numbered := numbered_put h stored rfl
  wellFormed o := by
    change (Function.update (r.removeOwned t.owner t.ticketId).owned dst _ o).WellFormed
    by_cases same : o = dst
    · subst same
      rw [Function.update_self]
      exact (removeOwned_wellFormed h t.owner t.ticketId o).add (removeOwned_absent h stored o)
    · rw [Function.update_of_ne same]
      exact removeOwned_wellFormed h t.owner t.ticketId o
  owned o k := by
    change ((Function.update (r.removeOwned t.owner t.ticketId).owned dst
      (((r.removeOwned t.owner t.ticketId).owned dst).add t.ticketId) o).place k).isSome ↔
        ∃ u, Function.update r.ticket t.ticketId (some { t with owner := dst }) k = some u ∧
          u.owner = o
    by_cases same : o = dst
    · subst same
      rw [Function.update_self, SlotIndex.place_add, removeOwned_place h stored]
      by_cases hk : k = t.ticketId
      · subst hk
        simp
      · simp [hk, h.owned]
    · rw [Function.update_of_ne same, removeOwned_place h stored]
      by_cases hk : k = t.ticketId
      · subst hk
        simp [Ne.symm same]
      · simp [hk, h.owned]
  listed := h.listed
  sorted := h.sorted
  event e k := (h.event e k).trans (event_put { t with owner := dst } stored rfl rfl e k).symm
  keyed := keyed_put h { t with owner := dst }

end Moved

theorem apply_mark (h : r.Kept) {t : Ticket} (status : TicketStatus) (isUsed : Bool)
    (stored : r.ticket t.ticketId = some t) : (r.apply (.mark t status isUsed)).Kept where
  bounded := h.bounded
  numbered := numbered_put h stored rfl
  wellFormed := h.wellFormed
  owned o k := by
    rw [show (r.apply (.mark t status isUsed)).owned = r.owned from rfl, h.owned]
    change _ ↔ ∃ u, Function.update r.ticket t.ticketId (some { t with status, isUsed }) k =
      some u ∧ u.owner = o
    by_cases hk : k = t.ticketId
    · subst hk
      simp [stored]
    · simp [hk]
  listed := h.listed
  sorted := h.sorted
  event e k := (h.event e k).trans (event_put { t with status, isUsed } stored rfl rfl e k).symm
  keyed := keyed_put h { t with status, isUsed }

theorem apply_kept (h : r.Kept) {c : Change} (sound : r.Sound c) : (r.apply c).Kept := by
  cases c with
  | mint t => exact apply_mint h sound.1 sound.2.2
  | move t dst => exact apply_move h sound.1 dst
  | mark t status isUsed => exact apply_mark h status isUsed sound.1
  | setKey id publicKey =>
    obtain ⟨t, stored, -⟩ := sound
    refine { h with keyed := fun k key => ?_ }
    by_cases same : k = id
    · rw [same]
      exact Option.isSome_of_mem stored
    · exact h.keyed k (by simpa [apply, same] using key)
  | dropKey id =>
    refine { h with keyed := fun k key => ?_ }
    by_cases same : k = id
    · simp [apply, same] at key
    · exact h.keyed k (by simpa [apply, same] using key)

theorem run_kept {cs : List Change} (sound : Along apply Sound r cs) (h : r.Kept) :
    (run apply r cs).Kept :=
  run_invariant (I := Kept) (fun _ _ kept sound => apply_kept kept sound) sound h

end Registry

end Zicket.Tickets
