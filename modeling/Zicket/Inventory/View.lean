import Zicket.Events.Contract
import Zicket.Inventory.Changes

/-! The events, reservations and links of a state of the event contract, and each event's
inventory. Registrations, claims and settings are left out; so is what the calls of the
linked contracts do. -/

namespace Zicket.Events

open Host Foundation

/-- The stored events, the tier each attendee has reserved a seat in, and the links. -/
@[ext] structure Roster where
  event : Symbol → Option Event
  held : Symbol → Address → Option ℕ
  ticketContract : Option Address
  paymentsContract : Option Address

def Event.inventory (event : Event) (held : Address → Option ℕ) : Inventory :=
  { status := some event.status, tiers := event.tiers, maxSupply := event.maxSupply,
    soldCount := event.soldCount, held }

namespace Roster

def putEvent (r : Roster) (e : Symbol) (event : Event) : Roster :=
  { r with event := Function.update r.event e (some event) }

def hold (r : Roster) (e : Symbol) (a : Address) (tierId : ℕ) : Roster :=
  { r with held := put r.held e a (some tierId) }

def drop (r : Roster) (e : Symbol) (a : Address) : Roster :=
  { r with held := put r.held e a none }

def inventory (r : Roster) (e : Symbol) : Inventory :=
  match r.event e with
  | some event => event.inventory (r.held e)
  | none => { status := none, tiers := [], maxSupply := 0, soldCount := 0, held := r.held e }

section Inventory

variable {r : Roster} {e : Symbol} {event : Event} {a : Address}

theorem inventory_of_event (stored : r.event e = some event) :
    r.inventory e = event.inventory (r.held e) := by
  rw [inventory, stored]

@[simp] theorem inventory_held (r : Roster) (e : Symbol) : (r.inventory e).held = r.held e := by
  unfold inventory
  split <;> rfl

theorem inventory_putEvent (r : Roster) (e : Symbol) (event : Event) :
    (r.putEvent e event).inventory =
      Function.update r.inventory e (event.inventory (r.held e)) := by
  funext e'
  unfold inventory putEvent
  by_cases same : e' = e
  · subst same
    simp
  · simp [same]

theorem inventory_put_held (r : Roster) (e : Symbol) (a : Address) (id : Option ℕ) :
    { r with held := put r.held e a id }.inventory =
      Function.update r.inventory e
        { r.inventory e with held := Function.update (r.inventory e).held a id } := by
  funext e'
  unfold inventory
  by_cases same : e' = e
  · subst same
    have held : put r.held e' a id e' = Function.update (r.held e') a id := by
      funext b
      simp [put_apply, Function.update_apply]
    rw [Function.update_self]
    simp only [held]
    cases r.event e' <;> rfl
  · have held : put r.held e a id e' = r.held e' := by
      funext b
      simp [put_apply, same]
    rw [Function.update_of_ne same]
    simp only [held]

end Inventory

end Roster

namespace World

variable {σ : Type}

def roster (w : World σ) : Roster where
  event e := w.get (.event e)
  held e a := (w.get (.reservation e a)).map (·.tierId)
  ticketContract := w.get .ticketContract
  paymentsContract := w.get .paymentsContract

theorem roster_congr {w w' : World σ} (same : w'.storage = w.storage) : w'.roster = w.roster := by
  unfold roster get
  rw [same]

theorem roster_saveEvent (w : World σ) (e : Symbol) (event : Event) :
    (w.saveEvent e event).roster = w.roster.putEvent e event := by
  have table := Store.table_set DataKey.event (by simp)
    (fun _ (o : Option Event) => o) w.storage e event
  exact Roster.ext table rfl rfl rfl

theorem roster_saveReservation (w : World σ) (e : Symbol) (a : Address) (r : Reservation) :
    (w.saveReservation e a r).roster = w.roster.hold e a r.tierId := by
  have table := Store.table₂_set DataKey.reservation (by simp)
    (fun _ _ (o : Option Reservation) => o.map (·.tierId)) w.storage e a r
  exact Roster.ext rfl table rfl rfl

theorem roster_removeReservation (w : World σ) (e : Symbol) (a : Address) :
    (w.removeReservation e a).roster = w.roster.drop e a := by
  have table := Store.table₂_remove DataKey.reservation (by simp)
    (fun _ _ (o : Option Reservation) => o.map (·.tierId)) w.storage e a
  exact Roster.ext rfl table rfl rfl

end World

end Zicket.Events
