import Zicket.Inventory.Sales
import Zicket.Linked.System

/-! What the event contract tells the linked contracts. `Effect` says of each successful call
what it checked, what it wrote and which messages it sent; nothing else is known of it below. -/

namespace Zicket.Linked

open Host Foundation Events

inductive Message where
  | payments (c : Payments.Call)
  | tickets (c : Tickets.Call)

variable {links : Links} {env : Env} {w w' : World} {s s' : Outside} {e : Symbol} {a : Address}

namespace Links

def deliver (links : Links) (env : Env) (s : Outside) : Message → Option Outside
  | .payments c => links.callPayments env links.payments c s
  | .tickets c => links.callTickets env links.tickets c s

/-- The messages are accepted one after the other, and lead from `s` to `s'`. -/
def Delivered (links : Links) (env : Env) : Outside → List Message → Outside → Prop
  | s, [], s' => s' = s
  | s, m :: ms, s' => ∃ next, links.deliver env s m = some next ∧ links.Delivered env next ms s'

theorem delivered_append {first second : List Message} :
    links.Delivered env s (first ++ second) s' ↔
      ∃ next, links.Delivered env s first next ∧ links.Delivered env next second s' := by
  induction first generalizing s with
  | nil => simp [Delivered]
  | cons m ms ih =>
    simp only [List.cons_append, Delivered, ih]
    constructor
    · rintro ⟨next, sent, last, first, second⟩
      exact ⟨last, ⟨next, sent, first⟩, second⟩
    · rintro ⟨last, ⟨next, sent, first⟩, second⟩
      exact ⟨next, sent, last, first, second⟩

theorem delivered_singleton {m : Message} :
    links.Delivered env s [m] s' ↔ links.deliver env s m = some s' := by
  simp only [Delivered]
  constructor
  · rintro ⟨next, sent, rfl⟩
    exact sent
  · exact fun sent => ⟨s', sent, rfl⟩

theorem deliver_payments {c : Payments.Call} :
    links.deliver env s (.payments c) = some s' ↔
      ∃ payments, c.exec (calling env links.payments) s.payments = .ok payments ∧
        s' = { s with payments } := by
  simp only [deliver, callPayments, if_true]
  cases c.exec (calling env links.payments) s.payments <;> simp [Except.toOption, eq_comm]

theorem deliver_tickets {c : Tickets.Call} :
    links.deliver env s (.tickets c) = some s' ↔
      ∃ tickets, c.exec (calling env links.tickets) s.tickets = .ok tickets ∧
        s' = { s with tickets } := by
  simp only [deliver, callTickets, if_true]
  cases c.exec (calling env links.tickets) s.tickets <;> simp [Except.toOption, eq_comm]

theorem askTickets_same {α : Type} {contract : Address} {answer : Tickets.World → Tickets.Attempt α}
    {value : α} (h : links.askTickets contract answer s = some (value, s')) :
    answer s.tickets = .ok value ∧ s' = s := by
  unfold askTickets at h
  split at h
  · cases said : answer s.tickets with
    | error => simp [said, Except.toOption] at h
    | ok answered =>
      simp only [said, Except.toOption, Option.map_some, Option.some.injEq] at h
      cases h
      exact ⟨rfl, rfl⟩
  · cases h

theorem askPayments_same {α : Type} {contract : Address}
    {answer : Payments.World → Payments.Attempt α} {reply : α × Outside}
    (h : links.askPayments contract answer s = some reply) :
    answer s.payments = .ok reply.1 ∧ reply.2 = s := by
  unfold askPayments at h
  split at h
  · cases said : answer s.payments with
    | error => simp [said, Except.toOption] at h
    | ok answered =>
      simp only [said, Except.toOption, Option.map_some, Option.some.injEq] at h
      cases h
      exact ⟨rfl, rfl⟩
  · cases h

variable {t : Address}

theorem getTicket_same {id : ℕ} {ticket : Tickets.Ticket}
    (h : links.network.getTicket env t id s = some (ticket, s')) :
    s.tickets.get (.ticket id) = some ticket ∧ s' = s := by
  have asked : links.askTickets t (·.getTicket id) s = some (ticket, s') := h
  obtain ⟨stored, same⟩ := askTickets_same asked
  exact ⟨Tickets.okOr_eq_ok.mp stored, same⟩

theorem getTicketsByOwner_same {ids : List ℕ}
    (h : links.network.getTicketsByOwner env t a s = some (ids, s')) :
    s.tickets.getTicketsByOwner a = ids ∧ s' = s := by
  have asked : links.askTickets t (fun w => .ok (w.getTicketsByOwner a)) s = some (ids, s') := h
  obtain ⟨listed, same⟩ := askTickets_same asked
  exact ⟨Except.ok.inj listed, same⟩

end Links

theorem queried_same {t : Address} (h : links.network.Queried env t s s') : s' = s := by
  induction h with
  | done => rfl
  | owner asked _ ih => exact ih.trans (Links.getTicketsByOwner_same asked).2
  | ticket asked _ ih => exact ih.trans (Links.getTicket_same asked).2

def firstRevocableOf (tickets : Tickets.World) (owner : Address) (e : Symbol) : Option ℕ :=
  (tickets.getTicketsByOwner owner).find? fun id =>
    (tickets.get (.ticket id)).any fun ticket => decide (Revocable e ticket)

theorem firstRevocable_same {t : Address} {first : Option ℕ}
    (h : firstRevocable links.network env t a e w = .ok (first, w')) :
    w' = w ∧ first = firstRevocableOf w.outside.tickets a e := by
  have scan {ids : List ℕ} {first : Option ℕ} {w w' : World}
      (h : findRevocable links.network env t e ids w = .ok (first, w')) :
      w' = w ∧ first = ids.find? fun id =>
        (w.outside.tickets.get (.ticket id)).any fun ticket => decide (Revocable e ticket) := by
    induction ids generalizing w with
    | nil =>
      cases h
      exact ⟨rfl, rfl⟩
    | cons id rest ih =>
      simp only [findRevocable, bind_eq_ok, World.ask_eq_ok] at h
      obtain ⟨⟨minted, _⟩, ⟨outside, asked, rfl⟩, h⟩ := h
      obtain ⟨stored, rfl⟩ := Links.getTicket_same asked
      rw [List.find?_cons, stored, Option.any_some]
      split at h
      · rename_i revocable
        cases h
        simp [revocable]
      · rename_i other
        simpa [other] using ih h
  simp only [firstRevocable, bind_eq_ok, World.ask_eq_ok] at h
  obtain ⟨⟨ids, _⟩, ⟨outside, asked, rfl⟩, h⟩ := h
  obtain ⟨rfl, rfl⟩ := Links.getTicketsByOwner_same asked
  exact scan h

end Zicket.Linked
