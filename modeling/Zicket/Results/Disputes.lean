import Zicket.Results.Holders

/-! The three places that know of a dispute over whole runs: the event's list, the dispute
record of the ticket, and the status of its payment. -/

namespace Zicket.Payments

open Host Foundation Book

/-- The ticket of a payment is found under the payment's number, and no other ticket is. -/
structure Book.Paired (b : Book) (k : ℕ) (p : PaymentRecord) (ticket : Ticket) : Prop where
  stored : b.ticket k = some ticket
  built : { ticket with owner := p.payer } = buildTicket p k
  alone : ∀ k' ticket', b.ticket k' = some ticket' → ticket'.paymentId = k → k' = k

namespace Book.Paired

variable {b : Book} {k : ℕ} {p : PaymentRecord} {ticket : Ticket}

theorem eventId (h : b.Paired k p ticket) : ticket.eventId = p.eventId :=
  (congrArg Ticket.eventId h.built :)

theorem paymentId (h : b.Paired k p ticket) : ticket.paymentId = p.paymentId :=
  (congrArg Ticket.paymentId h.built :)

end Book.Paired

theorem reachable_paired (d : Deployment) (balances : Balances Address Address)
    (steps : List Step) {k : ℕ} {p : PaymentRecord}
    (stored : (run (World.next d) (deployed balances) steps).book.payment k = some p) :
    p.paymentId = k ∧ ∃ ticket,
      (run (World.next d) (deployed balances) steps).book.Paired k p ticket := by
  have recorded := (reachable_kept d balances steps).recorded
  obtain ⟨ticket, hticket, built, -, -⟩ :=
    (reachable_heldBy d balances steps k).ticketed recorded stored
  refine ⟨(recorded.numbered k p stored).1, ticket, hticket, built, fun k' ticket' stored' same => ?_⟩
  obtain ⟨p', hp', built', -⟩ := recorded.ticketed k' ticket' stored'
  have number : ticket'.paymentId = p'.paymentId := (congrArg Ticket.paymentId built' :)
  rw [← same, number, (recorded.numbered k' p' hp').1]

/-- A ticket is listed with its event's disputes once, exactly while its dispute is stored and
exactly while its payment is disputed; and each disputed payment is that of one listed ticket. -/
theorem dispute_bookkeeping (d : Deployment) (balances : Balances Address Address)
    (steps : List Step) (e : Symbol) :
    let w := run (World.next d) (deployed balances) steps
    (w.getEventDisputes e).Nodup ∧
    (∀ k, k ∈ w.getEventDisputes e ↔ ∃ dispute, w.getDispute k = some dispute ∧ dispute.eventId = e) ∧
    (∀ k, k ∈ w.getEventDisputes e ↔ ∃ ticket p, w.getTicket k = .ok ticket ∧ ticket.eventId = e ∧
      w.getPayment ticket.paymentId = .ok p ∧ p.status = .disputed) ∧
    ∀ id p, w.getPayment id = .ok p → p.eventId = e → p.status = .disputed →
      ∃! k, k ∈ w.getEventDisputes e ∧
        ∃ ticket, w.getTicket k = .ok ticket ∧ ticket.paymentId = id := by
  intro w
  have recorded : Recorded w.book.toRecords := (reachable_kept d balances steps).recorded
  have paired (k : ℕ) (p : PaymentRecord) (stored : w.book.payment k = some p) :
      p.paymentId = k ∧ ∃ ticket, w.book.Paired k p ticket :=
    reachable_paired d balances steps stored
  refine ⟨recorded.distinct e, recorded.listed e, fun k => ⟨fun listed => ?_, ?_⟩, ?_⟩
  · obtain ⟨dispute, hd, event⟩ := (recorded.listed e k).mp listed
    obtain ⟨-, -, p, hp, disputed, same⟩ := recorded.disputed k dispute hd
    obtain ⟨number, ticket, pair⟩ := paired k p hp
    refine ⟨ticket, p, okOr_eq_ok.mpr pair.stored, (pair.eventId.trans same).trans event, ?_, disputed⟩
    rw [pair.paymentId, number]
    exact okOr_eq_ok.mpr hp
  · rintro ⟨ticket, p, stored, rfl, hp, disputed⟩
    have hp : w.book.payment ticket.paymentId = some p := okOr_eq_ok.mp hp
    obtain ⟨number, own, pair⟩ := paired _ p hp
    have hticket : w.book.ticket k = some ticket := okOr_eq_ok.mp stored
    have same := pair.alone k ticket hticket rfl
    have eventId : ticket.eventId = p.eventId := by
      have found := pair.stored
      rw [← same, hticket] at found
      cases found
      exact pair.eventId
    rw [eventId, same]
    exact recorded.mem_disputes hp disputed
  · rintro id p hp rfl disputed
    have hp : w.book.payment id = some p := okOr_eq_ok.mp hp
    obtain ⟨number, ticket, pair⟩ := paired id p hp
    refine ⟨id, ⟨recorded.mem_disputes hp disputed, ticket, okOr_eq_ok.mpr pair.stored,
      pair.paymentId.trans number⟩, ?_⟩
    rintro k ⟨-, ticket', stored, same⟩
    exact pair.alone k ticket' (okOr_eq_ok.mp stored) same

end Zicket.Payments
