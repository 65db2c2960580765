import Zicket.Linked.Minting

/-! Resales over whole runs of the linked contracts: the purchase names the payments
contract's number of the ticket, and moves the ticket that has this number in the ticket
contract. -/

namespace Zicket.Linked

open Host Foundation Events

variable {links : Links} {w w' : World}

/-- Every ticket that the payments contract issues is sold by the event contract. -/
def SoldByEvents (links : Links) (w : World) (step : Step) : Prop :=
  links.succeeds w step = true → match step with
  | .payments _ (.payForTicket ..) | .payments _ (.payForTicketWithCommitment ..)
  | .payments _ (.payForTicketWithOptions ..) => False
  | _ => True

instance (w : World) (step : Step) : Decidable (SoldByEvents links w step) := by
  unfold SoldByEvents
  split <;> infer_instance

/-- The ticket contract publishes that the ticket went to the buyer. -/
def Moved (id : ℕ) (buyer : Address) (w w' : World) : Prop :=
  ∃ e seller time, w'.outside.tickets.events =
    .ticketTransferred id e seller buyer time :: w.outside.tickets.events

section Ahead

def Ahead (w : World) : Prop := w.outside.payments.book.tickets < nextMint w

theorem next_ahead {step : Step} (wired : Wired links w) (ahead : Ahead w)
    (sold : SoldByEvents links w step) : Ahead (links.next w step) := by
  by_cases success : links.succeeds w step = true
  · by_cases calls : ∃ invocation c, step = .events invocation c
    · obtain ⟨invocation, c, rfl⟩ := calls
      obtain ⟨ms, effect, sent⟩ := wired.events success
      have minted := delivered_minted wired.outside.registry sent
      unfold Ahead nextMint at *
      obtain ⟨count, -⟩ | ⟨positive, seats, count, -⟩ := effect_issued wired.outside effect sent
      · omega
      · unfold nextMint at seats
        omega
    · have other : ∀ invocation c, step ≠ .events invocation c :=
        fun invocation c same => calls ⟨invocation, c, same⟩
      have count : (links.next w step).outside.payments.book.tickets =
          w.outside.payments.book.tickets := by
        cases step with
        | events invocation c => exact absurd rfl (other invocation c)
        | payments invocation c =>
          obtain ⟨payments, called, next⟩ := payments_next success
          rw [next]
          refine (Payments.exec_unissued wired.outside.book called ?_).1
          have direct := sold success
          cases c <;> simp [Payments.Call.entries] at direct ⊢
        | tickets => rfl
        | mint t dst amount =>
          exact congrArg Payments.Records.tickets
            (token_book links.paymentsAt wired.outside.book (.mint t dst amount) (by simp)).1
        | pay t src dst amount =>
          exact congrArg Payments.Records.tickets
            (token_book links.paymentsAt wired.outside.book (.pay t src dst amount) (by simp)).1
      unfold Ahead
      rw [next_unminted wired other, count]
      exact ahead
  · rw [next_failed success]
    exact ahead

theorem opened_ahead (links : Links) (setup : Setup) : Ahead (links.opened setup) :=
  Nat.one_pos

end Ahead

section Purchase

variable {invocation : Invocation} {buyer : Address} {k : ℕ}

theorem adminTransfer_moved {env : Env} {operator seller : Address} {tickets tickets' : Tickets.World}
    (h : Tickets.Call.exec env tickets (.adminTransferTicket operator seller buyer k) = .ok tickets') :
    ∃ e seller time,
      tickets'.events = .ticketTransferred k e seller buyer time :: tickets.events := by
  simp only [Tickets.Call.exec, Tickets.adminTransferTicket, Tickets.World.addOwnerTicket,
    bind_eq_ok, pure_eq_ok] at h
  obtain ⟨-, -, _, -, -, -, t, -, -, -, -, -, _, ⟨_, -, rfl⟩, rfl⟩ := h
  exact ⟨t.eventId, seller, env.timestamp,
    congrArg (fun a : Tickets.World.Annex => _ :: a.events)
      (Tickets.World.removeOwnerTicket_annex (tickets.updateTicket _) seller k)⟩

theorem purchase_moves (success : links.succeeds w
      (.payments invocation (.buyResaleTicket buyer k)) = true) :
    Issued k w ∧
      Moved k buyer w (links.next w (.payments invocation (.buyResaleTicket buyer k))) := by
  obtain ⟨payments, called, next⟩ := payments_next success
  simp only [Payments.Call.exec, Payments.buyResaleTicket, bind_eq_ok, Payments.okOr_eq_ok,
    Payments.require_eq_ok, ensure_eq_ok] at called
  obtain ⟨-, -, -, -, listing, listed, ticket, held, -, -, config, -, w₁, -, contract, -, -,
    accepted, -⟩ := called
  have stored : w.outside.payments.book.ticket k = some ticket := Payments.okOr_eq_ok.mp held
  have issued : Issued k w := by
    unfold Issued
    rw [stored]
    exact Option.some_ne_none _
  obtain ⟨tickets, transfer⟩ := Tickets.succeeds_iff.mp (Bool.and_eq_true_iff.mp accepted).2
  have transfer : Tickets.Call.exec (links.byPayments invocation) w.outside.tickets
      (.adminTransferTicket links.payments listing.seller buyer k) = .ok tickets := transfer
  have moved : links.transferred invocation (.buyResaleTicket buyer k) w.outside = tickets := by
    have wanted : links.transferOf w.outside.payments (.buyResaleTicket buyer k) =
        some (.adminTransferTicket links.payments listing.seller buyer k) := by
      rw [Links.transferOf, listed]
      rfl
    rw [Links.transferred, wanted]
    dsimp only
    rw [transfer, commit_ok]
  rw [next]
  exact ⟨issued, moved ▸ adminTransfer_moved transfer⟩

end Purchase

/-- A purchase moves the ticket that was sold exactly when, at its registration, the ticket
contract's next number was the payments contract's: so far every seat was paid for, one by
one. -/
theorem resale_moves_sold_iff (links : Links) (setup : Setup) (steps : List Step)
    (linked : LinkedRun links setup steps)
    (sold : Along links.next (SoldByEvents links) (links.opened setup) steps)
    (invocation : Invocation) (buyer : Address) (k : ℕ) :
    let w := run links.next (links.opened setup) steps
    let buys := Step.payments invocation (.buyResaleTicket buyer k)
    links.succeeds w buys = true →
    ∃ past issue rest, steps = past ++ issue :: rest ∧
      let before := run links.next (links.opened setup) past
      ¬ Issued k before ∧ Issued k (links.next before issue) ∧
      ((∃ id ∈ mintedBy before (links.next before issue), Moved id buyer w (links.next w buys)) ↔
        nextMint before = k) := by
  intro w buys success
  obtain ⟨issued, moved⟩ := purchase_moves success
  have unissued : ¬ Issued k (links.opened setup) := fun issued => issued rfl
  obtain ⟨past, issue, rest, rfl, before, issues⟩ := exists_first unissued issued
  refine ⟨past, issue, rest, rfl, before, issues, ?_⟩
  obtain ⟨opening, first, -⟩ := along_append.mp (linked.and sold)
  have inv : Wired links (run links.next (links.opened setup) past) ∧
      Ahead (run links.next (links.opened setup) past) :=
    run_invariant (I := fun w => Wired links w ∧ Ahead w)
      (fun w step inv meets => ⟨next_wired inv.1 meets.1, next_ahead inv.1 inv.2 meets.2⟩) opening
      ⟨opened_wired links setup, opened_ahead links setup⟩
  obtain ⟨minted, ⟨positive, number⟩ | ⟨invocation, c, rfl, taken, sale⟩⟩ :=
    issue_mints inv.1 before issues
  · have ahead : _ < nextMint _ := inv.2
    rw [mintedBy, minted]
    constructor
    · rintro ⟨id, range, e, seller, time, published⟩
      obtain ⟨e', seller', time', published'⟩ := moved
      obtain ⟨same, -⟩ := List.cons.inj (published.symm.trans published')
      obtain rfl : id = k := by cases same; rfl
      rw [Finset.mem_Ico] at range
      omega
    · rintro same
      exact ⟨k, Finset.mem_Ico.mpr (by omega), moved⟩
  · have direct := first.2 taken
    cases c <;> simp [Payments.Call.entries] at sale direct

namespace Sample

def offered : List Step :=
  onSale ++ [events 3 (.registerForEvent 1 bob concert 0 none),
    payments 4 (.listTicketForResale bob 1 120)]

def guest : List Step :=
  [events 1 (.createEvent { params with eventId := festival }),
    events 1 (.updateEventStatus organizer festival .active),
    events 1 (.registerForEvent 1 bob festival 1 none)]

end Sample

theorem resale_moves_sold_iff_single :
    let w := run Sample.links.next (Sample.links.opened Sample.setup) Sample.offered
    let buys := Sample.payments 5 (.buyResaleTicket Sample.amy 1)
    ∃ past issue rest, Sample.offered = past ++ issue :: rest ∧
      let before := run Sample.links.next (Sample.links.opened Sample.setup) past
      ¬ Issued 1 before ∧ Issued 1 (Sample.links.next before issue) ∧
      ((∃ id ∈ mintedBy before (Sample.links.next before issue),
          Moved id Sample.amy w (Sample.links.next w buys)) ↔ nextMint before = 1) :=
  resale_moves_sold_iff Sample.links Sample.setup Sample.offered (by decide)
    (by decide) (Sample.invocation 5) Sample.amy 1 (by decide)

/-- Amy pays for bob's seat at the concert and is given his free ticket to the festival. -/
theorem resale_moves_another :
    let past := Sample.guest ++ Sample.onSale
    let issue := Sample.events 3 (.registerForEvent 1 Sample.bob Sample.concert 0 none)
    let rest := [Sample.payments 4 (.listTicketForResale Sample.bob 1 120)]
    let before := run Sample.links.next (Sample.links.opened Sample.setup) past
    let w := run Sample.links.next (Sample.links.opened Sample.setup) (past ++ issue :: rest)
    let buys := Sample.payments 5 (.buyResaleTicket Sample.amy 1)
    LinkedRun Sample.links Sample.setup (past ++ issue :: rest) ∧
      Along Sample.links.next (SoldByEvents Sample.links) (Sample.links.opened Sample.setup)
        (past ++ issue :: rest) ∧
      Sample.links.succeeds w buys = true ∧
      ¬ Issued 1 before ∧ Issued 1 (Sample.links.next before issue) ∧
      (Sample.links.next w buys).outside.tickets.events =
        .ticketTransferred 1 Sample.festival Sample.bob Sample.amy 5 :: w.outside.tickets.events ∧
      1 ∉ mintedBy before (Sample.links.next before issue) := by
  refine ⟨by decide, by decide, by decide, ?_, ?_, by decide,
    by decide⟩
  · unfold Issued
    decide
  · unfold Issued
    decide

end Zicket.Linked
