import Mathlib.Order.Interval.Finset.Nat
import Zicket.Linked.Agreement

/-! The two numberings of tickets. The payments contract issues one for each payment; the
ticket contract mints one for each seat that is given away, paid for or not. -/

namespace Zicket.Linked

open Host Foundation Events

variable {links : Links} {env : Env} {w w' : World} {s s' : Outside} {ms : List Message} {k : ℕ}

def nextMint (w : World) : ℕ := w.outside.tickets.readNextTicketId

def mintedBy (w w' : World) : Finset ℕ := Finset.Ico (nextMint w) (nextMint w')

def Issued (k : ℕ) (w : World) : Prop := w.outside.payments.book.ticket k ≠ none

section Delivered

def Message.mints : Message → ℕ
  | .payments _ => 0
  | .tickets c => c.mints

theorem delivered_minted (kept : s.tickets.registry.Kept) (sent : links.Delivered env s ms s') :
    s'.tickets.readNextTicketId = s.tickets.readNextTicketId + (ms.map Message.mints).sum := by
  induction ms generalizing s with
  | nil =>
    cases sent
    rfl
  | cons m ms ih =>
    obtain ⟨next, first, rest⟩ := sent
    rw [List.map_cons, List.sum_cons, ← Nat.add_assoc]
    cases m with
    | payments c =>
      obtain ⟨payments, -, rfl⟩ := Links.deliver_payments.mp first
      have later := ih (s := { s with payments }) kept rest
      exact later
    | tickets c =>
      obtain ⟨tickets, called, rfl⟩ := Links.deliver_tickets.mp first
      have later := ih (s := { s with tickets }) (exec_registry kept called) rest
      have minted : tickets.readNextTicketId = s.tickets.readNextTicketId + c.mints :=
        Tickets.made_next (Tickets.exec_made kept called)
      rw [later, minted]
      rfl

theorem delivered_unissued (kept : s.payments.book.Kept) (unsold : ∀ m ∈ ms, m.sells = false)
    (sent : links.Delivered env s ms s') :
    s'.payments.book.tickets = s.payments.book.tickets ∧
      ∀ id, s.payments.book.ticket id = none → s'.payments.book.ticket id = none := by
  refine delivered_book (I := fun b => b.tickets = s.payments.book.tickets ∧
    ∀ id, s.payments.book.ticket id = none → b.ticket id = none) ?_ kept ⟨rfl, fun _ => id⟩ sent
  intro c mem env w w' kept inv called
  have quiet : c.entries.contains .sale = false := unsold _ mem
  obtain ⟨count, absent⟩ := Payments.exec_unissued kept called (by simpa using quiet)
  exact ⟨count.trans inv.1, fun id unissued => absent id (inv.2 id unissued)⟩

end Delivered

section Step

def seats : Call → ℕ
  | .registerForEvent .. => 1
  | .batchRegisterForEvent _ _ _ _ count _ => count
  | _ => 0

/-- A call of the event contract issues no ticket, or one ticket for all its seats. -/
theorem effect_issued {c : Call} (kept : w.outside.Kept links) (effect : Effect env w w' ms c)
    (sent : links.Delivered env w.outside ms w'.outside) :
    (w'.outside.payments.book.tickets = w.outside.payments.book.tickets ∧
        ∀ id, ¬ Issued id w → ¬ Issued id w') ∨
      (0 < seats c ∧ nextMint w' = nextMint w + seats c ∧
        w'.outside.payments.book.tickets = w.outside.payments.book.tickets + 1 ∧
        ∀ id, ¬ Issued id w → Issued id w' → id = w.outside.payments.book.tickets + 1) := by
  have minted := delivered_minted kept.registry sent
  have sold {nonce : ℕ} {payer : Address} {e : Symbol} {price amount : ℤ}
      {emailHash : Option (BytesN 32)} {charge : List Message} {t : Tickets.Call}
      (positive : 0 < seats c) (mints : t.mints = seats c)
      (charges : Charges env nonce payer e price amount emailHash charge)
      (all : ms = charge ++ [.tickets t]) :
      (w'.outside.payments.book.tickets = w.outside.payments.book.tickets ∧
          ∀ id, ¬ Issued id w → ¬ Issued id w') ∨
        (0 < seats c ∧ nextMint w' = nextMint w + seats c ∧
          w'.outside.payments.book.tickets = w.outside.payments.book.tickets + 1 ∧
          ∀ id, ¬ Issued id w → Issued id w' → id = w.outside.payments.book.tickets + 1) := by
    subst all
    obtain ⟨⟨-, same⟩ | ⟨-, token, paid⟩, -⟩ := sale_delivered charges sent
    · refine .inl ⟨by rw [same], fun id unissued => ?_⟩
      unfold Issued
      rwa [same]
    · obtain ⟨count, new⟩ := Payments.payForTicket_issued kept.book paid
      refine .inr ⟨positive, ?_, count, fun id unissued => new id (not_not.mp unissued)⟩
      have free : (charge.map Message.mints).sum = 0 := by
        obtain ⟨-, rfl⟩ | ⟨-, -, token, rfl⟩ := charges <;> rfl
      rw [List.map_append, List.sum_append, free, Nat.zero_add] at minted
      rw [← mints]
      exact minted
  have unsold (free : registers c = false) := delivered_unissued kept.book (effect.unsold free) sent
  cases c with
  | registerForEvent =>
    obtain ⟨-, o, price, charge, -, -, -, charges, rfl⟩ := effect
    exact sold Nat.one_pos rfl charges rfl
  | batchRegisterForEvent =>
    obtain ⟨-, o, price, amount, charge, -, -, -, positive, charges, rfl⟩ := effect
    exact sold positive rfl charges rfl
  | _ =>
    obtain ⟨count, absent⟩ := unsold rfl
    exact .inl ⟨count, fun id unissued => not_not.mpr (absent id (not_not.mp unissued))⟩

variable {invocation : Invocation}

theorem direct_mints_nothing {c : Tickets.Call} (wired : Wired links w)
    (success : links.succeeds w (.tickets invocation c) = true) : c.mints = 0 := by
  obtain ⟨tickets, called⟩ := Tickets.succeeds_iff.mp success
  have masked : links.IsContract links.events := List.mem_cons_self ..
  have refused {organizer : Address} (u : Unit) : Tickets.requireMinter
      ⟨links.ticketsAt, links.signed invocation⟩ w.outside.tickets organizer ≠ .ok u := by
    rw [Tickets.requireMinter, wired.outside.minter]
    simp [Links.signed, masked]
  cases c with
  | mintTicket =>
    simp only [Tickets.Call.exec, Tickets.mintTicket, bind_eq_ok] at called
    obtain ⟨_, ⟨u, minter, -⟩, -⟩ := called
    exact absurd minter (refused u)
  | batchMintTicket =>
    simp only [Tickets.Call.exec, Tickets.batchMintTicket, bind_eq_ok] at called
    obtain ⟨_, ⟨-, -, u, minter, -⟩, -⟩ := called
    exact absurd minter (refused u)
  | _ => rfl

theorem transferred_minted (c : Payments.Call) (kept : s.tickets.registry.Kept) :
    (links.transferred invocation c s).readNextTicketId = s.tickets.readNextTicketId := by
  unfold Links.transferred
  split
  · rename_i transfer found
    refine commit_induction (P := fun t : Tickets.World =>
      t.readNextTicketId = s.tickets.readNextTicketId) rfl fun tickets moved => ?_
    have minted : tickets.readNextTicketId = s.tickets.readNextTicketId + transfer.mints :=
      Tickets.made_next (Tickets.exec_made kept moved)
    unfold Links.transferOf at found
    split at found
    · obtain ⟨listing, -, rfl⟩ := Option.map_eq_some_iff.mp found
      exact minted
    · cases found
  · rfl

theorem next_unminted {step : Step} (wired : Wired links w)
    (other : ∀ invocation c, step ≠ .events invocation c) :
    nextMint (links.next w step) = nextMint w := by
  by_cases success : links.succeeds w step = true
  · cases step with
    | events invocation c => exact absurd rfl (other invocation c)
    | payments invocation c =>
      obtain ⟨payments, -, next⟩ := payments_next success
      rw [next]
      exact transferred_minted c wired.outside.registry
    | tickets invocation c =>
      obtain ⟨tickets, called⟩ := Tickets.succeeds_iff.mp success
      have minted : tickets.readNextTicketId = w.outside.tickets.readNextTicketId + c.mints :=
        Tickets.made_next (Tickets.exec_made wired.outside.registry called)
      rw [direct_mints_nothing wired success] at minted
      rw [next_tickets_ok called]
      exact minted
    | mint | pay => rfl
  · rw [next_failed success]

def Step.seats : Step → ℕ
  | .events _ c => Linked.seats c
  | _ => 0

theorem issue_mints {step : Step} (wired : Wired links w) (before : ¬ Issued k w)
    (after : Issued k (links.next w step)) :
    nextMint (links.next w step) = nextMint w + step.seats ∧
      ((0 < step.seats ∧ k = w.outside.payments.book.tickets + 1) ∨
        ∃ invocation c, step = .payments invocation c ∧ links.succeeds w step = true ∧
          .sale ∈ c.entries) := by
  have success : links.succeeds w step = true := by
    by_contra failed
    rw [next_failed failed] at after
    exact before after
  have token {step : Payments.Step} (same : (w.outside.payments.next links.paymentsAt
      step).book.toRecords = w.outside.payments.book.toRecords)
      (issued : (w.outside.payments.next links.paymentsAt step).book.ticket k ≠ none) : False := by
    rw [congrArg Payments.Records.ticket same] at issued
    exact before issued
  cases step with
  | events invocation c =>
    obtain ⟨ms, effect, sent⟩ := wired.events success
    obtain ⟨-, unissued⟩ | ⟨positive, minted, -, new⟩ := effect_issued wired.outside effect sent
    · exact absurd after (unissued k before)
    · exact ⟨minted, .inl ⟨positive, new k before after⟩⟩
  | payments invocation c =>
    refine ⟨next_unminted wired (by simp), .inr ⟨invocation, c, rfl, success, ?_⟩⟩
    by_contra quiet
    obtain ⟨payments, called, next⟩ := payments_next success
    rw [next] at after
    exact after ((Payments.exec_unissued wired.outside.book called quiet).2 k (not_not.mp before))
  | tickets => exact absurd after before
  | mint t dst amount =>
    exact (token (token_book links.paymentsAt wired.outside.book (.mint t dst amount) nofun).1
      after).elim
  | pay t src dst amount =>
    exact (token (token_book links.paymentsAt wired.outside.book (.pay t src dst amount) nofun).1
      after).elim

end Step

end Zicket.Linked
