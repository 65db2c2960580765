import Zicket.Escrow.Book
import Zicket.Payments.Events
import Zicket.Payments.Storage

/-! The escrow book of a state of the contract, and what each storage accessor does to
it. Entries outside the book (indexes, nonces, settings, events) leave it alone. -/

namespace Zicket.Payments.World

open Host Foundation Book

def book (w : World) : Book where
  admin := w.get .admin
  acceptedToken := w.get .acceptedToken
  eventContract := w.get .eventContract
  feeBps := w.getPlatformFeeBps
  payments := (w.get .nextPaymentId).getD 0
  payment id := w.get (.payment id)
  tickets := (w.get .nextTicketId).getD 0
  ticket id := w.get (.ticket id)
  dispute id := w.get (.dispute id)
  disputes e := w.getEventDisputes e
  config e := w.get (.eventConfig e)
  status e := w.get (.eventStatus e)
  escrow e := w.get (.escrowMeta e)
  splits e := w.get (.eventSplits e)
  settlement e := w.get (.splitSettlement e)
  splitPaid e a := w.getSplitWithdrawn e a
  flagged e a := w.isSplitFlagged e a
  revenue e t := w.getEventTokenRevenue e t
  volume e t := w.getTotalTokenVolume e t
  refunds e t := w.getTotalTokenRefunds e t
  withdrawn e t := w.getTotalTokenWithdrawn e t
  totalPayments e := w.getTotalPayments e
  totalRefunds e := w.getTotalRefunds e
  totalWithdrawn e := w.getTotalWithdrawn e
  platform e := w.getPlatformRevenue e
  history e := w.getWithdrawalHistory e
  balances := w.balances
  transfers := w.transfers

section Tables

variable (w : World)

theorem book_set_payment (id : ℕ) (p : PaymentRecord) :
    (w.set (.payment id) p).book =
      { w.book with payment := Function.update w.book.payment id (some p) } := by
  have table := Store.table_set DataKey.payment (by simp)
    (fun _ (o : Option (PaymentRecord)) => o) w.storage id p
  unfold book
  congr 2

theorem book_set_ticket (id : ℕ) (ticket : Ticket) :
    (w.set (.ticket id) ticket).book =
      { w.book with ticket := Function.update w.book.ticket id (some ticket) } := by
  have table := Store.table_set DataKey.ticket (by simp)
    (fun _ (o : Option (Ticket)) => o) w.storage id ticket
  unfold book
  congr 2

theorem book_set_dispute (id : ℕ) (d : DisputeRecord) :
    (w.set (.dispute id) d).book =
      { w.book with dispute := Function.update w.book.dispute id (some d) } := by
  have table := Store.table_set DataKey.dispute (by simp)
    (fun _ (o : Option (DisputeRecord)) => o) w.storage id d
  unfold book
  congr 2

theorem book_set_eventConfig (e : Symbol) (c : EventConfig) :
    (w.set (.eventConfig e) c).book =
      { w.book with config := Function.update w.book.config e (some c) } := by
  have table := Store.table_set DataKey.eventConfig (by simp)
    (fun _ (o : Option (EventConfig)) => o) w.storage e c
  unfold book
  congr 2

theorem book_set_eventStatus (e : Symbol) (status : EventStatus) :
    (w.set (.eventStatus e) status).book =
      { w.book with status := Function.update w.book.status e (some status) } := by
  have table := Store.table_set DataKey.eventStatus (by simp)
    (fun _ (o : Option (EventStatus)) => o) w.storage e status
  unfold book
  congr 2

theorem book_set_escrowMeta (e : Symbol) (escrow : EscrowMetadata) :
    (w.set (.escrowMeta e) escrow).book =
      { w.book with escrow := Function.update w.book.escrow e (some escrow) } := by
  have table := Store.table_set DataKey.escrowMeta (by simp)
    (fun _ (o : Option (EscrowMetadata)) => o) w.storage e escrow
  unfold book
  congr 2

theorem book_set_eventSplits (e : Symbol) (splits : List RevenueSplit) :
    (w.set (.eventSplits e) splits).book =
      { w.book with splits := Function.update w.book.splits e (some splits) } := by
  have table := Store.table_set DataKey.eventSplits (by simp)
    (fun _ (o : Option (List RevenueSplit)) => o) w.storage e splits
  unfold book
  congr 2

theorem book_set_splitSettlement (e : Symbol) (s : SplitSettlement) :
    (w.set (.splitSettlement e) s).book =
      { w.book with settlement := Function.update w.book.settlement e (some s) } := by
  have table := Store.table_set DataKey.splitSettlement (by simp)
    (fun _ (o : Option (SplitSettlement)) => o) w.storage e s
  unfold book
  congr 2

theorem book_remove_dispute (id : ℕ) :
    (w.remove (.dispute id)).book =
      { w.book with dispute := Function.update w.book.dispute id none } := by
  have table := Store.table_remove DataKey.dispute (by simp)
    (fun _ (o : Option DisputeRecord) => o) w.storage id
  unfold book
  congr 2

theorem book_set_eventDisputes (e : Symbol) (ids : List ℕ) :
    (w.set (.eventDisputes e) ids).book =
      { w.book with disputes := Function.update w.book.disputes e ids } := by
  have table := Store.table_set DataKey.eventDisputes (by simp)
    (fun _ (o : Option (List ℕ)) => o.getD []) w.storage e ids
  unfold book
  congr 2

theorem book_set_totalPayments (e : Symbol) (x : ℤ) :
    (w.set (.totalPayments e) x).book =
      { w.book with totalPayments := Function.update w.book.totalPayments e x } := by
  have table := Store.table_set DataKey.totalPayments (by simp)
    (fun _ (o : Option ℤ) => o.getD 0) w.storage e x
  unfold book
  congr 2

theorem book_set_totalRefunds (e : Symbol) (x : ℤ) :
    (w.set (.totalRefunds e) x).book =
      { w.book with totalRefunds := Function.update w.book.totalRefunds e x } := by
  have table := Store.table_set DataKey.totalRefunds (by simp)
    (fun _ (o : Option ℤ) => o.getD 0) w.storage e x
  unfold book
  congr 2

theorem book_set_totalWithdrawn (e : Symbol) (x : ℤ) :
    (w.set (.totalWithdrawn e) x).book =
      { w.book with totalWithdrawn := Function.update w.book.totalWithdrawn e x } := by
  have table := Store.table_set DataKey.totalWithdrawn (by simp)
    (fun _ (o : Option ℤ) => o.getD 0) w.storage e x
  unfold book
  congr 2

theorem book_set_platformRevenue (e : Symbol) (x : ℤ) :
    (w.set (.platformRevenue e) x).book =
      { w.book with platform := Function.update w.book.platform e x } := by
  have table := Store.table_set DataKey.platformRevenue (by simp)
    (fun _ (o : Option ℤ) => o.getD 0) w.storage e x
  unfold book
  congr 2

theorem book_set_eventTokenRevenue (e : Symbol) (t : Address) (x : ℤ) :
    (w.set (.eventTokenRevenue e t) x).book =
      { w.book with revenue := put w.book.revenue e t x } := by
  have table := Store.table₂_set DataKey.eventTokenRevenue (by simp)
    (fun _ _ (o : Option ℤ) => o.getD 0) w.storage e t x
  unfold book
  congr 2

theorem book_set_eventTokenVolume (e : Symbol) (t : Address) (x : ℤ) :
    (w.set (.eventTokenVolume e t) x).book =
      { w.book with volume := put w.book.volume e t x } := by
  have table := Store.table₂_set DataKey.eventTokenVolume (by simp)
    (fun _ _ (o : Option ℤ) => o.getD 0) w.storage e t x
  unfold book
  congr 2

theorem book_set_totalTokenRefunds (e : Symbol) (t : Address) (x : ℤ) :
    (w.set (.totalTokenRefunds e t) x).book =
      { w.book with refunds := put w.book.refunds e t x } := by
  have table := Store.table₂_set DataKey.totalTokenRefunds (by simp)
    (fun _ _ (o : Option ℤ) => o.getD 0) w.storage e t x
  unfold book
  congr 2

theorem book_set_totalTokenWithdrawn (e : Symbol) (t : Address) (x : ℤ) :
    (w.set (.totalTokenWithdrawn e t) x).book =
      { w.book with withdrawn := put w.book.withdrawn e t x } := by
  have table := Store.table₂_set DataKey.totalTokenWithdrawn (by simp)
    (fun _ _ (o : Option ℤ) => o.getD 0) w.storage e t x
  unfold book
  congr 2

theorem book_set_splitWithdrawn (e : Symbol) (a : Address) (x : ℤ) :
    (w.set (.splitWithdrawn e a) x).book =
      { w.book with splitPaid := put w.book.splitPaid e a x } := by
  have table := Store.table₂_set DataKey.splitWithdrawn (by simp)
    (fun _ _ (o : Option ℤ) => o.getD 0) w.storage e a x
  unfold book
  congr 2

theorem book_set_splitFlagged (e : Symbol) (a : Address) (flag : Bool) :
    (w.set (.splitFlagged e a) flag).book =
      { w.book with flagged := put w.book.flagged e a flag } := by
  have table := Store.table₂_set DataKey.splitFlagged (by simp)
    (fun _ _ (o : Option Bool) => o.getD false) w.storage e a flag
  unfold book
  congr 2

end Tables

section Accessors

variable {w w' : World} {e : Symbol} {t a : Address} {x : ℤ} {id : ℕ}

@[simp] theorem book_emit (w : World) (event : ContractEvent) : (w.emit event).book = w.book := rfl

theorem transfer_book {tr : Transfer} (h : w.transfer tr = .ok w') :
    0 ≤ tr.amount ∧ w'.book = w.book.record tr := by
  unfold transfer at h
  split at h
  · rename_i balances moved
    cases h
    rw [Balances.transfer_eq_some] at moved
    obtain ⟨⟨nonneg, -⟩, rfl⟩ := moved
    exact ⟨nonneg, rfl⟩
  · cases h

theorem getNextPaymentId_book {next : ℕ × World} (h : w.getNextPaymentId = .ok next) :
    next.1 = w.book.payments + 1 ∧ next.2.book = { w.book with payments := next.1 } := by
  simp only [getNextPaymentId, bind_eq_ok, pure_eq_ok, u64_eq_ok] at h
  obtain ⟨nextId, ⟨-, rfl⟩, rfl⟩ := h
  exact ⟨rfl, rfl⟩

theorem getNextTicketId_book {next : ℕ × World} (h : w.getNextTicketId = .ok next) :
    next.1 = w.book.tickets + 1 ∧ next.2.book = { w.book with tickets := next.1 } := by
  simp only [getNextTicketId, bind_eq_ok, pure_eq_ok, u64_eq_ok] at h
  obtain ⟨nextId, ⟨-, rfl⟩, rfl⟩ := h
  exact ⟨rfl, rfl⟩

theorem savePayment_book {p : PaymentRecord} (h : w.savePayment p = .ok w') :
    w.book.payment p.paymentId = none ∧ w'.book = w.book.putPayment p := by
  simp only [savePayment, bind_eq_ok, pure_eq_ok, require_eq_ok] at h
  obtain ⟨-, absent, rfl⟩ := h
  have fresh : (w.book.payment p.paymentId).isSome = false := absent
  exact ⟨by simpa using fresh, book_set_payment w _ p⟩

theorem updatePayment_book {p : PaymentRecord} (h : w.updatePayment p = .ok w') :
    w'.book = w.book.putPayment p := by
  simp only [updatePayment, bind_eq_ok, pure_eq_ok, require_eq_ok] at h
  obtain ⟨-, -, rfl⟩ := h
  exact book_set_payment w _ p

theorem saveTicket_book {ticket : Ticket} (h : w.saveTicket ticket = .ok w') :
    w'.book = { w.book with
      ticket := Function.update w.book.ticket ticket.ticketId (some ticket) } := by
  simp only [saveTicket, bind_eq_ok, pure_eq_ok, require_eq_ok] at h
  obtain ⟨-, -, rfl⟩ := h
  exact book_set_ticket w _ ticket

theorem incrementEventSoldCount_book (h : w.incrementEventSoldCount e = .ok w') :
    w'.book = { w.book with config := w.book.sold e } := by
  simp only [incrementEventSoldCount, bind_eq_ok, pure_eq_ok, require_eq_ok, okOr_eq_ok] at h
  obtain ⟨config, stored, -, -, rfl⟩ := h
  rw [setEventConfig, book_set_eventConfig]
  have : w.book.config e = some config := stored
  simp [sold, this]

theorem addEventTokenRevenue_book (h : w.addEventTokenRevenue e t x = .ok w') :
    w'.book = w.book.addRevenue e t x := by
  simp only [addEventTokenRevenue, bind_eq_ok, pure_eq_ok, i128_eq_ok] at h
  obtain ⟨_, ⟨-, rfl⟩, rfl⟩ := h
  exact book_set_eventTokenRevenue w e t _

theorem getEventDisputes_eq (w : World) (e : Symbol) : w.getEventDisputes e = w.book.disputes e :=
  rfl

theorem setEventTokenRevenue_book {y : ℤ} (h : y = w.getEventTokenRevenue e t + x) :
    (w.setEventTokenRevenue e t y).book = w.book.addRevenue e t x := by
  rw [h]
  exact book_set_eventTokenRevenue w e t _

theorem addTotalPayments_book (h : w.addTotalPayments e x = .ok w') :
    w'.book = { w.book with
      totalPayments := Function.update w.book.totalPayments e (w.book.totalPayments e + x) } := by
  simp only [addTotalPayments, bind_eq_ok, pure_eq_ok, i128_eq_ok] at h
  obtain ⟨_, ⟨-, rfl⟩, rfl⟩ := h
  exact book_set_totalPayments w e _

theorem addTotalRefunds_book (h : w.addTotalRefunds e x = .ok w') :
    w'.book = { w.book with
      totalRefunds := Function.update w.book.totalRefunds e (w.book.totalRefunds e + x) } := by
  simp only [addTotalRefunds, bind_eq_ok, pure_eq_ok, i128_eq_ok] at h
  obtain ⟨_, ⟨-, rfl⟩, rfl⟩ := h
  exact book_set_totalRefunds w e _

theorem addTotalWithdrawn_book (h : w.addTotalWithdrawn e x = .ok w') :
    w'.book = { w.book with
      totalWithdrawn := Function.update w.book.totalWithdrawn e (w.book.totalWithdrawn e + x) } := by
  simp only [addTotalWithdrawn, bind_eq_ok, pure_eq_ok, i128_eq_ok] at h
  obtain ⟨_, ⟨-, rfl⟩, rfl⟩ := h
  exact book_set_totalWithdrawn w e _

theorem addTotalTokenVolume_book (h : w.addTotalTokenVolume e t x = .ok w') :
    w'.book = { w.book with volume := put w.book.volume e t (w.book.volume e t + x) } := by
  simp only [addTotalTokenVolume, bind_eq_ok, pure_eq_ok, i128_eq_ok] at h
  obtain ⟨_, ⟨-, rfl⟩, rfl⟩ := h
  exact book_set_eventTokenVolume w e t _

theorem addTotalTokenRefunds_book (h : w.addTotalTokenRefunds e t x = .ok w') :
    w'.book = { w.book with refunds := put w.book.refunds e t (w.book.refunds e t + x) } := by
  simp only [addTotalTokenRefunds, bind_eq_ok, pure_eq_ok, i128_eq_ok] at h
  obtain ⟨_, ⟨-, rfl⟩, rfl⟩ := h
  exact book_set_totalTokenRefunds w e t _

theorem addTotalTokenWithdrawn_book (h : w.addTotalTokenWithdrawn e t x = .ok w') :
    w'.book = { w.book with withdrawn := put w.book.withdrawn e t (w.book.withdrawn e t + x) } := by
  simp only [addTotalTokenWithdrawn, bind_eq_ok, pure_eq_ok, i128_eq_ok] at h
  obtain ⟨_, ⟨-, rfl⟩, rfl⟩ := h
  exact book_set_totalTokenWithdrawn w e t _

theorem addPlatformRevenue_book (h : w.addPlatformRevenue e x = .ok w') :
    w'.book = { w.book with
      platform := Function.update w.book.platform e (w.book.platform e + x) } := by
  simp only [addPlatformRevenue, bind_eq_ok, pure_eq_ok, i128_eq_ok] at h
  obtain ⟨_, ⟨-, rfl⟩, rfl⟩ := h
  exact book_set_platformRevenue w e _

/-- A new record goes under the next index, so the history reads back with it at the end. -/
theorem getWithdrawalHistory_append (w : World) (e : Symbol) (r : WithdrawalRecord) :
    ((w.set (.withdrawalRecord e (w.getWithdrawalCount e)) r).set
      (.withdrawalCount e) (w.getWithdrawalCount e + 1)).getWithdrawalHistory e =
      w.getWithdrawalHistory e ++ [r] := by
  have count : ((w.set (.withdrawalRecord e (w.getWithdrawalCount e)) r).set
      (.withdrawalCount e) (w.getWithdrawalCount e + 1)).getWithdrawalCount e =
      w.getWithdrawalCount e + 1 := by
    rw [getWithdrawalCount, get, set, Store.get_set_self, Option.getD_some]
  have entry : ∀ i, ((w.set (.withdrawalRecord e (w.getWithdrawalCount e)) r).set
      (.withdrawalCount e) (w.getWithdrawalCount e + 1)).get (.withdrawalRecord e i) =
      if i = w.getWithdrawalCount e then some r else w.get (.withdrawalRecord e i) := by
    intro i
    rw [get, set, Store.get_set_of_ne _ _ (by simp)]
    split
    · rename_i last
      subst last
      exact Store.get_set_self _ _ _
    · exact Store.get_set_of_ne _ _ (by simpa)
  rw [getWithdrawalHistory, count, List.range_succ, List.filterMap_append]
  congr 1
  · apply List.filterMap_congr
    intro i hi
    rw [entry, if_neg (List.mem_range.mp hi).ne]
  · simp [entry]

theorem addWithdrawalRecord_book {r : WithdrawalRecord} (h : w.addWithdrawalRecord e r = .ok w') :
    w'.book = { w.book with
      history := Function.update w.book.history e (w.book.history e ++ [r]) } := by
  simp only [addWithdrawalRecord, bind_eq_ok, pure_eq_ok, u32_eq_ok] at h
  obtain ⟨_, ⟨-, rfl⟩, rfl⟩ := h
  have table : (fun e' => ((w.set (.withdrawalRecord e (w.getWithdrawalCount e)) r).set
      (.withdrawalCount e) (w.getWithdrawalCount e + 1)).getWithdrawalHistory e') =
      Function.update w.book.history e (w.book.history e ++ [r]) := by
    funext e'
    by_cases h : e' = e
    · subst h
      rw [getWithdrawalHistory_append, Function.update_self]
      rfl
    · rw [Function.update_of_ne h]
      simp [getWithdrawalHistory, getWithdrawalCount, get, set, book, h]
  unfold book
  congr 2

theorem shiftEventRevenue_book (h : w.shiftEventRevenue e x = .ok w') : w'.book = w.book := by
  simp only [shiftEventRevenue, bind_eq_ok, pure_eq_ok] at h
  obtain ⟨_, -, _, -, rfl⟩ := h
  rfl

theorem addEventRevenue_book (h : w.addEventRevenue e x = .ok w') : w'.book = w.book := by
  simp only [addEventRevenue, bind_eq_ok, pure_eq_ok] at h
  obtain ⟨_, -, _, -, rfl⟩ := h
  rfl

theorem addEventPayment_book (h : w.addEventPayment e id = .ok w') : w'.book = w.book := by
  simp only [addEventPayment, bind_eq_ok, pure_eq_ok] at h
  obtain ⟨_, -, rfl⟩ := h
  rfl

theorem addPayerPayment_book (h : w.addPayerPayment a id = .ok w') : w'.book = w.book := by
  simp only [addPayerPayment, bind_eq_ok, pure_eq_ok] at h
  obtain ⟨_, -, rfl⟩ := h
  rfl

theorem addEventToken_book (h : w.addEventToken e t = .ok w') : w'.book = w.book := by
  unfold addEventToken at h
  split at h
  · cases h
    rfl
  · simp only [bind_eq_ok, pure_eq_ok] at h
    obtain ⟨_, -, rfl⟩ := h
    rfl

theorem addOwnerTicketMap_book (h : w.addOwnerTicketMap a id = .ok w') : w'.book = w.book := by
  simp only [addOwnerTicketMap, bind_eq_ok, pure_eq_ok] at h
  obtain ⟨_, -, rfl⟩ := h
  rfl

theorem removeOwnerTicketMap_book (w : World) (a : Address) (id : ℕ) :
    (w.removeOwnerTicketMap a id).book = w.book := by
  unfold removeOwnerTicketMap
  dsimp only
  repeat' split
  all_goals rfl

theorem incrementUserEventTickets_book (h : w.incrementUserEventTickets e a = .ok w') :
    w'.book = w.book := by
  simp only [incrementUserEventTickets, bind_eq_ok, pure_eq_ok] at h
  obtain ⟨_, -, rfl⟩ := h
  rfl

theorem incrementUserEventTicketsHash_book {hash : BytesN 32}
    (h : w.incrementUserEventTicketsHash e hash = .ok w') : w'.book = w.book := by
  simp only [incrementUserEventTicketsHash, bind_eq_ok, pure_eq_ok] at h
  obtain ⟨_, -, rfl⟩ := h
  rfl

end Accessors

end Zicket.Payments.World
