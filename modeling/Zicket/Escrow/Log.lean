import Zicket.Escrow.Records

/-! What the transfer log adds up to: for each event and token what came in and what went
out, sorted by purpose, and its agreement with the contract's own counters. -/

namespace Zicket.Payments

open Host Foundation

namespace Transfer

def paid (tr : Transfer) : ℤ :=
  match tr.purpose with
  | .ticketPayment _ => tr.amount
  | _ => 0

def refunded (tr : Transfer) : ℤ :=
  match tr.purpose with
  | .refund _ => tr.amount
  | _ => 0

def withdrawn (tr : Transfer) : ℤ :=
  match tr.purpose with
  | .revenue | .splitShare _ | .platformSweep => tr.amount
  | _ => 0

def swept (tr : Transfer) : ℤ :=
  match tr.purpose with
  | .platformSweep => tr.amount
  | _ => 0

/-- What the withdrawal history of an event records. -/
def drawn (tr : Transfer) : ℤ :=
  match tr.purpose with
  | .revenue | .splitShare _ => tr.amount
  | _ => 0

theorem withdrawn_eq (tr : Transfer) : tr.withdrawn = tr.drawn + tr.swept := by
  unfold withdrawn drawn swept
  split <;> simp_all

/-- A resale's price counts in, the proceeds paid to the seller count out. -/
def resaleKept (tr : Transfer) : ℤ :=
  match tr.purpose with
  | .resalePrice _ => tr.amount
  | .resaleProceeds _ => -tr.amount
  | _ => 0

def received (tr : Transfer) : ℤ := tr.paid + tr.resaleKept

def sent (tr : Transfer) : ℤ := tr.refunded + tr.withdrawn

def gain (account : Address) (tr : Transfer) : ℤ :=
  (if tr.dst = account then tr.amount else 0) - if tr.src = account then tr.amount else 0

/-- The contract is paid for tickets and resales, and pays everything else. -/
def Oriented (contract : Address) (tr : Transfer) : Prop :=
  match tr.purpose with
  | .ticketPayment _ | .resalePrice _ => tr.dst = contract
  | _ => tr.src = contract

theorem Oriented.gain_eq {contract : Address} {tr : Transfer} (h : tr.Oriented contract)
    (distinct : tr.src ≠ tr.dst) :
    tr.gain contract = tr.paid - tr.refunded - tr.withdrawn + tr.resaleKept := by
  cases kind : tr.purpose <;> simp only [Oriented, kind] at h <;> subst h <;>
    simp [gain, paid, refunded, withdrawn, resaleKept, kind, distinct, distinct.symm]

end Transfer

def tallyAt (f : Transfer → ℤ) (log : List Transfer) (e : Symbol) (t : Address) : ℤ :=
  tally (fun tr => if tr.eventId = e ∧ tr.token = t then f tr else 0) log

theorem tallyAt_cons (f : Transfer → ℤ) (tr : Transfer) (log : List Transfer) :
    tallyAt f (tr :: log) =
      put (tallyAt f log) tr.eventId tr.token (tallyAt f log tr.eventId tr.token + f tr) := by
  funext e t
  rw [put_apply, tallyAt, tally_cons]
  by_cases here : e = tr.eventId ∧ t = tr.token
  · obtain ⟨rfl, rfl⟩ := here
    rw [if_pos ⟨rfl, rfl⟩, if_pos ⟨rfl, rfl⟩, add_comm]
    rfl
  · rw [if_neg here, if_neg fun there => here ⟨there.1.symm, there.2.symm⟩, zero_add]
    rfl

theorem tallyAt_cons_of_zero {f : Transfer → ℤ} {tr : Transfer} (h : f tr = 0)
    (log : List Transfer) : tallyAt f (tr :: log) = tallyAt f log := by
  rw [tallyAt_cons, h, add_zero, put_eq]

theorem tallyAt_sub (f g : Transfer → ℤ) (log : List Transfer) (e : Symbol) (t : Address) :
    tallyAt (fun tr => f tr - g tr) log e t = tallyAt f log e t - tallyAt g log e t := by
  unfold tallyAt
  rw [← tally_sub]
  apply tally_congr
  intro tr _
  split
  · rfl
  · exact (sub_zero 0).symm

/-- Summed over the events, a log's entries in a token add up to all its entries in it. -/
theorem finsum_tallyAt_events (f : Transfer → ℤ) (log : List Transfer) (t : Address) :
    ∑ᶠ e, tallyAt f log e t = tally (fun tr => if tr.token = t then f tr else 0) log := by
  rw [← finsum_tally Transfer.eventId]
  congr 1
  funext e
  apply tally_congr
  intro tr _
  by_cases he : tr.eventId = e <;> simp [he]

theorem finsum_tallyAt_tokens (f : Transfer → ℤ) (log : List Transfer) (e : Symbol) :
    ∑ᶠ t, tallyAt f log e t = tally (fun tr => if tr.eventId = e then f tr else 0) log := by
  rw [← finsum_tally Transfer.token]
  congr 1
  funext t
  apply tally_congr
  intro tr _
  by_cases ht : tr.token = t <;> simp [ht]

/-- The counters of the contract agree with the log. -/
structure Logged (b : Book) : Prop where
  volume : b.volume = tallyAt Transfer.paid b.transfers
  refunds : b.refunds = tallyAt Transfer.refunded b.transfers
  withdrawn : b.withdrawn = tallyAt Transfer.withdrawn b.transfers

structure Drawn (b : Book) : Prop where
  history : ∀ e, b.totalWithdrawn e = tally (·.amount) (b.history e)
  log : ∀ e, b.totalWithdrawn e =
    tally (fun tr => if tr.eventId = e then tr.drawn else 0) b.transfers

namespace Book

variable {b : Book} {self : Address}

def resaleTransfers (self : Address) (ticket : Ticket) (t : Address) (price proceeds : ℤ)
    (buyer seller : Address) : List Transfer :=
  (if 0 < proceeds then
    [{ token := t, src := self, dst := seller, amount := proceeds, eventId := ticket.eventId,
       purpose := .resaleProceeds ticket.ticketId }]
  else []) ++
  [{ token := t, src := buyer, dst := self, amount := price, eventId := ticket.eventId,
     purpose := .resalePrice ticket.ticketId }]

def added (self : Address) (b : Book) : Posting → List Transfer
  | .sale p _ payer => [paymentTransfer self p payer]
  | .refund p payer amount _ => [refundTransfer self p payer amount]
  | .approve p payer => [refundTransfer self p payer (p.amount - p.refundedAmount)]
  | .payout e t _ _ net _ dst _ =>
    [{ token := t, src := self, dst, amount := net, eventId := e, purpose := .revenue }]
  | .share e recipient dst s amount _ =>
    [{ token := s.token, src := self, dst, amount, eventId := e, purpose := .splitShare recipient }]
  | .sweep e t dst =>
    [{ token := t, src := self, dst, amount := b.platform e, eventId := e,
       purpose := .platformSweep }]
  | .resale ticket t price fee royalty buyer seller =>
    resaleTransfers self ticket t price (price - fee - royalty) buyer seller
  | _ => []

theorem recordResale_transfers (self : Address) (b : Book) (ticket : Ticket) (t : Address)
    (price proceeds : ℤ) (buyer seller : Address) :
    (recordResale self b ticket t price proceeds buyer seller).transfers =
      resaleTransfers self ticket t price proceeds buyer seller ++ b.transfers := by
  unfold recordResale resaleTransfers
  dsimp only
  split <;> rfl

theorem post_transfers (self : Address) (b : Book) (posting : Posting) :
    (b.post self posting).transfers = b.added self posting ++ b.transfers := by
  cases posting with
  | resale ticket t price fee royalty buyer seller => exact recordResale_transfers ..
  | _ => rfl

theorem mem_resaleTransfers {ticket : Ticket} {t : Address} {price proceeds : ℤ}
    {buyer seller : Address} {tr : Transfer}
    (mem : tr ∈ resaleTransfers self ticket t price proceeds buyer seller) :
    (tr.purpose = .resalePrice ticket.ticketId ∧ tr.dst = self) ∨
      (tr.purpose = .resaleProceeds ticket.ticketId ∧ tr.src = self) := by
  unfold resaleTransfers at mem
  split at mem <;> simp at mem
  · obtain rfl | rfl := mem
    · exact .inr ⟨rfl, rfl⟩
    · exact .inl ⟨rfl, rfl⟩
  · subst mem
    exact .inl ⟨rfl, rfl⟩

theorem post_balance {posting : Posting} (inside : ∀ balances, posting ≠ .outside balances)
    (t account : Address) :
    (b.post self posting).balances t account = b.balances t account +
      tally (fun tr => if tr.token = t then tr.gain account else 0) (b.added self posting) := by
  have recorded : ∀ (b : Book) (tr : Transfer), (b.record tr).balances t account =
      b.balances t account + if tr.token = t then tr.gain account else 0 := by
    intro b tr
    simp only [record, Balances.credit_apply, Transfer.gain]
    by_cases token : t = tr.token <;> by_cases src : account = tr.src <;>
      by_cases dst : account = tr.dst <;> simp_all [eq_comm]
  cases posting with
  | outside balances => exact absurd rfl (inside balances)
  | sale | refund | approve | payout | share | sweep =>
    exact (recorded b _).trans (congrArg _ (add_zero _).symm)
  | resale ticket t' price fee royalty buyer seller =>
    change (recordResale self b ticket t' price (price - fee - royalty) buyer seller).balances t
      account = _
    unfold recordResale added resaleTransfers
    dsimp only
    split
    · rw [recorded, recorded]
      simp only [List.cons_append, List.nil_append, tally_cons, tally_nil]
      ring
    · rw [recorded]
      simp only [List.nil_append, tally_cons, tally_nil, add_zero]
  | _ => exact (add_zero _).symm

theorem added_oriented {posting : Posting} {tr : Transfer} (mem : tr ∈ b.added self posting) :
    tr.Oriented self := by
  cases posting with
  | resale ticket t price fee royalty buyer seller =>
    obtain ⟨kind, here⟩ | ⟨kind, here⟩ := mem_resaleTransfers mem <;>
      simpa [Transfer.Oriented, kind] using here
  | sale | refund | approve | payout | share | sweep =>
    obtain rfl := List.mem_singleton.mp mem
    rfl
  | _ => cases mem

theorem recordResale_tally (self : Address) (b : Book) (f : Transfer → ℤ) (ticket : Ticket)
    (t : Address) (price proceeds : ℤ) (buyer seller : Address)
    (zero : ∀ tr : Transfer, (tr.purpose = .resalePrice ticket.ticketId ∨
      tr.purpose = .resaleProceeds ticket.ticketId) → f tr = 0) :
    tallyAt f (recordResale self b ticket t price proceeds buyer seller).transfers =
      tallyAt f b.transfers := by
  unfold recordResale
  dsimp only
  split
  · simp only [record]
    rw [tallyAt_cons_of_zero (zero _ (.inr rfl)), tallyAt_cons_of_zero (zero _ (.inl rfl))]
  · simp only [record]
    rw [tallyAt_cons_of_zero (zero _ (.inl rfl))]

theorem post_logged (h : Logged b) {posting : Posting}
    (counted : ∀ counters, posting ≠ .recount counters) : Logged (b.post self posting) := by
  have one : ∀ (b' : Book) (tr : Transfer), b'.transfers = tr :: b.transfers →
      b'.volume = put b.volume tr.eventId tr.token (b.volume tr.eventId tr.token + tr.paid) →
      b'.refunds = put b.refunds tr.eventId tr.token (b.refunds tr.eventId tr.token + tr.refunded) →
      b'.withdrawn =
        put b.withdrawn tr.eventId tr.token (b.withdrawn tr.eventId tr.token + tr.withdrawn) →
      Logged b' := by
    intro b' tr transfers volume refunds withdrawn
    refine ⟨?_, ?_, ?_⟩ <;> rw [transfers, tallyAt_cons]
    · rw [volume, h.volume]
    · rw [refunds, h.refunds]
    · rw [withdrawn, h.withdrawn]
  cases posting with
  | sale p ticket payer =>
    refine one _ (paymentTransfer self p payer) rfl rfl ?_ ?_ <;>
      simp [paymentTransfer, Transfer.refunded, Transfer.withdrawn, post, addRevenue, putPayment,
        record]
  | refund p payer x status =>
    refine one _ (refundTransfer self p payer x) rfl ?_ rfl ?_ <;>
      simp [refundTransfer, Transfer.paid, Transfer.withdrawn, post, addRevenue, addRefunds,
        putPayment, record]
  | approve p payer =>
    refine one _ (refundTransfer self p payer (p.amount - p.refundedAmount)) rfl ?_ rfl ?_ <;>
      simp [refundTransfer, Transfer.paid, Transfer.withdrawn, post, addRefunds, putPayment,
        dropDispute, record]
  | payout e t pool total net left dst time =>
    refine one _ ⟨t, self, dst, net, e, .revenue⟩ rfl ?_ ?_ rfl <;>
      simp [Transfer.paid, Transfer.refunded, post, addWithdrawal, takeOut, record]
  | share e recipient dst s amount time =>
    refine one _ ⟨s.token, self, dst, amount, e, .splitShare recipient⟩ rfl ?_ ?_ rfl <;>
      simp [Transfer.paid, Transfer.refunded, post, addWithdrawal, record]
  | sweep e t dst =>
    refine one _ ⟨t, self, dst, b.platform e, e, .platformSweep⟩ rfl ?_ ?_ rfl <;>
      simp [Transfer.paid, Transfer.refunded, post, record]
  | resale ticket t price fee royalty buyer seller =>
    have counters :=
      (recordResale_frame self b ticket t price (price - fee - royalty) buyer seller).2.2.2
    refine ⟨?_, ?_, ?_⟩
    · refine (congrArg Counters.volume counters).trans (h.volume.trans ?_)
      exact (recordResale_tally _ _ _ _ _ _ _ _ _
        (by rintro tr (kind | kind) <;> simp [Transfer.paid, kind])).symm
    · refine (congrArg Counters.refunds counters).trans (h.refunds.trans ?_)
      exact (recordResale_tally _ _ _ _ _ _ _ _ _
        (by rintro tr (kind | kind) <;> simp [Transfer.refunded, kind])).symm
    · refine (congrArg Counters.withdrawn counters).trans (h.withdrawn.trans ?_)
      exact (recordResale_tally _ _ _ _ _ _ _ _ _
        (by rintro tr (kind | kind) <;> simp [Transfer.withdrawn, kind])).symm
  | recount counters => exact absurd rfl (counted counters)
  | _ => exact ⟨h.volume, h.refunds, h.withdrawn⟩

/-- The history of an event holds what was drawn from it; a sweep is not part of it. -/
theorem post_drawn (h : Drawn b) {posting : Posting}
    (counted : ∀ counters, posting ≠ .recount counters) : Drawn (b.post self posting) := by
  have quiet : ∀ (b' : Book) (tr : Transfer), tr.drawn = 0 → b'.transfers = tr :: b.transfers →
      b'.totalWithdrawn = b.totalWithdrawn → b'.history = b.history → Drawn b' := by
    intro b' tr idle transfers total history
    refine ⟨fun e => ?_, fun e => ?_⟩
    · rw [total, history, h.history]
    · rw [total, transfers, tally_cons, idle, ite_self, zero_add, h.log]
  have counts : ∀ (b' : Book) (tr : Transfer) (dst : Address) (time : ℕ), tr.drawn = tr.amount →
      b'.transfers = tr :: b.transfers →
      b'.totalWithdrawn = Function.update b.totalWithdrawn tr.eventId
        (b.totalWithdrawn tr.eventId + tr.amount) →
      b'.history = Function.update b.history tr.eventId
        (b.history tr.eventId ++ [⟨tr.amount, time, dst⟩]) → Drawn b' := by
    intro b' tr dst time draws transfers total history
    refine ⟨fun e => ?_, fun e => ?_⟩ <;> by_cases he : e = tr.eventId
    · rw [total, history, he, Function.update_self, Function.update_self, tally_append, h.history]
      simp
    · rw [total, history, Function.update_of_ne he, Function.update_of_ne he, h.history]
    · rw [total, transfers, tally_cons, he, Function.update_self, if_pos rfl, draws, h.log, add_comm]
    · rw [total, transfers, tally_cons, Function.update_of_ne he, if_neg (Ne.symm he), zero_add,
        h.log]
  cases posting with
  | sale p ticket payer => exact quiet _ (paymentTransfer self p payer) rfl rfl rfl rfl
  | refund p payer x status => exact quiet _ (refundTransfer self p payer x) rfl rfl rfl rfl
  | approve p payer =>
    exact quiet _ (refundTransfer self p payer (p.amount - p.refundedAmount)) rfl rfl rfl rfl
  | sweep e t dst => exact quiet _ ⟨t, self, dst, b.platform e, e, .platformSweep⟩ rfl rfl rfl rfl
  | payout e t pool total net left dst time =>
    exact counts _ ⟨t, self, dst, net, e, .revenue⟩ dst time rfl rfl rfl rfl
  | share e recipient dst s amount time =>
    exact counts _ ⟨s.token, self, dst, amount, e, .splitShare recipient⟩ dst time rfl rfl rfl rfl
  | resale ticket t price fee royalty buyer seller =>
    have counters :=
      (recordResale_frame self b ticket t price (price - fee - royalty) buyer seller).2.2.2
    have same := recordResale_tally self b Transfer.drawn ticket t price
      (price - fee - royalty) buyer seller
      (by rintro tr (kind | kind) <;> simp [Transfer.drawn, kind])
    refine ⟨fun e => ?_, fun e => ?_⟩
    · have total := congrArg (Counters.totalWithdrawn · e) counters
      have history := congrArg (Counters.history · e) counters
      exact total.trans ((h.history e).trans (congrArg _ history.symm))
    · have total := congrArg (Counters.totalWithdrawn · e) counters
      refine total.trans ((h.log e).trans ?_)
      rw [← finsum_tallyAt_tokens, ← finsum_tallyAt_tokens, ← same]
      rfl
  | recount counters => exact absurd rfl (counted counters)
  | _ => exact ⟨h.history, h.log⟩

end Book

end Zicket.Payments
