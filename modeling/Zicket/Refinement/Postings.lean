import Zicket.Escrow.Records
import Zicket.Payments.Contract
import Zicket.Refinement.View

/-! What each call writes in the escrow book. `Posts` gives the shape of a successful
call's postings; `Written` adds that they are sound and lead to the book afterwards. -/

namespace Zicket.Payments

open Host Foundation Book

/-- Timed-out disputes of the event, returned to `Held`. -/
def Sweeps (e : Symbol) (ps : List Posting) : Prop :=
  ∀ posting ∈ ps, ∃ p, posting = .unfreeze p ∧ p.eventId = e

/-- Payouts of whole token revenues of the event, without a fee. -/
def Drains (e : Symbol) (dst : Address) (time : ℕ) (ps : List Posting) : Prop :=
  ∀ posting ∈ ps, ∃ t total, posting = .payout e t none total total 0 dst time

def Book.latched (b : Book) (e : Symbol) : Bool :=
  (match b.config e with
    | some config => config.organizerWithdrawn && config.withdrawableRatioBps.getD 10000 == 10000
    | none => false) ||
  (match b.escrow e with
    | some escrow => escrow.autoReleased
    | none => false)

def Book.maxRefund (b : Book) (p : PaymentRecord) : ℤ :=
  if b.status p.eventId = some .cancelled then
    bpsOf p.amount (b.refundRatio p.eventId) - p.refundedAmount
  else p.amount - p.refundedAmount

def latchPostings (e : Symbol) (config : Option EventConfig) : List Posting :=
  (config.map fun c => Posting.configure e { c with organizerWithdrawn := true }).toList

/-- The first settlement of a split event, with the timed-out disputes before it. -/
def Settles (b : Book) (e : Symbol) (ps : List Posting) : Prop :=
  ((b.settlement e).isSome ∧ ps = []) ∨
  (b.settlement e = none ∧ ∃ sweep c total net left, Sweeps e sweep ∧ b.config e = some c ∧
    ps = sweep ++ [.settle e c.payoutToken (b.pool e) total net left])

/-- What a call writes when it succeeds in the state `w`. -/
def Posts (env : Env) (w : World) (ps : List Posting) : Call → Prop
  | .initialise admin token feeBps _ eventContract =>
    ps = [] ∨ ps = [.start admin token eventContract feeBps]
  | .setEventStatus _ e status => ps = [.setStatus e status]
  | .payForTicket _ payer e amount _ token _ _ _
  | .payForTicketWithCommitment _ payer e amount _ token _ _
  | .payForTicketWithOptions _ payer e amount token _ _ =>
    ∃ p ticket, p.eventId = e ∧ p.amount = amount ∧ p.token = token ∧ ps = [.sale p ticket payer]
  | .syncEventConfig _ e _ | .extendWithdrawalDelay _ e _ => ∃ c, ps = [.configure e c]
  | .refund _ paymentId amount => ∃ p payer status, w.book.payment paymentId = some p ∧
    w.book.latched p.eventId = false ∧ ps = [.refund p payer (amount.getD (w.book.maxRefund p)) status]
  | .withdraw _ e => ∃ sweep c total net left, Sweeps e sweep ∧ w.book.config e = some c ∧
    c.organizerWithdrawn = false ∧
    ps = sweep ++ [.payout e c.payoutToken (w.book.pool e) total net left c.organizer env.timestamp,
      .configure e { c with organizerWithdrawn := true }]
  | .cancelEvent e _ => ∃ c, w.book.config e = some c ∧
    ps = [.cancel e
      { c with
        cancelLedger := some env.sequence
        withdrawableRatioBps := some (cancellationRatio c env.sequence) }]
  | .claimRefund payer paymentId => ∃ p, w.book.payment paymentId = some p ∧
    w.book.status p.eventId = some .cancelled ∧ ps = [.refund p payer (w.book.maxRefund p) .refunded]
  | .postponeEvent e _ _ => ps = [.setStatus e .postponed]
  | .resumeEvent e _ => ps = [.setStatus e .active]
  | .requestPostponementRefund _ ticketId => ∃ p payer, w.book.payment ticketId = some p ∧
    w.book.status p.eventId = some .postponed ∧
    ps = [.refund p payer (p.amount - p.refundedAmount) .refunded]
  | .setEventEndTime _ e organizer eventEndTime =>
    ps = [.setEscrow e { organizer, eventEndTime, autoReleased := false }]
  | .releaseIfExpired e => ∃ sweep drains escrow, Sweeps e sweep ∧ w.book.escrow e = some escrow ∧
    escrow.autoReleased = false ∧ Drains e escrow.organizer env.timestamp drains ∧
    ps = sweep ++ drains ++ [.setEscrow e { escrow with autoReleased := true }]
  | .withdrawRevenue e recipient => ∃ sweep t total net, Sweeps e sweep ∧
    w.book.acceptedToken = some t ∧ (∀ c, w.book.config e = some c → c.organizerWithdrawn = false) ∧
    ps = sweep ++
      .payout e t none total net 0 recipient env.timestamp :: latchPostings e (w.book.config e)
  | .setPlatformFee feeBps _ => ps = [.setFee feeBps]
  | .withdrawPlatformRevenue e => ∃ t wallet, ps = [.sweep e t wallet]
  | .migrateEvent _ e => ∃ sweep counters, Sweeps e sweep ∧ ps = .recount counters :: sweep
  | .withdrawToken organizer e t => ∃ sweep total, Sweeps e sweep ∧
    ps = sweep ++ [.payout e t none total total 0 organizer env.timestamp]
  | .withdrawAllTokens organizer e => ∃ sweep drains, Sweeps e sweep ∧
    Drains e organizer env.timestamp drains ∧ ps = sweep ++ drains
  | .syncRevenueSplits _ e _ => ∃ splits, ps = [.setSplits e splits]
  | .withdrawSplit recipient e => w.book.flagged e recipient = false ∧
    ∃ settling s share, Settles w.book e settling ∧
      ps = settling ++ [.share e recipient recipient s share env.timestamp]
  | .flagCohost _ e recipient => ps = [.setFlag e recipient true]
  | .resolveFlaggedShare e recipient .releaseToRecipient => ps = [.setFlag e recipient false]
  | .resolveFlaggedShare e recipient .reassignToPrimary => w.book.flagged e recipient = true ∧
    ∃ settling s dst share, w.book.primary e = some dst ∧ Settles w.book e settling ∧
      ps = settling ++ [.share e recipient dst s share env.timestamp]
  | .bindEmailCommitment _ paymentId commitment => ∃ p, w.book.payment paymentId = some p ∧
    ps = [.bindReceipt p commitment]
  | .buyResaleTicket buyer ticketId => ∃ ticket listing, w.book.ticket ticketId = some ticket ∧
    w.getResaleListing ticketId = some listing ∧ (ps = [.handover ticket buyer] ∨
      ∃ t fee royalty seller, ps =
        [.resale ticket t listing.price fee royalty buyer seller, .handover ticket buyer])
  | .raiseDispute ticketId _ _ => ∃ p d, w.book.payment ticketId = some p ∧ ps = [.freeze p d]
  | .approveRefund ticketId => ∃ p payer, w.book.payment ticketId = some p ∧ ps = [.approve p payer]
  | .rejectDispute ticketId => ∃ p, w.book.payment ticketId = some p ∧ ps = [.unfreeze p]
  | .processDisputeTimeouts e => Sweeps e ps
  | _ => ps = []

def Call.entries : Call → List Entry
  | .initialise .. => [.start]
  | .setEventStatus .. | .postponeEvent .. | .resumeEvent .. => [.setStatus]
  | .payForTicket .. | .payForTicketWithCommitment .. | .payForTicketWithOptions .. => [.sale]
  | .syncEventConfig .. | .extendWithdrawalDelay .. => [.configure]
  | .refund .. | .claimRefund .. | .requestPostponementRefund .. => [.refund]
  | .withdraw .. | .withdrawRevenue .. => [.unfreeze, .payout, .configure]
  | .cancelEvent .. => [.cancel]
  | .setEventEndTime .. => [.setEscrow]
  | .releaseIfExpired .. => [.unfreeze, .payout, .setEscrow]
  | .setPlatformFee .. => [.setFee]
  | .withdrawPlatformRevenue .. => [.sweep]
  | .migrateEvent .. => [.recount, .unfreeze]
  | .withdrawToken .. | .withdrawAllTokens .. => [.unfreeze, .payout]
  | .syncRevenueSplits .. => [.setSplits]
  | .withdrawSplit .. => [.unfreeze, .settle, .share]
  | .flagCohost .. => [.setFlag]
  | .resolveFlaggedShare .. => [.setFlag, .unfreeze, .settle, .share]
  | .bindEmailCommitment .. => [.bindReceipt]
  | .buyResaleTicket .. => [.resale, .handover]
  | .raiseDispute .. => [.freeze]
  | .approveRefund .. => [.approve]
  | .rejectDispute .. | .processDisputeTimeouts .. => [.unfreeze]
  | _ => []

theorem Sweeps.entries {e : Symbol} {ps : List Posting} (sweeps : Sweeps e ps) {posting : Posting}
    (mem : posting ∈ ps) : posting.entry = .unfreeze := by
  obtain ⟨p, rfl, -⟩ := sweeps posting mem
  rfl

theorem Drains.entries {e : Symbol} {dst : Address} {time : ℕ} {ps : List Posting}
    (drains : Drains e dst time ps) {posting : Posting} (mem : posting ∈ ps) :
    posting.entry = .payout := by
  obtain ⟨t, total, rfl⟩ := drains posting mem
  rfl

theorem Settles.entries {b : Book} {e : Symbol} {ps : List Posting} (settles : Settles b e ps)
    {posting : Posting} (mem : posting ∈ ps) :
    posting.entry = .unfreeze ∨ posting.entry = .settle := by
  obtain ⟨-, rfl⟩ | ⟨-, sweep, c, total, net, left, sweeps, -, rfl⟩ := settles
  · cases mem
  · obtain mem | mem := List.mem_append.mp mem
    · exact .inl (sweeps.entries mem)
    · rw [List.mem_singleton.mp mem]
      exact .inr rfl

theorem latchPostings_entries {e : Symbol} {config : Option EventConfig} {posting : Posting}
    (mem : posting ∈ latchPostings e config) : posting.entry = .configure := by
  cases config with
  | none => cases mem
  | some c =>
    rw [List.mem_singleton.mp mem]
    rfl

theorem Posts.entries {env : Env} {w : World} {c : Call} {ps : List Posting}
    (posts : Posts env w ps c) {posting : Posting} (mem : posting ∈ ps) :
    posting.entry ∈ c.entries := by
  cases c <;> simp only [Posts] at posts
  all_goals
    grind [Posting.entry, Call.entries, Sweeps.entries, Drains.entries, Settles.entries,
      latchPostings_entries]

/-- A successful call `c` in the state `w` left the book `b'`. -/
def Written (env : Env) (w : World) (c : Call) (b' : Book) : Prop :=
  ∃ ps, Posts env w ps c ∧
    Along (post env.currentContract) (Sound env.currentContract) w.book ps ∧
    run (post env.currentContract) w.book ps = b'

section Written

variable {env : Env} {w : World} {b' : Book} {c : Call}

theorem Written.none (posts : Posts env w [] c) (same : b' = w.book) :
    Written env w c b' :=
  ⟨[], posts, trivial, same.symm⟩

theorem Written.one {posting : Posting} (posts : Posts env w [posting] c)
    (sound : Sound env.currentContract w.book posting)
    (effect : b' = w.book.post env.currentContract posting) : Written env w c b' :=
  ⟨[posting], posts, ⟨sound, trivial⟩, effect.symm⟩

end Written

end Zicket.Payments
