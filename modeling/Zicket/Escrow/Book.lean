import Zicket.Foundation.BasisPoints
import Zicket.Payments.World

/-! The escrow book: what the contract is for, apart from how it stores things.
It keeps records by number, money by event and token, and a log of token transfers.
A posting is one entry; `Sound` says when the contract may write it. -/

namespace Zicket.Payments

open Host Foundation

/-- Payments, tickets and open disputes, each by its number. -/
structure Records where
  payments : ℕ
  payment : ℕ → Option PaymentRecord
  tickets : ℕ
  ticket : ℕ → Option Ticket
  dispute : ℕ → Option DisputeRecord
  disputes : Symbol → List ℕ

structure Terms where
  admin : Option Address
  acceptedToken : Option Address
  eventContract : Option Address
  feeBps : ℕ
  config : Symbol → Option EventConfig
  status : Symbol → Option EventStatus
  escrow : Symbol → Option EscrowMetadata
  splits : Symbol → Option (List RevenueSplit)
  flagged : Symbol → Address → Bool

/-- What is still owed: to organizers, to the platform and to split recipients. -/
structure Accounts where
  revenue : Symbol → Address → ℤ
  platform : Symbol → ℤ
  settlement : Symbol → Option SplitSettlement
  splitPaid : Symbol → Address → ℤ

structure Counters where
  volume : Symbol → Address → ℤ
  refunds : Symbol → Address → ℤ
  withdrawn : Symbol → Address → ℤ
  totalPayments : Symbol → ℤ
  totalRefunds : Symbol → ℤ
  totalWithdrawn : Symbol → ℤ
  history : Symbol → List WithdrawalRecord

/-- What was withdrawn is counted in `i128`. -/
def Counters.Bounded (c : Counters) : Prop :=
  (∀ e, -2 ^ 127 ≤ c.totalWithdrawn e) ∧ ∀ e t, -2 ^ 127 ≤ c.withdrawn e t

structure Wallet where
  balances : Balances Address Address
  transfers : List Transfer

structure Book extends Records, Terms, Accounts, Counters, Wallet

inductive Posting where
  | start (admin token eventContract : Address) (feeBps : ℕ)
  | setFee (feeBps : ℕ)
  | sale (p : PaymentRecord) (ticket : Ticket) (payer : Address)
  | refund (p : PaymentRecord) (payer : Address) (amount : ℤ) (status : PaymentStatus)
  | freeze (p : PaymentRecord) (d : DisputeRecord)
  | unfreeze (p : PaymentRecord)
  | approve (p : PaymentRecord) (payer : Address)
  | payout (e : Symbol) (t : Address) (pool : Option ℕ) (total net left : ℤ) (dst : Address)
    (time : ℕ)
  | settle (e : Symbol) (t : Address) (pool : Option ℕ) (total net left : ℤ)
  | share (e : Symbol) (recipient dst : Address) (s : SplitSettlement) (amount : ℤ) (time : ℕ)
  | sweep (e : Symbol) (t dst : Address)
  | resale (ticket : Ticket) (t : Address) (price fee royalty : ℤ) (buyer seller : Address)
  | handover (ticket : Ticket) (buyer : Address)
  | configure (e : Symbol) (c : EventConfig)
  | cancel (e : Symbol) (c : EventConfig)
  | setStatus (e : Symbol) (status : EventStatus)
  | setEscrow (e : Symbol) (escrow : EscrowMetadata)
  | setSplits (e : Symbol) (splits : List RevenueSplit)
  | setFlag (e : Symbol) (recipient : Address) (flagged : Bool)
  | bindReceipt (p : PaymentRecord) (commitment : BytesN 32)
  | outside (balances : Balances Address Address)
  | recount (counters : Counters)

inductive Entry where
  | start | setFee | sale | refund | freeze | unfreeze | approve | payout | settle | share | sweep
  | resale | handover | configure | cancel | setStatus | setEscrow | setSplits | setFlag
  | bindReceipt | outside | recount
  deriving DecidableEq

def Posting.entry : Posting → Entry
  | .start .. => .start
  | .setFee .. => .setFee
  | .sale .. => .sale
  | .refund .. => .refund
  | .freeze .. => .freeze
  | .unfreeze .. => .unfreeze
  | .approve .. => .approve
  | .payout .. => .payout
  | .settle .. => .settle
  | .share .. => .share
  | .sweep .. => .sweep
  | .resale .. => .resale
  | .handover .. => .handover
  | .configure .. => .configure
  | .cancel .. => .cancel
  | .setStatus .. => .setStatus
  | .setEscrow .. => .setEscrow
  | .setSplits .. => .setSplits
  | .setFlag .. => .setFlag
  | .bindReceipt .. => .bindReceipt
  | .outside .. => .outside
  | .recount .. => .recount

namespace Book

def record (b : Book) (tr : Transfer) : Book :=
  { b with
    transfers := tr :: b.transfers
    balances := (b.balances.credit tr.token tr.src (-tr.amount)).credit tr.token tr.dst tr.amount }

def putPayment (b : Book) (p : PaymentRecord) : Book :=
  { b with payment := Function.update b.payment p.paymentId (some p) }

def addRevenue (b : Book) (e : Symbol) (t : Address) (amount : ℤ) : Book :=
  { b with revenue := put b.revenue e t (b.revenue e t + amount) }

def addRefunds (b : Book) (e : Symbol) (t : Address) (amount : ℤ) : Book :=
  { b with
    refunds := put b.refunds e t (b.refunds e t + amount)
    totalRefunds := Function.update b.totalRefunds e (b.totalRefunds e + amount) }

def addWithdrawal (b : Book) (e : Symbol) (t dst : Address) (amount : ℤ) (time : ℕ) : Book :=
  { b with
    withdrawn := put b.withdrawn e t (b.withdrawn e t + amount)
    totalWithdrawn := Function.update b.totalWithdrawn e (b.totalWithdrawn e + amount)
    history := Function.update b.history e
      (b.history e ++ [{ amount, timestamp := time, organizer := dst }]) }

/-- Take the part `total - net` of a payout as platform fee and leave `left` as revenue. -/
def takeOut (b : Book) (e : Symbol) (t : Address) (total net left : ℤ) : Book :=
  { b with
    revenue := put b.revenue e t left
    platform := Function.update b.platform e (b.platform e + (total - net)) }

def dropDispute (b : Book) (e : Symbol) (ticketId : ℕ) : Book :=
  { b with
    dispute := Function.update b.dispute ticketId none
    disputes := Function.update b.disputes e ((b.disputes e).filter (· ≠ ticketId)) }

def sold (b : Book) (e : Symbol) : Symbol → Option EventConfig :=
  Function.update b.config e
    ((b.config e).map fun c => { c with soldCount := c.soldCount + 1 })

def paymentTransfer (self : Address) (p : PaymentRecord) (payer : Address) : Transfer :=
  { token := p.token, src := payer, dst := self, amount := p.amount, eventId := p.eventId,
    purpose := .ticketPayment p.paymentId }

def refundTransfer (self : Address) (p : PaymentRecord) (payer : Address) (amount : ℤ) :
    Transfer :=
  { token := p.token, src := self, dst := payer, amount, eventId := p.eventId,
    purpose := .refund p.paymentId }

/-- The buyer pays the price in; only positive proceeds are paid on to the seller. -/
def recordResale (self : Address) (b : Book) (ticket : Ticket) (t : Address)
    (price proceeds : ℤ) (buyer seller : Address) : Book :=
  let b := b.record
    { token := t, src := buyer, dst := self, amount := price, eventId := ticket.eventId,
      purpose := .resalePrice ticket.ticketId }
  if 0 < proceeds then
    b.record
      { token := t, src := self, dst := seller, amount := proceeds, eventId := ticket.eventId,
        purpose := .resaleProceeds ticket.ticketId }
  else b

/-- The effect of a posting in the book of the contract at address `self`. -/
def post (self : Address) (b : Book) : Posting → Book
  | .start admin token eventContract feeBps =>
    { b with
      admin := some admin, acceptedToken := some token, eventContract := some eventContract
      feeBps }
  | .setFee feeBps => { b with feeBps }
  | .sale p ticket payer =>
    { ((b.record (paymentTransfer self p payer)).putPayment p).addRevenue p.eventId p.token
        p.amount with
      payments := p.paymentId
      tickets := ticket.ticketId
      ticket := Function.update b.ticket ticket.ticketId (some ticket)
      config := b.sold p.eventId
      volume := put b.volume p.eventId p.token (b.volume p.eventId p.token + p.amount)
      totalPayments :=
        Function.update b.totalPayments p.eventId (b.totalPayments p.eventId + p.amount) }
  | .refund p payer amount status =>
    (((b.record (refundTransfer self p payer amount)).putPayment
      { p with refundedAmount := p.refundedAmount + amount, status }).addRevenue p.eventId p.token
        (-amount)).addRefunds p.eventId p.token amount
  | .freeze p d =>
    { (b.putPayment { p with status := .disputed }).addRevenue p.eventId p.token (-p.amount) with
      dispute := Function.update b.dispute d.ticketId (some d)
      disputes := Function.update b.disputes p.eventId (b.disputes p.eventId ++ [d.ticketId]) }
  | .unfreeze p =>
    ((b.putPayment { p with status := .held }).addRevenue p.eventId p.token p.amount).dropDispute
      p.eventId p.paymentId
  | .approve p payer =>
    (((b.record (refundTransfer self p payer (p.amount - p.refundedAmount))).putPayment
      { p with refundedAmount := p.amount, status := .refunded }).addRefunds p.eventId p.token
        (p.amount - p.refundedAmount)).dropDispute p.eventId p.paymentId
  | .payout e t _ total net left dst time =>
    ((b.record
      { token := t, src := self, dst, amount := net, eventId := e, purpose := .revenue }).takeOut
        e t total net left).addWithdrawal e t dst net time
  | .settle e t _ total net left =>
    { b.takeOut e t total net left with
      settlement := Function.update b.settlement e (some { token := t, netDistributable := net }) }
  | .share e recipient dst s amount time =>
    { (b.record
        { token := s.token, src := self, dst, amount, eventId := e,
          purpose := .splitShare recipient }).addWithdrawal e s.token dst amount time with
      splitPaid := put b.splitPaid e recipient amount
      flagged := put b.flagged e recipient false }
  | .sweep e t dst =>
    { b.record
        { token := t, src := self, dst, amount := b.platform e, eventId := e,
          purpose := .platformSweep } with
      withdrawn := put b.withdrawn e t (b.withdrawn e t + b.platform e)
      platform := Function.update b.platform e 0 }
  | .resale ticket t price fee royalty buyer seller =>
    { (recordResale self b ticket t price (price - fee - royalty) buyer seller).addRevenue
        ticket.eventId t royalty with
      platform := Function.update b.platform ticket.eventId (b.platform ticket.eventId + fee) }
  | .handover ticket buyer =>
    { b with
      ticket := Function.update b.ticket ticket.ticketId (some { ticket with owner := some buyer }) }
  | .configure e c => { b with config := Function.update b.config e (some c) }
  | .cancel e c =>
    { b with
      config := Function.update b.config e (some c)
      status := Function.update b.status e (some .cancelled) }
  | .setStatus e status => { b with status := Function.update b.status e (some status) }
  | .setEscrow e escrow => { b with escrow := Function.update b.escrow e (some escrow) }
  | .setSplits e splits => { b with splits := Function.update b.splits e (some splits) }
  | .setFlag e recipient flagged => { b with flagged := put b.flagged e recipient flagged }
  | .bindReceipt p commitment => b.putPayment { p with zkEmailCommitment := some commitment }
  | .outside balances => { b with balances }
  | .recount counters => { b with toCounters := counters }

end Book

end Zicket.Payments
