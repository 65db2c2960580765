import Zicket.Foundation.BasisPoints
import Zicket.Foundation.Run
import Zicket.Escrow.Book
import Zicket.Payments.Splits

/-! When the contract may write a posting. `Sound` collects, entry by entry, what the
operations of the contract have checked before they write it; every invariant of the
book is derived from it and from `Book.post` alone. -/

namespace Zicket.Payments

open Host Foundation

def PaymentRecord.Identified (p : PaymentRecord) : Prop :=
  match p.privacyLevel with
  | .standard => p.payer.isSome ∧ p.hashedWallet = none ∧ p.stealthDeliveryKey = none ∧
      p.nullifierCommitment = none
  | .priv => p.payer = none ∧ p.hashedWallet.isSome ∧ p.stealthDeliveryKey.isSome ∧
      p.nullifierCommitment = none
  | .anonymous => p.payer = none ∧ p.hashedWallet = none ∧ p.stealthDeliveryKey = none ∧
      p.nullifierCommitment.isSome

namespace Book

variable (b : Book)

def primary (e : Symbol) : Option Address := (b.splits e).bind (·.head?.map (·.recipient))

/-- The basis points of a payment that its payer gets back once the event is cancelled. -/
def refundRatio (e : Symbol) : ℕ :=
  10000 - ((b.config e).bind (·.withdrawableRatioBps)).getD 0

/-- The ratio by which a payout takes a pool instead of the whole revenue. -/
def pool (e : Symbol) : Option ℕ :=
  if b.status e = some .cancelled then (b.config e).bind (·.withdrawableRatioBps) else none

/-- A payout takes the whole revenue, or the organizer's ratio of a cancelled event's
gross volume; of the latter, ratio 10000 still clears the revenue. -/
def Takes (e : Symbol) (t : Address) (pool : Option ℕ) (total left : ℤ) : Prop :=
  match pool with
  | none => total = b.revenue e t ∧ left = 0
  | some r => b.pool e = some r ∧ b.disputes e = [] ∧ total = bpsOf (b.volume e t) r ∧
    left = if r = 10000 then 0 else b.revenue e t - total

/-- What a payout keeps back for the platform is the current fee, in the accepted token. -/
def Nets (t : Address) (total net : ℤ) : Prop :=
  net = total ∨ (b.acceptedToken = some t ∧ net = total - bpsOf total b.feeBps)

structure SaleSound (p : PaymentRecord) (ticket : Ticket) (payer : Address) : Prop where
  next : p.paymentId = b.payments + 1
  fresh : b.payment p.paymentId = none
  ticket : ticket = buildTicket p (b.tickets + 1)
  held : p.status = .held
  unrefunded : p.refundedAmount = 0
  positive : 0 < p.amount
  identified : p.Identified
  payer : p.privacyLevel = .standard → p.payer = some payer
  sellable : saleOpen (b.status p.eventId) = true

structure RefundSound (p : PaymentRecord) (payer : Address) (amount : ℤ)
    (status : PaymentStatus) : Prop where
  stored : b.payment p.paymentId = some p
  payer : p.payer = some payer
  held : p.status = .held
  positive : 0 < amount
  covered : p.refundedAmount + amount ≤ p.amount
  status : status = .refunded ∨ (status = .held ∧ p.refundedAmount + amount < p.amount)
  share : b.status p.eventId = some .cancelled →
    p.refundedAmount + amount ≤ bpsOf p.amount (b.refundRatio p.eventId)

structure FreezeSound (p : PaymentRecord) (d : DisputeRecord) : Prop where
  stored : b.payment p.paymentId = some p
  held : p.status = .held
  ticket : d.ticketId = p.paymentId
  payment : d.paymentId = p.paymentId
  event : d.eventId = p.eventId

structure DisputedSound (p : PaymentRecord) : Prop where
  stored : b.payment p.paymentId = some p
  disputed : p.status = .disputed

structure PayoutSound (e : Symbol) (t : Address) (pool : Option ℕ) (total net left : ℤ) :
    Prop where
  whole : b.splits e = none
  available : 0 < b.revenue e t
  positive : 0 < total
  nonneg : 0 ≤ net
  takes : b.Takes e t pool total left
  nets : b.Nets t total net

structure SettleSound (e : Symbol) (t : Address) (pool : Option ℕ) (total net left : ℤ) :
    Prop where
  unsettled : b.settlement e = none
  split : (b.splits e).isSome
  accepted : b.acceptedToken = some t
  undisputed : b.disputes e = []
  positive : 0 < total
  distributable : 0 < net
  takes : b.Takes e t pool total left
  net : net = total - bpsOf total b.feeBps

structure ShareSound (e : Symbol) (recipient dst : Address) (s : SplitSettlement) (amount : ℤ) :
    Prop where
  settled : b.settlement e = some s
  listed : findSplitBps ((b.splits e).getD []) recipient ≠ none
  share : recipientShare ((b.splits e).getD []) recipient s.netDistributable = .ok amount
  positive : 0 < amount
  unpaid : b.splitPaid e recipient ≤ 0
  dst : (b.flagged e recipient = false ∧ dst = recipient) ∨
    (b.flagged e recipient = true ∧ b.primary e = some dst)

structure ResaleSound (ticket : Ticket) (t : Address) (price fee royalty : ℤ)
    (seller : Address) : Prop where
  stored : b.ticket ticket.ticketId = some ticket
  owner : ticket.owner = some seller
  positive : 0 < price
  config : ∃ c, b.config ticket.eventId = some c ∧ c.payoutToken = t ∧
    royalty = bpsOf price c.resaleRoyaltyBps
  fee : fee = bpsOf price b.feeBps

/-- A rewritten configuration keeps what a cancellation stored, and the latch. -/
structure ConfigureSound (e : Symbol) (c : EventConfig) : Prop where
  accepted : b.acceptedToken = some c.payoutToken
  ratio : c.withdrawableRatioBps = (b.config e).bind (·.withdrawableRatioBps)
  latch : ∀ old, b.config e = some old → old.organizerWithdrawn = true →
    c.organizerWithdrawn = true

structure CancelSound (e : Symbol) (c : EventConfig) : Prop where
  config : ∃ old, b.config e = some old ∧
    c = { old with cancelLedger := c.cancelLedger, withdrawableRatioBps := c.withdrawableRatioBps }
  ratio : ∃ r, c.withdrawableRatioBps = some r ∧ r ≤ 10000

/-- A split list as `sync_revenue_splits` accepts it. -/
structure ValidSplits (splits : List RevenueSplit) : Prop where
  nonempty : splits ≠ []
  positive : ∀ split ∈ splits, split.basisPoints ≠ 0
  distinct : (splits.map (·.recipient)).Nodup
  total : (splits.map (·.basisPoints)).sum = 10000

def Sound (self : Address) (b : Book) : Posting → Prop
  | .start _ _ _ feeBps =>
    b.admin = none ∧ b.acceptedToken = none ∧ b.eventContract = none ∧ feeBps ≤ 10000
  | .setFee feeBps => feeBps ≤ 10000
  | .sale p ticket payer => b.SaleSound p ticket payer
  | .refund p payer amount status => b.RefundSound p payer amount status
  | .freeze p d => b.FreezeSound p d
  | .unfreeze p => b.DisputedSound p
  | .approve p payer => b.DisputedSound p ∧ p.payer = some payer
  | .payout e t pool total net left _ _ => b.PayoutSound e t pool total net left
  | .settle e t pool total net left => b.SettleSound e t pool total net left
  | .share e recipient dst s amount _ => b.ShareSound e recipient dst s amount
  | .sweep e t _ => 0 < b.platform e ∧ b.acceptedToken = some t
  | .resale ticket t price fee royalty _ seller => b.ResaleSound ticket t price fee royalty seller
  | .handover ticket _ => b.ticket ticket.ticketId = some ticket ∧ ticket.owner.isSome
  | .configure e c => b.ConfigureSound e c
  | .cancel e c => b.CancelSound e c
  | .setStatus _ _ => True
  | .setEscrow _ _ => True
  | .setSplits e splits => b.splits e = none ∧ ValidSplits splits
  | .setFlag e recipient flagged => flagged = true →
    b.splitPaid e recipient ≤ 0 ∧ (b.primary e).isSome ∧ b.primary e ≠ some recipient
  | .bindReceipt p _ => b.payment p.paymentId = some p
  | .outside balances => ∀ t, b.balances t self ≤ balances t self
  | .recount counters =>
    counters.history = b.history ∧ (b.toCounters.Bounded → counters.Bounded)

end Book

end Zicket.Payments
