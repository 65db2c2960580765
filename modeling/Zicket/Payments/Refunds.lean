import Zicket.Payments.Purchase

/-! The three refunds that are not dispute approvals: by the admin, by the payer of a
cancelled event, and by the holder of a ticket to a postponed event. -/

namespace Zicket.Payments

open Host Foundation

def requireAdmin (env : Env) (w : World) (admin : Address) : Attempt Unit := do
  let storedAdmin ← w.getAdmin
  require (admin = storedAdmin) .unauthorized
  requireAuth env admin

/-- `amount * bps / 10_000` on `i128`: the product is checked, the quotient truncates. -/
def basisPointsOf (amount : ℤ) (bps : ℕ) : Attempt ℤ := do
  let product ← i128 (amount * bps)
  return product.tdiv 10000

/-- The refund share of a payment when `ratio` basis points go to the organizer. -/
def refundable (amount : ℤ) (ratio : ℕ) : Attempt ℤ := do
  let refundRatio ← u32Sub 10000 ratio
  basisPointsOf amount refundRatio

/-- Only a payment with an on-chain payer has somewhere to send the refund. -/
def sendRefund (env : Env) (w : World) (payment : PaymentRecord) (refundAmt : ℤ) :
    Option Address → Attempt World
  | none => return w
  | some refundTo =>
    w.transfer
      { token := payment.token, src := env.currentContract, dst := refundTo,
        amount := refundAmt, eventId := payment.eventId, purpose := .refund payment.paymentId }

/-- Pay `refundAmt` of a payment back and book it; `settled` is the record afterwards. -/
def payRefund (env : Env) (w : World) (payment settled : PaymentRecord) (refundTo : Option Address)
    (refundAmt : ℤ) : Attempt World := do
  let w ← sendRefund env w payment refundAmt refundTo
  let w ← w.updatePayment settled
  let w ← w.shiftEventRevenue payment.eventId (-refundAmt)
  let tokenRevenue := w.getEventTokenRevenue payment.eventId payment.token
  let w := w.setEventTokenRevenue payment.eventId payment.token
    (← i128 (tokenRevenue - refundAmt))
  let w ← w.addTotalRefunds payment.eventId refundAmt
  let w ← w.addTotalTokenRefunds payment.eventId payment.token refundAmt
  return w.emitPaymentRefunded env settled refundAmt

/-- The admin refund is closed once the organizer took everything, or after auto-release. -/
def refundLatched (w : World) (e : Symbol) : Bool :=
  (match w.getEventConfig e with
    | some config => config.organizerWithdrawn && config.withdrawableRatioBps.getD 10000 == 10000
    | none => false) ||
  (match w.get (.escrowMeta e) with
    | some escrow => escrow.autoReleased
    | none => false)

def maxRefund (w : World) (payment : PaymentRecord) : Attempt ℤ :=
  if w.getEventStatus payment.eventId = some .cancelled then do
    let ratio := ((w.getEventConfig payment.eventId).bind (·.withdrawableRatioBps)).getD 0
    let totalRefundable ← refundable payment.amount ratio
    i128 (totalRefundable - payment.refundedAmount)
  else i128 (payment.amount - payment.refundedAmount)

def refund (env : Env) (admin : Address) (paymentId : ℕ) (amount : Option ℤ) (w : World) :
    Attempt World := do
  requireNotPaused w
  requireAdmin env w admin
  let payment ← w.getPayment paymentId
  require (payment.privacyLevel = .standard) .refundNotAllowed
  require (payment.status ≠ .refunded) .paymentAlreadyRefunded
  require (payment.status = .held) .paymentAlreadyProcessed
  require (refundLatched w payment.eventId = false) .paymentAlreadyProcessed
  let maximum ← maxRefund w payment
  let refundAmt := amount.getD maximum
  require (0 < refundAmt ∧ refundAmt ≤ maximum) .invalidAmount
  let refunded ← i128 (payment.refundedAmount + refundAmt)
  let status := if refunded = payment.amount then .refunded else payment.status
  payRefund env w payment { payment with refundedAmount := refunded, status } payment.payer
    refundAmt

def claimRefund (env : Env) (payer : Address) (paymentId : ℕ) (w : World) : Attempt World := do
  requireAuth env payer
  let payment ← w.getPayment paymentId
  let storedPayer ← okOr payment.payer .refundNotAllowed
  require (storedPayer = payer) .unauthorized
  require (payment.status = .held) .paymentAlreadyProcessed
  require (w.getEventStatus payment.eventId = some .cancelled) .eventNotActive
  let ratio := ((w.getEventConfig payment.eventId).bind (·.withdrawableRatioBps)).getD 0
  let refundRatio : ℕ ← u32Sub 10000 ratio
  require (refundRatio ≠ 0) .noRevenue
  let maximum ← basisPointsOf payment.amount refundRatio
  let remaining ← i128 (maximum - payment.refundedAmount)
  require (0 < remaining) .invalidAmount
  let refunded ← i128 (payment.refundedAmount + remaining)
  payRefund env w payment { payment with refundedAmount := refunded, status := .refunded }
    (some storedPayer) remaining

def requestPostponementRefund (env : Env) (caller : Address) (ticketId : ℕ) (w : World) :
    Attempt World := do
  requireNotPaused w
  let eventContract ← w.getEventContract
  requireAuth env eventContract
  let ticket ← w.getTicket ticketId
  let ticketOwner ← okOr ticket.owner .refundNotAllowed
  require (ticketOwner = caller) .unauthorized
  let payment ← w.getPayment ticket.paymentId
  let refundRecipient ← okOr payment.payer .refundNotAllowed
  require (payment.status ≠ .refunded) .paymentAlreadyRefunded
  require (payment.status = .held) .paymentAlreadyProcessed
  require (w.getEventStatus payment.eventId = some .postponed) .eventNotPostponed
  let deadline ← okOr (w.getPostponeDeadline payment.eventId) .eventNotPostponed
  require (env.sequence ≤ deadline) .postponementWindowClosed
  let refundAmt ← i128 (payment.amount - payment.refundedAmount)
  require (0 < refundAmt) .invalidAmount
  let refunded ← i128 (payment.refundedAmount + refundAmt)
  payRefund env w payment { payment with refundedAmount := refunded, status := .refunded }
    (some refundRecipient) refundAmt

end Zicket.Payments
