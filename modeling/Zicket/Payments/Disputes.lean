import Zicket.Payments.Purchase

/-! Disputes: raising, approving and rejecting one, and the sweep that returns
disputed payments to `Held` once the timeout has passed. -/

namespace Zicket.Payments

open Host Foundation

def disputeExpired (env : Env) (dispute : DisputeRecord) : Bool :=
  saturatingAdd dispute.raisedAtLedger disputeTimeoutLedgers ≤ env.sequence

section Expiry

variable {env : Env} {stored : Option DisputeRecord} {dispute : DisputeRecord}

-- stated once, so that no proof evaluates the timeout

theorem any_expired (found : stored = some dispute) (expired : disputeExpired env dispute = true) :
    stored.any (disputeExpired env) = true := by
  rw [found, Option.any_some, expired]

theorem any_waiting (found : stored = some dispute) (waits : disputeExpired env dispute = false) :
    ¬ stored.any (disputeExpired env) = true := by
  rw [found, Option.any_some, waits]
  exact Bool.false_ne_true

end Expiry

/-- A disputed payment goes back to `Held` and its amount back to the event's revenue. -/
def returnDisputed (w : World) (e : Symbol) (paymentId : ℕ) : Attempt World :=
  match w.get (.payment paymentId) with
  | none => return w
  | some payment =>
    if payment.status = .disputed then do
      let w ← w.updatePayment { payment with status := .held }
      let w ← w.shiftEventRevenue e payment.amount
      let tokenRev := w.getEventTokenRevenue e payment.token
      return w.setEventTokenRevenue e payment.token (← i128 (tokenRev + payment.amount))
    else return w

/-- The loop of `process_timed_out_disputes` over the listed tickets: it returns the
tickets that remain and whether any dispute was removed. -/
def sweepDisputes (env : Env) (e : Symbol) : List ℕ → World → Attempt (List ℕ × Bool × World)
  | [], w => return ([], false, w)
  | ticketId :: rest, w =>
    match w.getDispute ticketId with
    | none => sweepDisputes env e rest w
    | some dispute =>
      if disputeExpired env dispute = true then do
        let w ← returnDisputed w e dispute.paymentId
        let w := (w.removeDispute ticketId).emitDisputeTimedOut env e ticketId
        let (remaining, _, w) ← sweepDisputes env e rest w
        return (remaining, true, w)
      else do
        let (remaining, modified, w) ← sweepDisputes env e rest w
        return (ticketId :: remaining, modified, w)

section Steps

variable {env : Env} {e : Symbol} {ticketId : ℕ} {rest : List ℕ} {w : World}
  {dispute : DisputeRecord}

theorem sweepDisputes_expired (found : w.getDispute ticketId = some dispute)
    (expired : disputeExpired env dispute = true) :
    sweepDisputes env e (ticketId :: rest) w = (do
      let w ← returnDisputed w e dispute.paymentId
      let w := (w.removeDispute ticketId).emitDisputeTimedOut env e ticketId
      let (remaining, _, w) ← sweepDisputes env e rest w
      return (remaining, true, w)) := by
  rw [sweepDisputes, found]
  exact if_pos expired

theorem sweepDisputes_waiting (found : w.getDispute ticketId = some dispute)
    (waits : disputeExpired env dispute = false) :
    sweepDisputes env e (ticketId :: rest) w = (do
      let (remaining, modified, w) ← sweepDisputes env e rest w
      return (ticketId :: remaining, modified, w)) := by
  rw [sweepDisputes, found]
  exact if_neg (Bool.not_eq_true _ ▸ waits)

end Steps

def processTimedOutDisputes (env : Env) (e : Symbol) (w : World) : Attempt World := do
  let (remaining, modified, w) ← sweepDisputes env e (w.getEventDisputes e) w
  return if modified then w.setEventDisputes e remaining else w

/-- The pooled balance of a token covers what the event's own counters say it holds. -/
def checkTokenBalance (env : Env) (w : World) (e : Symbol) (t : Address) : Attempt Unit := do
  let unrefunded ← i128 (w.getTotalTokenVolume e t - w.getTotalTokenRefunds e t)
  let expected ← i128 (unrefunded - w.getTotalTokenWithdrawn e t)
  require (expected ≤ w.balances t env.currentContract) .revenueInvariantViolated

def validateRevenueInvariant (env : Env) (e : Symbol) (w : World) : Attempt World := do
  let w ← processTimedOutDisputes env e w
  (w.getEventTokens e).forM (checkTokenBalance env w e)
  return w

/-- The ticket's owner, its nullifier preimage or its stealth key authorizes a dispute. -/
def authorizeDispute (env : Env) (w : World) (ticket : Ticket) (ticketId : ℕ)
    (proof : Option Bytes) : Attempt Unit :=
  match ticket.privacyLevel with
  | .standard => do
    let owner ← okOr ticket.owner .unauthorized
    requireAuth env owner
  | .anonymous => do
    let preimage ← okOr proof .unauthorized
    require (some (env.crypto.sha256 preimage) = ticket.nullifierCommitment) .unauthorized
  | .priv => do
    let signature ← okOr proof .unauthorized
    let payment ← w.getPayment ticket.paymentId
    let pubKey ← okOr payment.stealthDeliveryKey .unauthorized
    if h : signature.length = 64 then
      let sigBytes : BytesN 64 := ⟨signature.toArray, by simp [h]⟩
      ensure (env.crypto.ed25519Verify pubKey (env.crypto.u64Xdr ticketId) sigBytes = true) .trap
    else fail .unauthorized

def raiseDispute (env : Env) (ticketId reasonCode : ℕ) (proof : Option Bytes) (w : World) :
    Attempt World := do
  requireNotPaused w
  require (reasonCode ≤ 2) .invalidDisputeReason
  let ticket ← w.getTicket ticketId
  authorizeDispute env w ticket ticketId proof
  let config ← okOr (w.getEventConfig ticket.eventId) .invalidOrganizer
  require (config.eventEndLedger ≤ env.sequence) .disputeWindowClosed
  require (env.sequence < saturatingAdd config.eventEndLedger attendeeDisputeWindowLedgers)
    .disputeWindowClosed
  require (w.getDispute ticketId = none) .disputeAlreadyExists
  let payment ← w.getPayment ticket.paymentId
  require (payment.status = .held) .paymentAlreadyProcessed
  let payment := { payment with status := .disputed }
  let w ← w.updatePayment payment
  let w ← w.shiftEventRevenue ticket.eventId (-payment.amount)
  let tokenRev := w.getEventTokenRevenue ticket.eventId payment.token
  let w := w.setEventTokenRevenue ticket.eventId payment.token
    (← i128 (tokenRev - payment.amount))
  let w := w.setDispute ticketId
    { ticketId, eventId := ticket.eventId, paymentId := payment.paymentId, reasonCode,
      raisedAtLedger := env.sequence }
  let w := w.setEventDisputes ticket.eventId (w.getEventDisputes ticket.eventId ++ [ticketId])
  return w.emitDisputeRaised env ticket.eventId ticketId payment.paymentId reasonCode

/-- Drop the dispute record and the ticket's entry in the event's dispute list. -/
def closeDispute (w : World) (dispute : DisputeRecord) (ticketId : ℕ) : World :=
  let w := w.removeDispute ticketId
  w.setEventDisputes dispute.eventId
    ((w.getEventDisputes dispute.eventId).filter (· ≠ ticketId))

def approveRefund (env : Env) (ticketId : ℕ) (w : World) : Attempt World := do
  requireNotPaused w
  let admin ← w.getAdmin
  requireAuth env admin
  let dispute ← okOr (w.getDispute ticketId) .disputeNotFound
  require (disputeExpired env dispute = false) .disputeExpired
  let payment ← w.getPayment dispute.paymentId
  require (payment.status = .disputed) .paymentAlreadyProcessed
  let remaining ← i128 (payment.amount - payment.refundedAmount)
  let refundTo ← okOr payment.payer .refundNotAllowed
  let w ← w.transfer
    { token := payment.token, src := env.currentContract, dst := refundTo, amount := remaining,
      eventId := payment.eventId, purpose := .refund payment.paymentId }
  let payment :=
    { payment with
      refundedAmount := ← i128 (payment.refundedAmount + remaining), status := .refunded }
  let w ← w.updatePayment payment
  let w ← w.addTotalRefunds dispute.eventId remaining
  let w ← w.addTotalTokenRefunds dispute.eventId payment.token remaining
  let w := closeDispute w dispute ticketId
  return w.emitDisputeResolved env dispute.eventId ticketId true

def rejectDispute (env : Env) (ticketId : ℕ) (w : World) : Attempt World := do
  requireNotPaused w
  let admin ← w.getAdmin
  requireAuth env admin
  let dispute ← okOr (w.getDispute ticketId) .disputeNotFound
  let payment ← w.getPayment dispute.paymentId
  require (payment.status = .disputed) .paymentAlreadyProcessed
  let payment := { payment with status := .held }
  let w ← w.updatePayment payment
  let w ← w.shiftEventRevenue dispute.eventId payment.amount
  let tokenRev := w.getEventTokenRevenue dispute.eventId payment.token
  let w := w.setEventTokenRevenue dispute.eventId payment.token
    (← i128 (tokenRev + payment.amount))
  let w := closeDispute w dispute ticketId
  return w.emitDisputeResolved env dispute.eventId ticketId false

end Zicket.Payments
