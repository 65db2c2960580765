import Zicket.Payments.Events
import Zicket.Payments.Storage

/-! Buying a ticket: `create_payment` and the entry points that call it. -/

namespace Zicket.Payments

open Host Foundation

def requireNotPaused (w : World) : Attempt Unit :=
  require (w.isPaused = false) .contractPaused

/-- Exactly one identity representation is stored; a field of another level is rejected. -/
def buildPaymentRecord (env : Env) (params : PaymentParams) (paymentId paidAt : ℕ) :
    Attempt PaymentRecord := do
  let blank : PaymentRecord :=
    { paymentId, eventId := params.eventId, payer := none, hashedWallet := none,
      stealthDeliveryKey := none, nullifierCommitment := none, amount := params.amount,
      token := params.tokenAddress, status := .held, paidAt,
      privacyLevel := params.privacyLevel, refundedAmount := 0,
      zkEmailCommitment := params.zkEmailCommitment }
  match params.privacyLevel with
  | .anonymous =>
    require (params.stealthDeliveryKey = none) .privacyLevelMismatch
    let commitment ← okOr params.nullifierCommitment .missingNullifierCommitment
    return { blank with nullifierCommitment := some commitment }
  | .priv =>
    require (params.nullifierCommitment = none) .privacyLevelMismatch
    let stealthKey ← okOr params.stealthDeliveryKey .missingStealthDeliveryKey
    -- the wallet hash is salted with the stealth key
    let preimage := env.crypto.addressXdr params.payer ++ stealthKey.toList
    return { blank with
      hashedWallet := some (env.crypto.sha256 preimage), stealthDeliveryKey := some stealthKey }
  | .standard =>
    require (params.nullifierCommitment = none ∧ params.stealthDeliveryKey = none)
      .privacyLevelMismatch
    return { blank with payer := some params.payer }

def buildTicket (payment : PaymentRecord) (ticketId : ℕ) : Ticket :=
  { ticketId, eventId := payment.eventId, owner := payment.payer,
    hashedOwner := payment.hashedWallet, nullifierCommitment := payment.nullifierCommitment,
    paymentId := payment.paymentId, privacyLevel := payment.privacyLevel }

def privateWalletHash (env : Env) (payer : Address) : BytesN 32 :=
  env.crypto.sha256 (env.crypto.addressXdr payer)

def validatePaymentPrivacy (w : World) (e : Symbol) (isAnonymous isVerified : Bool) :
    Attempt Unit := do
  let privacy := w.getEventPrivacy e
  require (¬(isAnonymous = true ∧ privacy.allowAnonymous = false)) .anonymousPaymentsDisabled
  require (¬(privacy.requiresVerification = true ∧ isVerified = false)) .verificationRequired

def nonceUsed (env : Env) (w : World) (params : PaymentParams) : Bool :=
  match params.privacyLevel with
  | .standard => w.hasNonce params.payer params.nonce
  | .priv => w.hasNonceHash (privateWalletHash env params.payer) params.nonce
  | .anonymous =>
    match params.nullifierCommitment with
    | some commitment => w.hasNonceHash commitment params.nonce
    | none => false

def ticketsHeldBy (env : Env) (w : World) (params : PaymentParams) : ℕ :=
  match params.privacyLevel with
  | .standard => w.getUserEventTickets params.eventId params.payer
  | .priv => w.getUserEventTicketsHash params.eventId (privateWalletHash env params.payer)
  | .anonymous => 0

/-- Supply and per-user limits, checked only when the event has a configuration. -/
def checkSaleLimits (env : Env) (w : World) (params : PaymentParams) : Attempt Unit :=
  match w.getEventConfig params.eventId with
  | none => return
  | some config => do
    require (¬(0 < config.maxSupply ∧ config.maxSupply ≤ config.soldCount)) .eventSoldOut
    require (¬(0 < config.maxTicketsPerUser ∧
      config.maxTicketsPerUser ≤ ticketsHeldBy env w params)) .maxTicketsReached

def saleOpen : Option EventStatus → Bool
  | some .completed | some .cancelled | some .postponed => false
  | _ => true

/-- An Anonymous payment spends its commitment. -/
def spendNullifier (w : World) (payment : PaymentRecord) : Attempt World :=
  match payment.nullifierCommitment with
  | none => return w
  | some commitment => do
    require (w.hasNullifier commitment = false) .duplicateRequest
    return w.markNullifierSpent commitment

def indexPayer (w : World) (params : PaymentParams) (payment : PaymentRecord) : Attempt World :=
  if payment.privacyLevel = .standard then w.addPayerPayment params.payer payment.paymentId
  else return w

def recordNonce (env : Env) (w : World) (params : PaymentParams) (payment : PaymentRecord) :
    World :=
  match params.privacyLevel with
  | .standard => w.setNonce params.payer params.nonce
  | .priv => w.setNonceHash (privateWalletHash env params.payer) params.nonce
  | .anonymous =>
    match payment.nullifierCommitment with
    | some commitment => w.setNonceHash commitment params.nonce
    | none => w

def indexOwner (w : World) (params : PaymentParams) (payment : PaymentRecord) (ticketId : ℕ) :
    Attempt World :=
  if payment.privacyLevel = .standard then w.addOwnerTicketMap params.payer ticketId
  else return w

def countUserTicket (env : Env) (w : World) (params : PaymentParams) : Attempt World :=
  match params.privacyLevel with
  | .standard => w.incrementUserEventTickets params.eventId params.payer
  | .priv =>
    w.incrementUserEventTicketsHash params.eventId (privateWalletHash env params.payer)
  | .anonymous => return w

def countSale (w : World) (e : Symbol) : Attempt World :=
  if (w.getEventConfig e).isSome then w.incrementEventSoldCount e else return w

/-- `try_transfer`: a refused transfer is the contract's own error. -/
def tryTransfer (w : World) (tr : Transfer) : Attempt World :=
  match w.transfer tr with
  | .ok w => .ok w
  | .error _ => fail .transferFailed

def emitReceipt (env : Env) (w : World) (params : PaymentParams) (paymentId : ℕ) : World :=
  match params.emailHash with
  | some hash => w.emitPaymentReceiptRequested env paymentId params.eventId (some hash)
  | none => w

def createPayment (env : Env) (params : PaymentParams) (w : World) : Attempt (ℕ × World) := do
  requireAuth env params.payer
  requireNotPaused w
  require (params.nonce ≠ 0) .nonceRequired
  require (nonceUsed env w params = false) .duplicateRequest
  require (0 < params.amount) .invalidAmount
  validatePaymentPrivacy w params.eventId params.isAnonymous params.isVerified
  checkSaleLimits env w params
  require (saleOpen (w.getEventStatus params.eventId) = true) .eventNotActive
  require (w.isSupportedToken params.tokenAddress = true) .invalidPayoutToken
  -- the id is allotted after the transfer; the log entry names it
  let w ← tryTransfer w
    { token := params.tokenAddress, src := params.payer, dst := env.currentContract,
      amount := params.amount, eventId := params.eventId,
      purpose := .ticketPayment ((w.get .nextPaymentId).getD 0 + 1) }
  let (paymentId, w) ← w.getNextPaymentId
  let payment ← buildPaymentRecord env params paymentId env.timestamp
  let w ← spendNullifier w payment
  let w ← w.savePayment payment
  let w ← w.addEventPayment params.eventId paymentId
  let w ← indexPayer w params payment
  let w := recordNonce env w params payment
  let w ← w.addEventRevenue params.eventId params.amount
  let w ← w.addEventTokenRevenue params.eventId params.tokenAddress params.amount
  let w ← w.addEventToken params.eventId params.tokenAddress
  let w ← w.addTotalPayments params.eventId params.amount
  let w ← w.addTotalTokenVolume params.eventId params.tokenAddress params.amount
  let w := emitReceipt env (w.emitPaymentReceived payment) params paymentId
  let (ticketId, w) ← w.getNextTicketId
  let ticket := buildTicket payment ticketId
  let w ← w.saveTicket ticket
  let w ← indexOwner w params payment ticketId
  let w ← countUserTicket env w params
  let w ← countSale w params.eventId
  return (paymentId, w.emitTicketIssued env ticket)

def payForTicket (env : Env) (nonce : ℕ) (payer : Address) (eventId : Symbol) (amount : ℤ)
    (emailHash : Option (BytesN 32)) (tokenAddress : Address) (privacyLevel : PaymentPrivacy)
    (nullifierCommitment stealthDeliveryKey : Option (BytesN 32)) (w : World) :
    Attempt (ℕ × World) :=
  createPayment env
    { nonce, payer, eventId, amount, tokenAddress, isAnonymous := false, isVerified := false,
      privacyLevel, emailHash, zkEmailCommitment := none, nullifierCommitment,
      stealthDeliveryKey } w

def payForTicketWithCommitment (env : Env) (nonce : ℕ) (payer : Address) (eventId : Symbol)
    (amount : ℤ) (emailHash : Option (BytesN 32)) (tokenAddress : Address)
    (privacyLevel : PaymentPrivacy) (zkEmailCommitment : Option (BytesN 32)) (w : World) :
    Attempt (ℕ × World) :=
  createPayment env
    { nonce, payer, eventId, amount, tokenAddress, isAnonymous := false, isVerified := false,
      privacyLevel, emailHash, zkEmailCommitment, nullifierCommitment := none,
      stealthDeliveryKey := none } w

def payForTicketWithOptions (env : Env) (nonce : ℕ) (payer : Address) (eventId : Symbol)
    (amount : ℤ) (tokenAddress : Address) (isAnonymous isVerified : Bool) (w : World) :
    Attempt (ℕ × World) :=
  createPayment env
    { nonce, payer, eventId, amount, tokenAddress, isAnonymous, isVerified,
      privacyLevel := .standard, emailHash := none, zkEmailCommitment := none,
      nullifierCommitment := none, stealthDeliveryKey := none } w

end Zicket.Payments
