import Zicket.Payments.Withdrawals

/-! Administration: initialization, the admin's switches, what the event contract
pushes, receipt commitments and migration. -/

namespace Zicket.Payments

open Host Foundation

/-- `initialize`: a second call succeeds and changes nothing. -/
def initializeContract (admin token : Address) (platformFeeBps : ℕ)
    (platformWallet eventContract : Address) (w : World) : Attempt World :=
  if w.isInitialized then return w else do
    require (platformFeeBps ≤ 10000) .invalidFeeBps
    let w := (w.setAdmin admin).setAcceptedToken token
    let w := (w.setPlatformFeeBps platformFeeBps).setPlatformWallet platformWallet
    return w.setEventContract eventContract

def addSupportedToken (env : Env) (admin token : Address) (w : World) : Attempt World := do
  requireAuth env admin
  let currentAdmin ← w.getAdmin
  require (currentAdmin = admin) .unauthorized
  return w.addSupportedToken token

def setPaused (env : Env) (admin : Address) (paused : Bool) (w : World) : Attempt World := do
  requireAdmin env w admin
  return w.setPaused paused

def setEventStatus (env : Env) (admin : Address) (e : Symbol) (status : EventStatus) (w : World) :
    Attempt World := do
  requireNotPaused w
  requireAdmin env w admin
  return w.setEventStatus e status

def requireEventContract (env : Env) (w : World) (eventContract : Address) : Attempt Unit := do
  let storedContract ← w.getEventContract
  require (eventContract = storedContract) .unauthorized
  requireAuth env eventContract

def syncEventPrivacy (env : Env) (eventContract : Address) (e : Symbol)
    (allowAnonymous requiresVerification : Bool) (w : World) : Attempt World := do
  requireNotPaused w
  requireEventContract env w eventContract
  return w.setEventPrivacy e { allowAnonymous, requiresVerification }

/-- The arguments of `sync_event_config` beside the caller and the event. -/
structure EventTerms where
  organizer : Address
  payoutToken : Address
  allowAnonymous : Bool
  requiresVerification : Bool
  maxTicketsPerUser : ℕ
  maxSupply : ℕ
  eventStartLedger : ℕ
  eventEndLedger : ℕ
  withdrawalDelayLedgers : ℕ
  resaleRoyaltyBps : ℕ
  maxResalePrice : Option ℤ
  allowFreeTicketTransfer : Bool

/-- The stored configuration: the pushed terms, and what only this contract writes. -/
def EventTerms.toConfig (terms : EventTerms) (soldCount adminDelay : ℕ)
    (cancelLedger ratio : Option ℕ) (organizerWithdrawn : Bool) : EventConfig :=
  { organizer := terms.organizer, payoutToken := terms.payoutToken,
    allowAnonymous := terms.allowAnonymous, requiresVerification := terms.requiresVerification,
    maxTicketsPerUser := terms.maxTicketsPerUser, maxSupply := terms.maxSupply, soldCount,
    eventStartLedger := terms.eventStartLedger, eventEndLedger := terms.eventEndLedger,
    withdrawalDelayLedgers := terms.withdrawalDelayLedgers,
    adminDelayExtensionLedgers := adminDelay, cancelLedger, withdrawableRatioBps := ratio,
    organizerWithdrawn, resaleRoyaltyBps := terms.resaleRoyaltyBps,
    maxResalePrice := terms.maxResalePrice,
    allowFreeTicketTransfer := terms.allowFreeTicketTransfer }

def syncEventConfig (env : Env) (eventContract : Address) (e : Symbol) (terms : EventTerms)
    (w : World) : Attempt World := do
  requireNotPaused w
  requireEventContract env w eventContract
  let acceptedToken ← w.getAcceptedToken
  require (terms.payoutToken = acceptedToken) .invalidPayoutToken
  match w.getEventConfig e with
  | none => return w.setEventConfig e (terms.toConfig 0 0 none none false)
  | some existing =>
    require (existing.organizer = terms.organizer) .invalidOrganizer
    require (existing.payoutToken = terms.payoutToken) .invalidPayoutToken
    return w.setEventConfig e (terms.toConfig existing.soldCount
      existing.adminDelayExtensionLedgers existing.cancelLedger existing.withdrawableRatioBps
      existing.organizerWithdrawn)

def extendWithdrawalDelay (env : Env) (admin : Address) (e : Symbol) (additionalLedgers : ℕ)
    (w : World) : Attempt World := do
  requireAdmin env w admin
  let config ← okOr (w.getEventConfig e) .invalidOrganizer
  let extension ← u32 (config.adminDelayExtensionLedgers + additionalLedgers)
  return w.setEventConfig e { config with adminDelayExtensionLedgers := extension }

/-- The elapsed part of the event in basis points; both differences are guarded. -/
def cancellationRatio (config : EventConfig) (currentLedger : ℕ) : ℕ :=
  if currentLedger < config.eventStartLedger then 0
  else if config.eventEndLedger ≤ currentLedger then 10000
  else
    let elapsed := currentLedger - config.eventStartLedger
    let total := config.eventEndLedger - config.eventStartLedger
    if total = 0 then 10000 else elapsed * 10000 / total % 2 ^ 32

/-- The stored configuration of an event whose organizer the caller names. -/
def organizedConfig (env : Env) (w : World) (e : Symbol) (organizer : Address) :
    Attempt EventConfig := do
  let eventContract ← w.getEventContract
  requireAuth env eventContract
  let config ← okOr (w.getEventConfig e) .invalidOrganizer
  require (config.organizer = organizer) .unauthorized
  return config

def cancelEvent (env : Env) (e : Symbol) (organizer : Address) (w : World) : Attempt World := do
  let config ← organizedConfig env w e organizer
  let w := w.setEventConfig e
    { config with
      cancelLedger := some env.sequence,
      withdrawableRatioBps := some (cancellationRatio config env.sequence) }
  return w.setEventStatus e .cancelled

def postponeEvent (env : Env) (e : Symbol) (organizer : Address) (choiceDeadlineLedger : ℕ)
    (w : World) : Attempt World := do
  requireNotPaused w
  let _ ← organizedConfig env w e organizer
  return (w.setEventStatus e .postponed).setPostponeDeadline e choiceDeadlineLedger

def resumeEvent (env : Env) (e : Symbol) (organizer : Address) (w : World) : Attempt World := do
  requireNotPaused w
  let _ ← organizedConfig env w e organizer
  require (w.getEventStatus e = some .postponed) .eventNotPostponed
  return (w.setEventStatus e .active).removePostponeDeadline e

def setEventEndTime (env : Env) (admin : Address) (e : Symbol) (organizer : Address)
    (eventEndTime : ℕ) (w : World) : Attempt World := do
  requireNotPaused w
  requireAdmin env w admin
  return w.setEscrowMeta e { organizer, eventEndTime, autoReleased := false }

def setPlatformFee (env : Env) (feeBps : ℕ) (wallet : Address) (w : World) : Attempt World := do
  requireNotPaused w
  let admin ← w.getAdmin
  requireAuth env admin
  require (feeBps ≤ 10000) .invalidFeeBps
  let oldBps := w.getPlatformFeeBps
  let w := (w.setPlatformFeeBps feeBps).setPlatformWallet wallet
  return w.emitPlatformFeeUpdated env admin oldBps feeBps

def setEventPrivacy (env : Env) (admin : Address) (e : Symbol) (level : PrivacyLevel)
    (w : World) : Attempt World := do
  requireNotPaused w
  requireAdmin env w admin
  return w.setEmissionPrivacy e level

def setTicketContract (env : Env) (admin ticketContract : Address) (w : World) :
    Attempt World := do
  requireAdmin env w admin
  return w.setTicketContract ticketContract

def bindEmailCommitment (env : Env) (payer : Address) (paymentId : ℕ) (commitment : BytesN 32)
    (w : World) : Attempt World := do
  requireNotPaused w
  requireAuth env payer
  let payment ← w.getPayment paymentId
  require (payment.payer = some payer) .unauthorized
  require (payment.status ≠ .refunded) .commitmentNotAllowed
  require (payment.zkEmailCommitment = none) .commitmentAlreadySet
  let w ← w.updatePayment { payment with zkEmailCommitment := some commitment }
  return w.emitReceiptCommitmentBound env paymentId payment.eventId

def migrate (env : Env) (admin : Address) (w : World) : Attempt (ℕ × World) := do
  requireNotPaused w
  requireAuth env admin
  let currentAdmin ← w.getAdmin
  require (currentAdmin = admin) .unauthorized
  let currentVersion := w.getContractVersion
  require (currentVersion ≤ 2) .unsupportedVersion
  return (currentVersion + 1, w.setContractVersion (currentVersion + 1))

def countMigratedRefund (w : World) (e : Symbol) (payment : PaymentRecord) : Attempt World :=
  if 0 < payment.refundedAmount then
    w.addTotalTokenRefunds e payment.token payment.refundedAmount
  else return w

/-- One legacy payment of `migrate_event`: index it and count its amounts. -/
def migratePayment (e : Symbol) (index paymentId : ℕ) (totalPayments totalRefunds : ℤ)
    (w : World) : Attempt (ℤ × ℤ × World) := do
  let w := w.set (.eventPaymentIndex e index) paymentId
  match w.get (.payment paymentId) with
  | none => return (totalPayments, totalRefunds, w)
  | some payment =>
    let totalPayments ← i128 (totalPayments + payment.amount)
    let totalRefunds ← i128 (totalRefunds + payment.refundedAmount)
    let w ← w.addTotalTokenVolume e payment.token payment.amount
    let w ← w.addEventToken e payment.token
    let w ← countMigratedRefund w e payment
    return (totalPayments, totalRefunds, w)

def migratePayments (e : Symbol) : List ℕ → ℕ → ℤ → ℤ → World → Attempt (ℤ × ℤ × World)
  | [], _, totalPayments, totalRefunds, w => return (totalPayments, totalRefunds, w)
  | paymentId :: rest, index, totalPayments, totalRefunds, w => do
    let (totalPayments, totalRefunds, w) ←
      migratePayment e index paymentId totalPayments totalRefunds w
    migratePayments e rest (index + 1) totalPayments totalRefunds w

/-- Attribute the event's past withdrawals to its only token. -/
def migrateWithdrawn (w : World) (e : Symbol) (totalWithdrawn : ℤ) : Attempt World :=
  if 0 < totalWithdrawn then do
    let tokens := w.getEventTokens e
    require (tokens.length ≤ 1) .accountingMismatch
    match tokens with
    | [] => return w
    | token :: _ => w.addTotalTokenWithdrawn e token totalWithdrawn
  else return w

def migrateEvent (env : Env) (admin : Address) (e : Symbol) (w : World) : Attempt World := do
  requireNotPaused w
  requireAuth env admin
  let currentAdmin ← w.getAdmin
  require (currentAdmin = admin) .unauthorized
  let legacyPayments : List ℕ := (w.get (.eventPayments e)).getD []
  let (totalPayments, totalRefunds, w) ← migratePayments e legacyPayments 0 0 0 w
  let w := w.set (.eventPaymentsCount e) legacyPayments.length
  let w := w.set (.totalPayments e) totalPayments
  let w := w.set (.totalRefunds e) totalRefunds
  let totalWithdrawn ← (w.getWithdrawalHistory e).foldlM
    (fun total record => i128 (total + record.amount)) 0
  let w := w.set (.totalWithdrawn e) totalWithdrawn
  let w ← migrateWithdrawn w e totalWithdrawn
  let w := w.remove (.eventPayments e)
  validateRevenueInvariant env e w

end Zicket.Payments
