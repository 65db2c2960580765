import Zicket.Payments.World

/-! Storage accessors of the payments contract, one for each function of its
storage module. Counters trap on overflow; time-to-live extension is not modelled. -/

namespace Zicket.Payments.World

open Host Foundation

def setEventStatus (w : World) (e : Symbol) (status : EventStatus) : World :=
  w.set (.eventStatus e) status

def getEventStatus (w : World) (e : Symbol) : Option EventStatus := w.get (.eventStatus e)

def setPostponeDeadline (w : World) (e : Symbol) (deadline : ℕ) : World :=
  w.set (.postponeDeadline e) deadline

def getPostponeDeadline (w : World) (e : Symbol) : Option ℕ := w.get (.postponeDeadline e)

def removePostponeDeadline (w : World) (e : Symbol) : World := w.remove (.postponeDeadline e)

def getAdmin (w : World) : Attempt Address := okOr (w.get .admin) .notInitialized

def setAdmin (w : World) (admin : Address) : World := w.set .admin admin

def isPaused (w : World) : Bool := (w.get .paused).getD false

def setPaused (w : World) (paused : Bool) : World := w.set .paused paused

def getAcceptedToken (w : World) : Attempt Address := okOr (w.get .acceptedToken) .notInitialized

def setAcceptedToken (w : World) (t : Address) : World := w.set .acceptedToken t

def addSupportedToken (w : World) (t : Address) : World := w.set (.supportedToken t) true

def isSupportedToken (w : World) (t : Address) : Bool :=
  if w.get .acceptedToken = some t then true else (w.get (.supportedToken t)).getD false

def getEventContract (w : World) : Attempt Address := okOr (w.get .eventContract) .notInitialized

def setEventContract (w : World) (a : Address) : World := w.set .eventContract a

def getTicketContract (w : World) : Attempt Address :=
  okOr (w.get .ticketContract) .notInitialized

def setTicketContract (w : World) (a : Address) : World := w.set .ticketContract a

def getEventPrivacy (w : World) (e : Symbol) : EventPrivacyConfig :=
  (w.get (.eventPrivacy e)).getD { allowAnonymous := true, requiresVerification := false }

def setEventPrivacy (w : World) (e : Symbol) (privacy : EventPrivacyConfig) : World :=
  w.set (.eventPrivacy e) privacy

def getEventConfig (w : World) (e : Symbol) : Option EventConfig := w.get (.eventConfig e)

def setEventConfig (w : World) (e : Symbol) (config : EventConfig) : World :=
  w.set (.eventConfig e) config

def getEventOrganizer (w : World) (e : Symbol) : Attempt Address :=
  okOr ((w.getEventConfig e).map (·.organizer)) .invalidOrganizer

def getEventPayoutToken (w : World) (e : Symbol) : Attempt Address :=
  okOr ((w.getEventConfig e).map (·.payoutToken)) .invalidPayoutToken

def isInitialized (w : World) : Bool :=
  w.has .admin && w.has .acceptedToken && w.has .eventContract

def getNextPaymentId (w : World) : Attempt (ℕ × World) := do
  let nextId ← u64 ((w.get .nextPaymentId).getD 0 + 1)
  return (nextId, w.set .nextPaymentId nextId)

def getNextTicketId (w : World) : Attempt (ℕ × World) := do
  let nextId ← u64 ((w.get .nextTicketId).getD 0 + 1)
  return (nextId, w.set .nextTicketId nextId)

def savePayment (w : World) (payment : PaymentRecord) : Attempt World := do
  require (w.has (.payment payment.paymentId) = false) .paymentAlreadyProcessed
  return w.set (.payment payment.paymentId) payment

def getPayment (w : World) (id : ℕ) : Attempt PaymentRecord :=
  okOr (w.get (.payment id)) .paymentNotFound

def updatePayment (w : World) (payment : PaymentRecord) : Attempt World := do
  require (w.has (.payment payment.paymentId) = true) .paymentNotFound
  return w.set (.payment payment.paymentId) payment

def saveTicket (w : World) (ticket : Ticket) : Attempt World := do
  require (w.has (.ticket ticket.ticketId) = false) .duplicateRequest
  return w.set (.ticket ticket.ticketId) ticket

def getTicket (w : World) (id : ℕ) : Attempt Ticket :=
  okOr (w.get (.ticket id)) .ticketNotFound

def getOwnerTicketsCount (w : World) (owner : Address) : ℕ :=
  (w.get (.ownerTicketsCount owner)).getD 0

def addOwnerTicketMap (w : World) (owner : Address) (id : ℕ) : Attempt World := do
  let count := w.getOwnerTicketsCount owner
  let w := w.set (.ownerTicket owner id) count
  let w := w.set (.ownerTicketIndex owner count) id
  return w.set (.ownerTicketsCount owner) (← u64 (count + 1))

/-- Swap-remove: the last listed ticket moves into the freed slot. -/
def removeOwnerTicketMap (w : World) (owner : Address) (id : ℕ) : World :=
  let stored := w.get (.ownerTicket owner id)
  let w := w.remove (.ownerTicket owner id)
  match stored with
  | none => w
  | some idx =>
    let count := w.getOwnerTicketsCount owner
    if count = 0 then w else
      let lastIdx := count - 1
      let w :=
        if idx < lastIdx then
          match w.get (.ownerTicketIndex owner lastIdx) with
          | some lastTicket =>
            (w.set (.ownerTicketIndex owner idx) lastTicket).set (.ownerTicket owner lastTicket) idx
          | none => w
        else w
      (w.remove (.ownerTicketIndex owner lastIdx)).set (.ownerTicketsCount owner) lastIdx

def getOwnerTickets (w : World) (owner : Address) : List ℕ :=
  (List.range (w.getOwnerTicketsCount owner)).filterMap fun i => w.get (.ownerTicketIndex owner i)

def getEventPaymentsCount (w : World) (e : Symbol) : ℕ := (w.get (.eventPaymentsCount e)).getD 0

def addEventPayment (w : World) (e : Symbol) (id : ℕ) : Attempt World := do
  let w := w.set (.eventPayment e id) true
  let count := w.getEventPaymentsCount e
  let w := w.set (.eventPaymentIndex e count) id
  return w.set (.eventPaymentsCount e) (← u64 (count + 1))

def getEventPayments (w : World) (e : Symbol) : List ℕ :=
  (List.range (w.getEventPaymentsCount e)).filterMap fun i => w.get (.eventPaymentIndex e i)

def getPayerPaymentsCount (w : World) (payer : Address) : ℕ :=
  (w.get (.payerPaymentsCount payer)).getD 0

def addPayerPayment (w : World) (payer : Address) (id : ℕ) : Attempt World := do
  let w := w.set (.payerPayment payer id) true
  let count := w.getPayerPaymentsCount payer
  let w := w.set (.payerPaymentIndex payer count) id
  return w.set (.payerPaymentsCount payer) (← u64 (count + 1))

def getEventTokenCount (w : World) (e : Symbol) : ℕ := (w.get (.eventTokenCount e)).getD 0

def hasEventToken (w : World) (e : Symbol) (t : Address) : Bool := w.has (.eventToken e t)

def addEventToken (w : World) (e : Symbol) (t : Address) : Attempt World :=
  if w.hasEventToken e t then return w else do
    let w := w.set (.eventToken e t) true
    let count := w.getEventTokenCount e
    let w := w.set (.eventTokenIndex e count) t
    return w.set (.eventTokenCount e) (← u32 (count + 1))

def getEventTokens (w : World) (e : Symbol) : List Address :=
  (List.range (w.getEventTokenCount e)).filterMap fun i => w.get (.eventTokenIndex e i)

def getEventTokenRevenue (w : World) (e : Symbol) (t : Address) : ℤ :=
  (w.get (.eventTokenRevenue e t)).getD 0

def setEventTokenRevenue (w : World) (e : Symbol) (t : Address) (amount : ℤ) : World :=
  w.set (.eventTokenRevenue e t) amount

def addEventTokenRevenue (w : World) (e : Symbol) (t : Address) (amount : ℤ) : Attempt World := do
  return w.setEventTokenRevenue e t (← i128 (w.getEventTokenRevenue e t + amount))

/-- The revenue of an event is summed over its tokens; the `EventRevenue` entry is never read. -/
def getEventRevenue (w : World) (e : Symbol) : Attempt ℤ :=
  (w.getEventTokens e).foldlM (fun total t => i128 (total + w.getEventTokenRevenue e t)) 0

def setEventRevenue (w : World) (e : Symbol) (amount : ℤ) : World :=
  w.set (.eventRevenue e) amount

def addEventRevenue (w : World) (e : Symbol) (amount : ℤ) : Attempt World := do
  let current ← w.getEventRevenue e
  return w.set (.eventRevenue e) (← i128 (current + amount))

/-- `set_event_revenue(get_event_revenue() + change)`. -/
def shiftEventRevenue (w : World) (e : Symbol) (change : ℤ) : Attempt World := do
  let current ← w.getEventRevenue e
  return w.setEventRevenue e (← i128 (current + change))

def getWithdrawalCount (w : World) (e : Symbol) : ℕ := (w.get (.withdrawalCount e)).getD 0

def addWithdrawalRecord (w : World) (e : Symbol) (record : WithdrawalRecord) : Attempt World := do
  let count := w.getWithdrawalCount e
  let w := w.set (.withdrawalRecord e count) record
  return w.set (.withdrawalCount e) (← u32 (count + 1))

def getWithdrawalHistory (w : World) (e : Symbol) : List WithdrawalRecord :=
  (List.range (w.getWithdrawalCount e)).filterMap fun i => w.get (.withdrawalRecord e i)

def getPlatformFeeBps (w : World) : ℕ := (w.get .platformFeeBps).getD 0

def setPlatformFeeBps (w : World) (bps : ℕ) : World := w.set .platformFeeBps bps

def getPlatformWallet (w : World) : Attempt Address := okOr (w.get .platformWallet) .notInitialized

def setPlatformWallet (w : World) (a : Address) : World := w.set .platformWallet a

def getPlatformRevenue (w : World) (e : Symbol) : ℤ := (w.get (.platformRevenue e)).getD 0

def addPlatformRevenue (w : World) (e : Symbol) (amount : ℤ) : Attempt World := do
  return w.set (.platformRevenue e) (← i128 (w.getPlatformRevenue e + amount))

def resetPlatformRevenue (w : World) (e : Symbol) : World := w.set (.platformRevenue e) (0 : ℤ)

def setEmissionPrivacy (w : World) (e : Symbol) (level : PrivacyLevel) : World :=
  w.set (.emissionPrivacy e) level

def getEmissionPrivacy (w : World) (e : Symbol) : PrivacyLevel :=
  (w.get (.emissionPrivacy e)).getD .standard

def setEscrowMeta (w : World) (e : Symbol) (escrow : EscrowMetadata) : World :=
  w.set (.escrowMeta e) escrow

def getEscrowMeta (w : World) (e : Symbol) : Attempt EscrowMetadata :=
  okOr (w.get (.escrowMeta e)) .escrowNotConfigured

def hasNonce (w : World) (a : Address) (nonce : ℕ) : Bool :=
  (w.get (.processedNonce a nonce)).getD false

def setNonce (w : World) (a : Address) (nonce : ℕ) : World :=
  w.set (.processedNonce a nonce) true

def hasNonceHash (w : World) (hash : BytesN 32) (nonce : ℕ) : Bool :=
  (w.get (.processedNonceHash hash nonce)).getD false

def setNonceHash (w : World) (hash : BytesN 32) (nonce : ℕ) : World :=
  w.set (.processedNonceHash hash nonce) true

def hasNullifier (w : World) (commitment : BytesN 32) : Bool :=
  (w.get (.spentNullifier commitment)).getD false

def markNullifierSpent (w : World) (commitment : BytesN 32) : World :=
  w.set (.spentNullifier commitment) true

def getContractVersion (w : World) : ℕ := (w.get .contractVersion).getD 1

def setContractVersion (w : World) (version : ℕ) : World := w.set .contractVersion version

def getUserEventTickets (w : World) (e : Symbol) (user : Address) : ℕ :=
  (w.get (.userEventTickets e user)).getD 0

def incrementUserEventTickets (w : World) (e : Symbol) (user : Address) : Attempt World := do
  return w.set (.userEventTickets e user) (← u32 (w.getUserEventTickets e user + 1))

def getUserEventTicketsHash (w : World) (e : Symbol) (hash : BytesN 32) : ℕ :=
  (w.get (.userEventTicketsHash e hash)).getD 0

def incrementUserEventTicketsHash (w : World) (e : Symbol) (hash : BytesN 32) : Attempt World := do
  return w.set (.userEventTicketsHash e hash) (← u32 (w.getUserEventTicketsHash e hash + 1))

def incrementEventSoldCount (w : World) (e : Symbol) : Attempt World := do
  let config ← okOr (w.getEventConfig e) .invalidOrganizer
  require (config.soldCount + 1 < 2 ^ 32) .eventSoldOut
  return w.setEventConfig e { config with soldCount := config.soldCount + 1 }

def hasSplits (w : World) (e : Symbol) : Bool := w.has (.eventSplits e)

def getSplits (w : World) (e : Symbol) : List RevenueSplit := (w.get (.eventSplits e)).getD []

def setSplits (w : World) (e : Symbol) (splits : List RevenueSplit) : World :=
  w.set (.eventSplits e) splits

def getSplitSettlement (w : World) (e : Symbol) : Option SplitSettlement :=
  w.get (.splitSettlement e)

def setSplitSettlement (w : World) (e : Symbol) (settlement : SplitSettlement) : World :=
  w.set (.splitSettlement e) settlement

def getSplitWithdrawn (w : World) (e : Symbol) (recipient : Address) : ℤ :=
  (w.get (.splitWithdrawn e recipient)).getD 0

def setSplitWithdrawn (w : World) (e : Symbol) (recipient : Address) (amount : ℤ) : World :=
  w.set (.splitWithdrawn e recipient) amount

def isSplitFlagged (w : World) (e : Symbol) (recipient : Address) : Bool :=
  (w.get (.splitFlagged e recipient)).getD false

def setSplitFlagged (w : World) (e : Symbol) (recipient : Address) (flagged : Bool) : World :=
  w.set (.splitFlagged e recipient) flagged

def saveResaleListing (w : World) (id : ℕ) (listing : ResaleListing) : World :=
  w.set (.resaleListing id) listing

def getResaleListing (w : World) (id : ℕ) : Option ResaleListing := w.get (.resaleListing id)

def removeResaleListing (w : World) (id : ℕ) : World := w.remove (.resaleListing id)

def getDispute (w : World) (id : ℕ) : Option DisputeRecord := w.get (.dispute id)

def setDispute (w : World) (id : ℕ) (record : DisputeRecord) : World := w.set (.dispute id) record

def removeDispute (w : World) (id : ℕ) : World := w.remove (.dispute id)

def getEventDisputes (w : World) (e : Symbol) : List ℕ := (w.get (.eventDisputes e)).getD []

def setEventDisputes (w : World) (e : Symbol) (disputes : List ℕ) : World :=
  w.set (.eventDisputes e) disputes

def getTotalPayments (w : World) (e : Symbol) : ℤ := (w.get (.totalPayments e)).getD 0

def addTotalPayments (w : World) (e : Symbol) (amount : ℤ) : Attempt World := do
  return w.set (.totalPayments e) (← i128 (w.getTotalPayments e + amount))

def getTotalRefunds (w : World) (e : Symbol) : ℤ := (w.get (.totalRefunds e)).getD 0

def addTotalRefunds (w : World) (e : Symbol) (amount : ℤ) : Attempt World := do
  return w.set (.totalRefunds e) (← i128 (w.getTotalRefunds e + amount))

def getTotalWithdrawn (w : World) (e : Symbol) : ℤ := (w.get (.totalWithdrawn e)).getD 0

def addTotalWithdrawn (w : World) (e : Symbol) (amount : ℤ) : Attempt World := do
  return w.set (.totalWithdrawn e) (← i128 (w.getTotalWithdrawn e + amount))

def getTotalTokenVolume (w : World) (e : Symbol) (t : Address) : ℤ :=
  (w.get (.eventTokenVolume e t)).getD 0

def addTotalTokenVolume (w : World) (e : Symbol) (t : Address) (amount : ℤ) : Attempt World := do
  return w.set (.eventTokenVolume e t) (← i128 (w.getTotalTokenVolume e t + amount))

def getTotalTokenRefunds (w : World) (e : Symbol) (t : Address) : ℤ :=
  (w.get (.totalTokenRefunds e t)).getD 0

def addTotalTokenRefunds (w : World) (e : Symbol) (t : Address) (amount : ℤ) : Attempt World := do
  return w.set (.totalTokenRefunds e t) (← i128 (w.getTotalTokenRefunds e t + amount))

def getTotalTokenWithdrawn (w : World) (e : Symbol) (t : Address) : ℤ :=
  (w.get (.totalTokenWithdrawn e t)).getD 0

def addTotalTokenWithdrawn (w : World) (e : Symbol) (t : Address) (amount : ℤ) :
    Attempt World := do
  return w.set (.totalTokenWithdrawn e t) (← i128 (w.getTotalTokenWithdrawn e t + amount))

end Zicket.Payments.World
