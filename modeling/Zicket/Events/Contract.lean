import Zicket.Events.Claims
import Zicket.Foundation.Run
import Zicket.Payments.Contract

/-! The remaining operations of the event contract, and the contract as a machine. -/

namespace Zicket.Events

open Host Foundation
open Payments (PrivacyLevel)

variable {σ : Type} (net : Network σ)

def withdrawRevenue (env : Env) (organizer : Address) (e : Symbol) (w : World σ) :
    Attempt (World σ) := do
  requireAuth env organizer
  let event ← ownEvent w e organizer
  require (event.status = .completed) .invalidStatusTransition
  let paymentsContract ← w.getPaymentsContract
  w.tell (net.withdrawRevenue env paymentsContract e organizer)

def storeSetting (env : Env) (organizer : Address) (e : Symbol) (k : DataKey) (v : k.Val)
    (w : World σ) : Attempt (World σ) := do
  requireAuth env organizer
  let _ ← ownEvent w e organizer
  return w.set k v

def setEventPrivacy (env : Env) (organizer : Address) (e : Symbol) (level : PrivacyLevel)
    (w : World σ) : Attempt (World σ) :=
  storeSetting env organizer e (.eventPrivacy e) level w

def setClaimSettings (env : Env) (organizer : Address) (e : Symbol) (maxFreeClaims : ℕ)
    (cooldownSecs : ℕ) (w : World σ) : Attempt (World σ) :=
  storeSetting env organizer e (.eventClaimSettings e) { maxFreeClaims, cooldownSecs } w

def setAnonClaimSettings (env : Env) (organizer : Address) (e : Symbol)
    (maxAnonClaimsPerWindow anonWindowSize : ℕ) (w : World σ) : Attempt (World σ) :=
  storeSetting env organizer e (.eventAnonSettings e)
    { maxAnonClaimsPerWindow, anonWindowSize } w

def setZkConfig (env : Env) (organizer : Address) (e : Symbol) (config : ZkVerificationConfig)
    (w : World σ) : Attempt (World σ) :=
  storeSetting env organizer e (.zkVerificationConfig e) config w

def requireAdmin (env : Env) (w : World σ) (admin : Address) : Attempt Unit := do
  requireAuth env admin
  let storedAdmin ← w.getAdmin
  require (storedAdmin = admin) .unauthorized

/-- The verifier is configured once. -/
def setAnonymousClaimVerifier (env : Env) (admin verifier : Address) (w : World σ) :
    Attempt (World σ) := do
  requireAdmin env w admin
  require (w.get .anonymousClaimVerifier = none) .anonymousClaimVerifierAlreadyConfigured
  return w.set .anonymousClaimVerifier verifier

def migrate (env : Env) (admin : Address) (w : World σ) : Attempt (ℕ × World σ) := do
  requireAdmin env w admin
  let currentVersion := w.getContractVersion
  require (currentVersion ≤ 2) .unsupportedVersion
  return (currentVersion + 1, w.set .contractVersion (currentVersion + 1))

def withdrawSplit (env : Env) (recipient : Address) (e : Symbol) (w : World σ) :
    Attempt (World σ) := do
  requireAuth env recipient
  let _ ← w.getEvent e
  let paymentsContract ← w.getPaymentsContract
  w.tell (net.withdrawSplit env paymentsContract recipient e)

def flagCohost (env : Env) (primaryOrganizer : Address) (e : Symbol) (recipient : Address)
    (w : World σ) : Attempt (World σ) := do
  requireAuth env primaryOrganizer
  let _ ← ownEvent w e primaryOrganizer
  let paymentsContract ← w.getPaymentsContract
  w.tell (net.flagCohost env paymentsContract primaryOrganizer e recipient)

inductive Call where
  | initialise (admin ticketContract paymentsContract : Address)
  | createEvent (params : CreateEventParams)
  | updateEventDetails (params : UpdateEventParams)
  | addTicketTier (organizer : Address) (e : Symbol) (name : String) (price : ℤ) (capacity : ℕ)
  | updateTier (organizer : Address) (e : Symbol) (tierId : ℕ) (name : Option String)
      (price : Option ℤ) (capacity : Option ℕ)
  | updateEventStatus (organizer : Address) (e : Symbol) (newStatus : EventStatus)
  | cancelEvent (organizer : Address) (e : Symbol)
  | postponeEvent (organizer : Address) (e : Symbol) (newDateLedger choiceWindowLedgers : ℕ)
  | finalizePostponement (organizer : Address) (e : Symbol)
  | requestPostponementRefund (attendee : Address) (ticketId : ℕ)
  | reserveTicket (attendee : Address) (e : Symbol) (tierId : ℕ)
  | releaseExpiredReservation (e : Symbol) (attendee : Address)
  | registerForEvent (nonce : ℕ) (attendee : Address) (e : Symbol) (tierId : ℕ)
      (emailHash : Option (BytesN 32))
  | batchRegisterForEvent (nonce : ℕ) (attendee : Address) (e : Symbol) (tierId count : ℕ)
      (emailHash : Option (BytesN 32))
  | withdrawRevenue (organizer : Address) (e : Symbol)
  | setEventPrivacy (organizer : Address) (e : Symbol) (level : PrivacyLevel)
  | setClaimSettings (organizer : Address) (e : Symbol) (maxFreeClaims cooldownSecs : ℕ)
  | setAnonymousClaimVerifier (admin verifier : Address)
  | claimAnonymousTicket (e : Symbol) (tierId : ℕ) (claim : AnonymousTicketClaim)
  | setAnonClaimSettings (organizer : Address) (e : Symbol)
      (maxAnonClaimsPerWindow anonWindowSize : ℕ)
  | verifyAndAttend (e : Symbol) (tierId : ℕ) (claim : ZkPassportClaim)
  | setZkConfig (organizer : Address) (e : Symbol) (config : ZkVerificationConfig)
  | migrate (admin : Address)
  | withdrawSplit (recipient : Address) (e : Symbol)
  | flagCohost (primaryOrganizer : Address) (e : Symbol) (recipient : Address)

def Call.exec (env : Env) (w : World σ) : Call → Attempt (World σ)
  | .initialise admin ticketContract paymentsContract =>
    initializeContract net env admin ticketContract paymentsContract w
  | .createEvent params => do
    let (_, w) ← Events.createEvent net env params w
    return w
  | .updateEventDetails params => do
    let (_, w) ← Events.updateEventDetails net env params w
    return w
  | .addTicketTier organizer e name price capacity => do
    let (_, w) ← Events.addTicketTier env organizer e name price capacity w
    return w
  | .updateTier organizer e tierId name price capacity =>
    Events.updateTier env organizer e tierId name price capacity w
  | .updateEventStatus organizer e newStatus => Events.updateEventStatus env organizer e newStatus w
  | .cancelEvent organizer e => Events.cancelEvent net env organizer e w
  | .postponeEvent organizer e newDateLedger choiceWindowLedgers =>
    Events.postponeEvent net env organizer e newDateLedger choiceWindowLedgers w
  | .finalizePostponement organizer e => Events.finalizePostponement net env organizer e w
  | .requestPostponementRefund attendee ticketId =>
    Events.requestPostponementRefund net env attendee ticketId w
  | .reserveTicket attendee e tierId => Events.reserveTicket env attendee e tierId w
  | .releaseExpiredReservation e attendee => Events.releaseExpiredReservation env e attendee w
  | .registerForEvent nonce attendee e tierId emailHash =>
    Events.registerForEvent net env nonce attendee e tierId emailHash w
  | .batchRegisterForEvent nonce attendee e tierId count emailHash =>
    Events.batchRegisterForEvent net env nonce attendee e tierId count emailHash w
  | .withdrawRevenue organizer e => Events.withdrawRevenue net env organizer e w
  | .setEventPrivacy organizer e level => Events.setEventPrivacy env organizer e level w
  | .setClaimSettings organizer e maxFreeClaims cooldownSecs =>
    Events.setClaimSettings env organizer e maxFreeClaims cooldownSecs w
  | .setAnonymousClaimVerifier admin verifier =>
    Events.setAnonymousClaimVerifier env admin verifier w
  | .claimAnonymousTicket e tierId claim => Events.claimAnonymousTicket net env e tierId claim w
  | .setAnonClaimSettings organizer e maxAnonClaimsPerWindow anonWindowSize =>
    Events.setAnonClaimSettings env organizer e maxAnonClaimsPerWindow anonWindowSize w
  | .verifyAndAttend e tierId claim => Events.verifyAndAttend net env e tierId claim w
  | .setZkConfig organizer e config => Events.setZkConfig env organizer e config w
  | .migrate admin => do
    let (_, w) ← Events.migrate env admin w
    return w
  | .withdrawSplit recipient e => Events.withdrawSplit net env recipient e w
  | .flagCohost primaryOrganizer e recipient =>
    Events.flagCohost net env primaryOrganizer e recipient w

def Call.succeeds (env : Env) (w : World σ) (c : Call) : Bool := (c.exec net env w).isOk

/-- A call of the contract, or a change of what is outside it. -/
inductive Step (σ : Type) where
  | call (invocation : Invocation) (c : Call)
  | elsewhere (outside : σ)

def World.next (d : Deployment) (w : World σ) : Step σ → World σ
  | .call invocation c => commit w (c.exec net ⟨d, invocation⟩ w)
  | .elsewhere outside => { w with outside }

def deployed (outside : σ) : World σ := { storage := .empty, outside, events := [] }

/-! An event on which runs can be computed. -/

namespace Sample

export Payments.Sample (organizer bob amy concert invocation)

def deployment : Deployment :=
  { currentContract := Payments.Sample.eventContract, crypto := Payments.Sample.crypto }

def call (ledger : ℕ) (c : Call) : Step σ := .call (invocation ledger) c

def params : CreateEventParams :=
  { organizer, payoutToken := Payments.Sample.token, eventId := concert, name := "concert",
    description := "", venue := "hall", eventDate := 100000,
    initialTiers := [⟨"seat", 100, 10⟩, ⟨"guest", 0, 1⟩], allowAnonymous := false,
    requiresVerification := false, privacyLevel := .standard, maxTicketsPerUser := 0,
    eventStartLedger := 1000, eventEndLedger := 2000, withdrawalDelayLedgers := 100,
    revenueSplits := [], resaleRoyaltyBps := 0, maxResalePrice := none,
    allowFreeTicketTransfer := false }

end Sample

end Zicket.Events
