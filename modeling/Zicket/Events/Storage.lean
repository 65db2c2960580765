import Zicket.Events.Network
import Zicket.Payments.Events

/-! Accessors of the event contract's storage, and the published events. -/

namespace Zicket.Events.World

open Host Foundation
open Payments (PrivacyLevel maskAddress)

variable {σ : Type}

def getEvent (w : World σ) (e : Symbol) : Attempt Event := okOr (w.get (.event e)) .eventNotFound

def saveEvent (w : World σ) (e : Symbol) (event : Event) : World σ := w.set (.event e) event

def updateEvent (w : World σ) (e : Symbol) (event : Event) : Attempt (World σ) := do
  require (w.has (.event e) = true) .eventNotFound
  return w.saveEvent e event

def isRegistered (w : World σ) (e : Symbol) (attendee : Address) : Bool :=
  w.has (.registration e attendee)

def getAttendeesCount (w : World σ) (e : Symbol) : ℕ := (w.get (.eventAttendeesCount e)).getD 0

def saveRegistration (w : World σ) (e : Symbol) (attendee : Address) : Attempt (World σ) := do
  let w := w.set (.registration e attendee) true
  let count := w.getAttendeesCount e
  let w := w.set (.eventAttendeeIndex e count) attendee
  return w.set (.eventAttendeesCount e) (← u64 (count + 1))

def getAttendees (w : World σ) (e : Symbol) : List Address :=
  (List.range (w.getAttendeesCount e)).filterMap fun i => w.get (.eventAttendeeIndex e i)

/-- A page holds at most a hundred attendees; the loop runs over `start..end`. -/
def getAttendeesPaginated (w : World σ) (e : Symbol) (start limit : ℕ) : List Address :=
  let count := w.getAttendeesCount e
  let actualLimit := min limit 100
  let stop := min count (saturatingAddU64 start actualLimit)
  (List.range' start (stop - start)).filterMap fun i => w.get (.eventAttendeeIndex e i)

/-- Swap-remove from the attendee list: the last attendee moves into the freed slot. -/
def removeRegistration (w : World σ) (e : Symbol) (attendee : Address) : World σ :=
  let w := w.remove (.registration e attendee)
  let count := w.getAttendeesCount e
  if count = 0 then w
  else
    let attendeeAt (i : ℕ) : Option Address := w.get (.eventAttendeeIndex e i)
    match (List.range count).find? fun i => attendeeAt i = some attendee with
    | none => w
    | some idx =>
      let lastIdx := count - 1
      let w :=
        if idx ≠ lastIdx then
          match attendeeAt lastIdx with
          | some lastAttendee => w.set (.eventAttendeeIndex e idx) lastAttendee
          | none => w
        else w
      (w.remove (.eventAttendeeIndex e lastIdx)).set (.eventAttendeesCount e) lastIdx

def getAdmin (w : World σ) : Attempt Address := okOr (w.get .admin) .contractLinksNotConfigured

def getTicketContract (w : World σ) : Attempt Address :=
  okOr (w.get .ticketContract) .contractLinksNotConfigured

def getPaymentsContract (w : World σ) : Attempt Address :=
  okOr (w.get .paymentsContract) .contractLinksNotConfigured

def hasLinkedContracts (w : World σ) : Bool := w.has .ticketContract && w.has .paymentsContract

def getReservation (w : World σ) (e : Symbol) (attendee : Address) : Attempt Reservation :=
  okOr (w.get (.reservation e attendee)) .reservationNotFound

def saveReservation (w : World σ) (e : Symbol) (attendee : Address) (r : Reservation) : World σ :=
  w.set (.reservation e attendee) r

def removeReservation (w : World σ) (e : Symbol) (attendee : Address) : World σ :=
  w.remove (.reservation e attendee)

def getContractVersion (w : World σ) : ℕ := (w.get .contractVersion).getD 1

def getEventPrivacy (w : World σ) (e : Symbol) : PrivacyLevel :=
  (w.get (.eventPrivacy e)).getD .standard

def setEventPrivacy (w : World σ) (e : Symbol) (level : PrivacyLevel) : World σ :=
  w.set (.eventPrivacy e) level

def getPostponement (w : World σ) (e : Symbol) : Option PostponementInfo := w.get (.postponement e)

def getPostponeCount (w : World σ) (e : Symbol) : ℕ := (w.get (.postponeCount e)).getD 0

def getClaimSettings (w : World σ) (e : Symbol) : ClaimSettings :=
  (w.get (.eventClaimSettings e)).getD { maxFreeClaims := 0, cooldownSecs := 0 }

def getFreeClaimCount (w : World σ) (e : Symbol) (attendee : Address) : ℕ :=
  (w.get (.freeClaimCount e attendee)).getD 0

def incrementFreeClaimCount (w : World σ) (e : Symbol) (attendee : Address) :
    Attempt (World σ) := do
  let count ← u32 (w.getFreeClaimCount e attendee + 1)
  return w.set (.freeClaimCount e attendee) count

def getLastFreeClaim (w : World σ) (e : Symbol) (attendee : Address) : ℕ :=
  (w.get (.lastFreeClaim e attendee)).getD 0

def getAnonymousClaimVerifier (w : World σ) : Attempt Address :=
  okOr (w.get .anonymousClaimVerifier) .anonymousClaimVerifierNotConfigured

def getAnonClaimSettings (w : World σ) (e : Symbol) : AnonClaimSettings :=
  (w.get (.eventAnonSettings e)).getD { maxAnonClaimsPerWindow := 0, anonWindowSize := 0 }

def getAnonWindowState (w : World σ) (e : Symbol) : AnonWindowState :=
  (w.get (.eventAnonWindow e)).getD { windowIndex := 0, count := 0 }

def getZkVerificationConfig (w : World σ) (e : Symbol) : ZkVerificationConfig :=
  (w.get (.zkVerificationConfig e)).getD { requiredClaimType := .any, enabled := false }

section Emit

variable (env : Env) (w : World σ)

def emitEventCreated (params : CreateEventParams) (level : PrivacyLevel) : World σ :=
  w.emit (.eventCreated params.eventId (maskAddress env params.organizer level) params.name
    params.venue params.eventDate params.initialTiers.length env.timestamp)

def emitEventUpdated (event : Event) : World σ :=
  w.emit (.eventUpdated event.eventId event.name event.description event.venue event.eventDate
    env.timestamp)

def emitStatusChanged (e : Symbol) (oldStatus newStatus : EventStatus) : World σ :=
  w.emit (.eventStatusChanged e oldStatus newStatus env.timestamp)

def emitEventCancelled (e : Symbol) (organizer : Address) (level : PrivacyLevel) : World σ :=
  w.emit (.eventCancelled e (maskAddress env organizer level) env.timestamp)

def emitEventPostponed (e : Symbol) (newDateLedger choiceDeadlineLedger postponeCount : ℕ) :
    World σ :=
  w.emit (.eventPostponed e newDateLedger choiceDeadlineLedger postponeCount env.timestamp)

def emitEventResumed (e : Symbol) (newStartLedger newEndLedger : ℕ) : World σ :=
  w.emit (.eventResumed e newStartLedger newEndLedger env.timestamp)

def emitRegistration (e : Symbol) (attendee : Address) (tierId ticketsSold : ℕ)
    (level : PrivacyLevel) : World σ :=
  w.emit (.eventRegistration e (maskAddress env attendee level) tierId ticketsSold env.timestamp)

def emitAnonRegistration (e : Symbol) (tierId ticketsSold : ℕ) : World σ :=
  w.emit (.anonEventRegistration e tierId ticketsSold env.timestamp)

def emitZkVerifiedAttendance (e : Symbol) (claimType : ZkClaimType) (tierId ticketsSold : ℕ) :
    World σ :=
  w.emit (.zkVerifiedAttendance e claimType tierId ticketsSold env.timestamp)

end Emit

end Zicket.Events.World
