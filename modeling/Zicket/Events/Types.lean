import Zicket.Payments.Types

/-! Records, error codes and published events of the event contract. -/

namespace Zicket.Events

open Host
open Payments (PrivacyLevel MaskedAddress)

inductive EventStatus where
  | upcoming | active | completed | cancelled | postponed
  deriving DecidableEq, Repr

inductive ZkClaimType where
  | any | age | location | citizenship
  deriving DecidableEq, Repr

structure ZkPassportClaim where
  claimType : ZkClaimType
  proof : Bytes
  nullifier : BytesN 32
  expiryLedger : ℕ

structure AnonymousTicketClaim where
  proof : Bytes
  nullifier : BytesN 32
  ticketCommitment : BytesN 32
  expiryLedger : ℕ

structure ZkVerificationConfig where
  requiredClaimType : ZkClaimType
  enabled : Bool

structure TicketTier where
  tierId : ℕ
  name : String
  price : ℤ
  capacity : ℕ
  sold : ℕ
  reserved : ℕ
  deriving DecidableEq

structure TicketTierParams where
  name : String
  price : ℤ
  capacity : ℕ

structure Event where
  eventId : Symbol
  organizer : Address
  payoutToken : Address
  name : String
  description : String
  venue : String
  eventDate : ℕ
  allowAnonymous : Bool
  requiresVerification : Bool
  tiers : List TicketTier
  status : EventStatus
  createdAt : ℕ
  privacyLevel : PrivacyLevel
  maxTicketsPerUser : ℕ
  maxSupply : ℕ
  soldCount : ℕ
  eventStartLedger : ℕ
  eventEndLedger : ℕ
  withdrawalDelayLedgers : ℕ
  revenueSplits : List (Address × ℕ)
  resaleRoyaltyBps : ℕ
  maxResalePrice : Option ℤ
  allowFreeTicketTransfer : Bool

structure CreateEventParams where
  organizer : Address
  payoutToken : Address
  eventId : Symbol
  name : String
  description : String
  venue : String
  eventDate : ℕ
  initialTiers : List TicketTierParams
  allowAnonymous : Bool
  requiresVerification : Bool
  privacyLevel : PrivacyLevel
  maxTicketsPerUser : ℕ
  eventStartLedger : ℕ
  eventEndLedger : ℕ
  withdrawalDelayLedgers : ℕ
  revenueSplits : List (Address × ℕ)
  resaleRoyaltyBps : ℕ
  maxResalePrice : Option ℤ
  allowFreeTicketTransfer : Bool

/-- `maxResalePrice = some (-1)` removes the cap. -/
structure UpdateEventParams where
  organizer : Address
  eventId : Symbol
  name : Option String
  description : Option String
  venue : Option String
  eventDate : Option ℕ
  allowAnonymous : Option Bool
  requiresVerification : Option Bool
  maxTicketsPerUser : Option ℕ
  resaleRoyaltyBps : Option ℕ
  maxResalePrice : Option ℤ
  allowFreeTicketTransfer : Option Bool

structure Reservation where
  tierId : ℕ
  expiresAt : ℕ

structure PostponementInfo where
  newDateLedger : ℕ
  choiceDeadlineLedger : ℕ

structure ClaimSettings where
  maxFreeClaims : ℕ
  cooldownSecs : ℕ

structure AnonClaimSettings where
  maxAnonClaimsPerWindow : ℕ
  anonWindowSize : ℕ

structure AnonWindowState where
  windowIndex : ℕ
  count : ℕ

inductive EventError where
  | eventNotFound | eventAlreadyExists | invalidStatusTransition | unauthorized | invalidInput
  | eventNotActive | invalidEventDate | invalidTicketCount | invalidPrice | eventNotUpdatable
  | eventSoldOut | alreadyRegistered | tierNotFound | tierSoldOut | contractLinksNotConfigured
  | reservationNotFound | reservationExpired | invalidPayoutToken | unsupportedVersion
  | unauthorizedPrivateAccess | claimLimitExceeded | claimCooldownActive | anonClaimWindowFull
  | anonymousClaimsNotEnabled | postponementWindowTooShort | invalidPostponementDate
  | maxPostponementsReached | postponementWindowOpen | eventNotPostponed | noRefundableTicket
  | invalidRevenueSplit | zkProofExpired | zkNullifierReused | zkVerificationRequired
  | zkClaimTypeMismatch | paymentPrivacyUnsupported | anonymousProofExpired
  | anonymousProofInvalid | anonymousClaimVerifierNotConfigured | anonymousNullifierReused
  | anonymousClaimVerifierAlreadyConfigured | anonymousProofExpiryTooFar
  deriving DecidableEq, Repr

def minWithdrawalDelayLedgers : ℕ := 100
def minPostponementChoiceWindowLedgers : ℕ := 51840
def maxPostponementChoiceWindowLedgers : ℕ := 518400
def maxPostponements : ℕ := 3
def maxAnonymousProofTtlLedgers : ℕ := 17280

/-- What the contract publishes; the constructor stands for the event topic. -/
inductive ContractEvent where
  | eventCreated (eventId : Symbol) (organizer : MaskedAddress) (name venue : String)
      (eventDate tierCount createdAt : ℕ)
  | eventUpdated (eventId : Symbol) (name description venue : String) (eventDate updatedAt : ℕ)
  | eventStatusChanged (eventId : Symbol) (oldStatus newStatus : EventStatus) (changedAt : ℕ)
  | eventCancelled (eventId : Symbol) (organizer : MaskedAddress) (cancelledAt : ℕ)
  | eventPostponed (eventId : Symbol) (newDateLedger choiceDeadlineLedger postponeCount : ℕ)
      (postponedAt : ℕ)
  | eventResumed (eventId : Symbol) (newStartLedger newEndLedger resumedAt : ℕ)
  | eventRegistration (eventId : Symbol) (attendee : MaskedAddress) (tierId ticketsSold : ℕ)
      (registeredAt : ℕ)
  | anonEventRegistration (eventId : Symbol) (tierId ticketsSold registeredAt : ℕ)
  | zkVerifiedAttendance (eventId : Symbol) (claimType : ZkClaimType) (tierId ticketsSold : ℕ)
      (registeredAt : ℕ)

end Zicket.Events
