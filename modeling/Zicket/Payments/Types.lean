import Zicket.Host.Env

/-! Records, statuses and error codes of the payments contract. -/

namespace Zicket.Payments

open Host

inductive EventStatus where
  | upcoming | active | completed | cancelled | postponed
  deriving DecidableEq, Repr

inductive PaymentStatus where
  | held | released | refunded | disputed
  deriving DecidableEq, Repr

inductive PaymentPrivacy where
  | anonymous | priv | standard
  deriving DecidableEq, Repr

/-- Emission privacy of an event's withdrawals, from `privacy_utils`. -/
inductive PrivacyLevel where
  | standard | priv | anonymous
  deriving DecidableEq, Repr

inductive MaskedAddress where
  | full (address : Address)
  | partially (bytes : Bytes)
  | hashed (hash : BytesN 32)
  deriving DecidableEq

structure EscrowMetadata where
  organizer : Address
  eventEndTime : ℕ
  autoReleased : Bool
  deriving DecidableEq

/-- Exactly one identity representation is filled in, chosen by `privacyLevel`. -/
structure PaymentRecord where
  paymentId : ℕ
  eventId : Symbol
  payer : Option Address
  hashedWallet : Option (BytesN 32)
  stealthDeliveryKey : Option (BytesN 32)
  nullifierCommitment : Option (BytesN 32)
  amount : ℤ
  token : Address
  status : PaymentStatus
  paidAt : ℕ
  privacyLevel : PaymentPrivacy
  refundedAmount : ℤ
  zkEmailCommitment : Option (BytesN 32)
  deriving DecidableEq

structure Ticket where
  ticketId : ℕ
  eventId : Symbol
  owner : Option Address
  hashedOwner : Option (BytesN 32)
  nullifierCommitment : Option (BytesN 32)
  paymentId : ℕ
  privacyLevel : PaymentPrivacy
  deriving DecidableEq

structure WithdrawalRecord where
  amount : ℤ
  timestamp : ℕ
  organizer : Address
  deriving DecidableEq

structure RevenueSplit where
  recipient : Address
  basisPoints : ℕ
  deriving DecidableEq

/-- The frozen net amount every recipient's share is computed from. -/
structure SplitSettlement where
  token : Address
  netDistributable : ℤ
  deriving DecidableEq

inductive FlagResolution where
  | releaseToRecipient | reassignToPrimary
  deriving DecidableEq, Repr

structure ResaleListing where
  price : ℤ
  seller : Address
  deriving DecidableEq

structure DisputeRecord where
  ticketId : ℕ
  eventId : Symbol
  paymentId : ℕ
  reasonCode : ℕ
  raisedAtLedger : ℕ
  deriving DecidableEq

structure EventPrivacyConfig where
  allowAnonymous : Bool
  requiresVerification : Bool
  deriving DecidableEq

structure EventConfig where
  organizer : Address
  payoutToken : Address
  allowAnonymous : Bool
  requiresVerification : Bool
  maxTicketsPerUser : ℕ
  maxSupply : ℕ
  soldCount : ℕ
  eventStartLedger : ℕ
  eventEndLedger : ℕ
  withdrawalDelayLedgers : ℕ
  adminDelayExtensionLedgers : ℕ
  cancelLedger : Option ℕ
  withdrawableRatioBps : Option ℕ
  organizerWithdrawn : Bool
  resaleRoyaltyBps : ℕ
  maxResalePrice : Option ℤ
  allowFreeTicketTransfer : Bool
  deriving DecidableEq

structure PaymentParams where
  nonce : ℕ
  payer : Address
  eventId : Symbol
  amount : ℤ
  tokenAddress : Address
  isAnonymous : Bool
  isVerified : Bool
  privacyLevel : PaymentPrivacy
  emailHash : Option (BytesN 32)
  zkEmailCommitment : Option (BytesN 32)
  nullifierCommitment : Option (BytesN 32)
  stealthDeliveryKey : Option (BytesN 32)

inductive PaymentError where
  | paymentNotFound | ticketNotFound | unauthorized | paymentAlreadyProcessed
  | invalidAmount | notInitialized | paymentAlreadyRefunded | noRevenue
  | anonymousPaymentsDisabled | verificationRequired | unauthorizedWithdrawal
  | invalidOrganizer | invalidPayoutToken | eventNotActive | eventNotCompleted
  | refundNotAllowed | escrowNotExpired | escrowAlreadyReleased | escrowNotConfigured
  | accountingMismatch | invalidFeeBps | noPlatformRevenue | duplicateRequest
  | unsupportedVersion | maxTicketsReached | eventSoldOut | nonceRequired
  | contractPaused | transferFailed | postponementWindowClosed | eventNotPostponed
  | invalidSplitConfig | splitsNotConfigured | notASplitRecipient | splitAlreadyWithdrawn
  | recipientFlagged | recipientNotFlagged | commitmentAlreadySet | commitmentNotAllowed
  | missingNullifierCommitment | missingStealthDeliveryKey | privacyLevelMismatch
  | disputeWindowClosed | disputeAlreadyExists | disputeNotFound | disputeExpired
  | invalidDisputeReason | activeDisputes | revenueInvariantViolated
  deriving DecidableEq, Repr

def minDisputeWindowLedgers : ℕ := 100
def attendeeDisputeWindowLedgers : ℕ := 17280 * 7
def disputeTimeoutLedgers : ℕ := 17280 * 14

/-- What the contract publishes; the constructor stands for the event type symbol. -/
inductive ContractEvent where
  | paymentReceived (paymentId : ℕ) (eventId : Symbol) (payer : MaskedAddress) (amount : ℤ)
      (token : Address) (paidAt : ℕ)
  | receiptRequested (paymentId : ℕ) (eventId : Symbol) (emailHash : Option (BytesN 32))
      (requestedAt : ℕ)
  | receiptCommitmentBound (paymentId : ℕ) (eventId : Symbol) (boundAt : ℕ)
  | paymentRefunded (paymentId : ℕ) (eventId : Symbol) (payer : MaskedAddress) (amount : ℤ)
      (token : Address) (refundedAt : ℕ)
  | ticketIssued (ticketId : ℕ) (eventId : Symbol) (owner : MaskedAddress) (paymentId : ℕ)
      (issuedAt : ℕ)
  | revenueWithdrawn (eventId : Symbol) (organizer : MaskedAddress) (amount : ℤ)
      (token recipient : Address) (withdrawnAt : ℕ)
  | escrowAutoReleased (eventId : Symbol) (organizer : Address) (amount : ℤ) (releasedAt : ℕ)
  | platformFeeCollected (eventId : Symbol) (feeAmount organizerAmount : ℤ) (token : Address)
      (collectedAt : ℕ)
  | platformFeeUpdated (admin : Address) (oldBps newBps : ℕ) (updatedAt : ℕ)
  | platformRevenueWithdrawn (eventId : Symbol) (amount : ℤ) (token recipient : Address)
      (withdrawnAt : ℕ)
  | cohostFlagged (eventId : Symbol) (recipient flaggedBy : Address) (flaggedAt : ℕ)
  | flaggedShareResolved (eventId : Symbol) (recipient : Address) (releasedToRecipient : Bool)
      (amount : ℤ) (resolvedAt : ℕ)
  | disputeRaised (eventId : Symbol) (ticketId paymentId reasonCode : ℕ) (raisedAt : ℕ)
  | disputeResolved (eventId : Symbol) (ticketId : ℕ) (refundApproved : Bool) (resolvedAt : ℕ)
  | disputeTimedOut (eventId : Symbol) (ticketId : ℕ) (timedOutAt : ℕ)
  deriving DecidableEq

end Zicket.Payments
