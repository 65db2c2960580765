import Zicket.Payments.World

/-! Published events. Identities are masked by the stored privacy level of the
payment or ticket, or by the event's emission level for withdrawals. -/

namespace Zicket.Payments

open Host

def zeroHash : BytesN 32 := Vector.replicate 32 0

/-- `mask_address` of the privacy utilities. -/
def maskAddress (env : Env) (a : Address) : PrivacyLevel → MaskedAddress
  | .standard => .full a
  | .priv => .partially ((env.crypto.addressXdr a).take 8)
  | .anonymous => .hashed (env.crypto.sha256 (env.crypto.addressXdr a))

def maskedPaymentIdentity (payment : PaymentRecord) : MaskedAddress :=
  match payment.privacyLevel with
  | .standard => (payment.payer.map .full).getD (.hashed zeroHash)
  | .priv => .hashed (payment.hashedWallet.getD zeroHash)
  | .anonymous => .hashed (payment.nullifierCommitment.getD zeroHash)

def maskedTicketIdentity (ticket : Ticket) : MaskedAddress :=
  match ticket.privacyLevel with
  | .standard => (ticket.owner.map .full).getD (.hashed zeroHash)
  | .priv => .hashed (ticket.hashedOwner.getD zeroHash)
  | .anonymous => .hashed (ticket.nullifierCommitment.getD zeroHash)

namespace World

def emitPaymentReceived (w : World) (payment : PaymentRecord) : World :=
  w.emit (.paymentReceived payment.paymentId payment.eventId (maskedPaymentIdentity payment)
    payment.amount payment.token payment.paidAt)

def emitPaymentReceiptRequested (w : World) (env : Env) (paymentId : ℕ) (e : Symbol)
    (emailHash : Option (BytesN 32)) : World :=
  w.emit (.receiptRequested paymentId e emailHash env.timestamp)

def emitReceiptCommitmentBound (w : World) (env : Env) (paymentId : ℕ) (e : Symbol) : World :=
  w.emit (.receiptCommitmentBound paymentId e env.timestamp)

def emitPaymentRefunded (w : World) (env : Env) (payment : PaymentRecord) (amount : ℤ) : World :=
  w.emit (.paymentRefunded payment.paymentId payment.eventId (maskedPaymentIdentity payment)
    amount payment.token env.timestamp)

def emitTicketIssued (w : World) (env : Env) (ticket : Ticket) : World :=
  w.emit (.ticketIssued ticket.ticketId ticket.eventId (maskedTicketIdentity ticket)
    ticket.paymentId env.timestamp)

def emitRevenueWithdrawn (w : World) (env : Env) (e : Symbol) (organizer : Address) (amount : ℤ)
    (token recipient : Address) (level : PrivacyLevel) : World :=
  w.emit (.revenueWithdrawn e (maskAddress env organizer level) amount token recipient
    env.timestamp)

def emitEscrowAutoReleased (w : World) (env : Env) (e : Symbol) (organizer : Address)
    (amount : ℤ) : World :=
  w.emit (.escrowAutoReleased e organizer amount env.timestamp)

def emitPlatformFeeCollected (w : World) (env : Env) (e : Symbol) (feeAmount organizerAmount : ℤ)
    (token : Address) : World :=
  w.emit (.platformFeeCollected e feeAmount organizerAmount token env.timestamp)

def emitPlatformFeeUpdated (w : World) (env : Env) (admin : Address) (oldBps newBps : ℕ) : World :=
  w.emit (.platformFeeUpdated admin oldBps newBps env.timestamp)

def emitPlatformRevenueWithdrawn (w : World) (env : Env) (e : Symbol) (amount : ℤ)
    (token recipient : Address) : World :=
  w.emit (.platformRevenueWithdrawn e amount token recipient env.timestamp)

def emitCohostFlagged (w : World) (env : Env) (e : Symbol) (recipient flaggedBy : Address) :
    World :=
  w.emit (.cohostFlagged e recipient flaggedBy env.timestamp)

def emitFlaggedShareResolved (w : World) (env : Env) (e : Symbol) (recipient : Address)
    (releasedToRecipient : Bool) (amount : ℤ) : World :=
  w.emit (.flaggedShareResolved e recipient releasedToRecipient amount env.timestamp)

def emitDisputeRaised (w : World) (env : Env) (e : Symbol)
    (ticketId paymentId reasonCode : ℕ) : World :=
  w.emit (.disputeRaised e ticketId paymentId reasonCode env.timestamp)

def emitDisputeResolved (w : World) (env : Env) (e : Symbol) (ticketId : ℕ)
    (refundApproved : Bool) : World :=
  w.emit (.disputeResolved e ticketId refundApproved env.timestamp)

def emitDisputeTimedOut (w : World) (env : Env) (e : Symbol) (ticketId : ℕ) : World :=
  w.emit (.disputeTimedOut e ticketId env.timestamp)

end World

end Zicket.Payments
