import Zicket.Host.Env

/-! Records, error codes and events of the ticket contract. -/

namespace Zicket.Tickets

open Host

inductive TicketStatus where
  | valid | used | cancelled
  deriving DecidableEq, Repr

structure Ticket where
  ticketId : ℕ
  eventId : Symbol
  organizer : Address
  owner : Address
  issuedAt : ℕ
  status : TicketStatus
  isTransferable : Bool
  isUsed : Bool
  deriving DecidableEq

inductive TicketError where
  | ticketNotFound | unauthorized | invalidInput | ticketNotTransferable | transferToSelf
  | ticketAlreadyUsed | eventNotActive | unsupportedVersion | recoveryKeyNotFound
  deriving DecidableEq, Repr

/-- What the contract publishes; the constructor stands for the event topic. -/
inductive ContractEvent where
  | ticketTransferred (ticketId : ℕ) (eventId : Symbol) (src dst : Address) (transferredAt : ℕ)
  | ticketUsed (ticketId : ℕ) (eventId : Symbol) (owner : Address) (usedAt : ℕ)
  | ticketMinted (ticketId : ℕ) (eventId : Symbol) (owner organizer : Address) (issuedAt : ℕ)
  | ticketCancelled (ticketId : ℕ) (eventId : Symbol) (owner : Address) (cancelledAt : ℕ)
  | ticketRecoveryKeySet (ticketId : ℕ) (owner : Address) (setAt : ℕ)
  | ticketRecovered (ticketId : ℕ) (oldOwner newOwner : Address) (recoveredAt : ℕ)
  | attendanceCredentialIssued (ticketId : ℕ) (eventId : Symbol) (owner : Address)
      (hash : BytesN 32) (issuedAt : ℕ)
  deriving DecidableEq

end Zicket.Tickets
