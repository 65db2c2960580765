import Zicket.Foundation.Fungible
import Zicket.Foundation.KeyedStore
import Zicket.Payments.Types

/-! The state a call of the payments contract reads and writes: the contract's
persistent storage, keyed as in the source, and the token balances.
Two logs record what left no other trace: published events and token transfers. -/

namespace Zicket.Payments

open Host Foundation

inductive DataKey where
  | admin
  | acceptedToken
  | eventContract
  | eventPrivacy (e : Symbol)
  | eventConfig (e : Symbol)
  | payment (id : ℕ)
  | ticket (id : ℕ)
  | eventRevenue (e : Symbol)
  | eventTokenRevenue (e : Symbol) (t : Address)
  | supportedToken (t : Address)
  | eventStatus (e : Symbol)
  | eventPayment (e : Symbol) (id : ℕ)
  | ownerTicket (a : Address) (id : ℕ)
  | payerPayment (a : Address) (id : ℕ)
  | withdrawalRecord (e : Symbol) (index : ℕ)
  | withdrawalCount (e : Symbol)
  | eventToken (e : Symbol) (t : Address)
  | eventTokenIndex (e : Symbol) (index : ℕ)
  | eventTokenCount (e : Symbol)
  | nextPaymentId
  | nextTicketId
  | platformFeeBps
  | platformWallet
  | platformRevenue (e : Symbol)
  | emissionPrivacy (e : Symbol)
  | escrowMeta (e : Symbol)
  | processedNonce (a : Address) (nonce : ℕ)
  | contractVersion
  | userEventTickets (e : Symbol) (a : Address)
  | paused
  | postponeDeadline (e : Symbol)
  | eventSplits (e : Symbol)
  | splitSettlement (e : Symbol)
  | splitWithdrawn (e : Symbol) (a : Address)
  | splitFlagged (e : Symbol) (a : Address)
  | resaleListing (id : ℕ)
  | ticketContract
  | processedNonceHash (hash : BytesN 32) (nonce : ℕ)
  | userEventTicketsHash (e : Symbol) (hash : BytesN 32)
  | spentNullifier (commitment : BytesN 32)
  | dispute (id : ℕ)
  | eventDisputes (e : Symbol)
  | totalPayments (e : Symbol)
  | totalRefunds (e : Symbol)
  | totalWithdrawn (e : Symbol)
  | eventPaymentIndex (e : Symbol) (index : ℕ)
  | eventPaymentsCount (e : Symbol)
  | payerPaymentIndex (a : Address) (index : ℕ)
  | payerPaymentsCount (a : Address)
  | eventTokenVolume (e : Symbol) (t : Address)
  | totalTokenRefunds (e : Symbol) (t : Address)
  | totalTokenWithdrawn (e : Symbol) (t : Address)
  | ownerTicketIndex (a : Address) (index : ℕ)
  | ownerTicketsCount (a : Address)
  | eventPayments (e : Symbol)
  deriving DecidableEq

@[reducible] def DataKey.Val : DataKey → Type
  | .admin | .acceptedToken | .eventContract | .platformWallet | .ticketContract => Address
  | .eventPrivacy _ => EventPrivacyConfig
  | .eventConfig _ => EventConfig
  | .payment _ => PaymentRecord
  | .ticket _ => Ticket
  | .eventRevenue _ | .eventTokenRevenue _ _ | .platformRevenue _ | .splitWithdrawn _ _
  | .totalPayments _ | .totalRefunds _ | .totalWithdrawn _ | .eventTokenVolume _ _
  | .totalTokenRefunds _ _ | .totalTokenWithdrawn _ _ => ℤ
  | .supportedToken _ | .eventPayment _ _ | .payerPayment _ _ | .eventToken _ _
  | .processedNonce _ _ | .paused | .splitFlagged _ _ | .processedNonceHash _ _
  | .spentNullifier _ => Bool
  | .eventStatus _ => EventStatus
  | .ownerTicket _ _ | .withdrawalCount _ | .eventTokenCount _ | .nextPaymentId
  | .nextTicketId | .platformFeeBps | .contractVersion | .userEventTickets _ _
  | .postponeDeadline _ | .userEventTicketsHash _ _ | .eventPaymentIndex _ _
  | .eventPaymentsCount _ | .payerPaymentIndex _ _ | .payerPaymentsCount _
  | .ownerTicketIndex _ _ | .ownerTicketsCount _ => ℕ
  | .withdrawalRecord _ _ => WithdrawalRecord
  | .eventTokenIndex _ _ => Address
  | .emissionPrivacy _ => PrivacyLevel
  | .escrowMeta _ => EscrowMetadata
  | .eventSplits _ => List RevenueSplit
  | .splitSettlement _ => SplitSettlement
  | .resaleListing _ => ResaleListing
  | .dispute _ => DisputeRecord
  | .eventDisputes _ | .eventPayments _ => List ℕ

/-- What a token transfer was made for; the log keeps it, no code reads it. -/
inductive Purpose where
  | ticketPayment (payment : ℕ)
  | refund (payment : ℕ)
  | revenue
  | splitShare (recipient : Address)
  | platformSweep
  | resalePrice (ticket : ℕ)
  | resaleProceeds (ticket : ℕ)
  deriving DecidableEq, Repr

structure Transfer where
  token : Address
  src : Address
  dst : Address
  amount : ℤ
  eventId : Symbol
  purpose : Purpose
  deriving DecidableEq, Repr

structure World where
  storage : Store DataKey DataKey.Val
  balances : Balances Address Address
  transfers : List Transfer
  events : List ContractEvent

abbrev Attempt (α : Type) := Except (Failure PaymentError) α

def fail {α : Type} (e : PaymentError) : Attempt α := .error (.error e)

def require (p : Prop) [Decidable p] (e : PaymentError) : Attempt Unit :=
  ensure p (.error e)

def okOr {α : Type} (x : Option α) (e : PaymentError) : Attempt α :=
  orFail x (.error e)

@[simp] theorem fail_ne_ok {α : Type} {e : PaymentError} {a : α} : fail e ≠ .ok a := by
  simp [fail]

@[simp] theorem require_eq_ok {p : Prop} [Decidable p] {e : PaymentError} {u : Unit} :
    require p e = .ok u ↔ p :=
  ensure_eq_ok

@[simp] theorem okOr_eq_ok {α : Type} {x : Option α} {e : PaymentError} {a : α} :
    okOr x e = .ok a ↔ x = some a :=
  orFail_eq_ok

namespace World

def get (w : World) (k : DataKey) : Option k.Val := w.storage.get k

def has (w : World) (k : DataKey) : Bool := w.storage.has k

def set (w : World) (k : DataKey) (v : k.Val) : World :=
  { w with storage := w.storage.set k v }

def remove (w : World) (k : DataKey) : World :=
  { w with storage := w.storage.remove k }

def emit (w : World) (event : ContractEvent) : World :=
  { w with events := event :: w.events }

/-- A call of the token contract; it traps when the token refuses. -/
def transfer (w : World) (tr : Transfer) : Attempt World :=
  match w.balances.transfer tr.token tr.src tr.dst tr.amount with
  | some balances => .ok { w with balances, transfers := tr :: w.transfers }
  | none => .error .trap

end World

end Zicket.Payments
