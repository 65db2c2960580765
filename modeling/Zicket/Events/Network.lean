import Zicket.Foundation.KeyedStore
import Zicket.Events.Types
import Zicket.Payments.Admin
import Zicket.Tickets.Types

/-! The state of the event contract, and the contracts it calls. What is outside has a state
of its own, of any type; a call sees nothing of the event contract but its arguments. -/

namespace Zicket.Events

open Host Foundation
open Payments (PrivacyLevel PaymentPrivacy EventTerms)

inductive DataKey where
  | event (e : Symbol)
  | registration (e : Symbol) (a : Address)
  | reservation (e : Symbol) (a : Address)
  | admin
  | ticketContract
  | paymentsContract
  | eventPrivacy (e : Symbol)
  | contractVersion
  | freeClaimCount (e : Symbol) (a : Address)
  | lastFreeClaim (e : Symbol) (a : Address)
  | eventClaimSettings (e : Symbol)
  | postponement (e : Symbol)
  | postponeCount (e : Symbol)
  | eventAnonWindow (e : Symbol)
  | eventAnonSettings (e : Symbol)
  | anonymousClaimVerifier
  | anonymousNullifier (e : Symbol) (nullifier : BytesN 32)
  | zkNullifier (e : Symbol) (nullifier : BytesN 32)
  | zkVerificationConfig (e : Symbol)
  | eventAttendeeIndex (e : Symbol) (index : ℕ)
  | eventAttendeesCount (e : Symbol)
  deriving DecidableEq

@[reducible] def DataKey.Val : DataKey → Type
  | .event _ => Event
  | .registration _ _ | .zkNullifier _ _ => Bool
  | .reservation _ _ => Reservation
  | .admin | .ticketContract | .paymentsContract | .anonymousClaimVerifier
  | .eventAttendeeIndex _ _ => Address
  | .eventPrivacy _ => PrivacyLevel
  | .contractVersion | .freeClaimCount _ _ | .lastFreeClaim _ _ | .postponeCount _
  | .eventAttendeesCount _ => ℕ
  | .eventClaimSettings _ => ClaimSettings
  | .postponement _ => PostponementInfo
  | .eventAnonWindow _ => AnonWindowState
  | .eventAnonSettings _ => AnonClaimSettings
  | .anonymousNullifier _ _ => BytesN 32
  | .zkVerificationConfig _ => ZkVerificationConfig

/-- The entry points of the linked contracts, at a contract address. No answer is a trap,
which ends the calling transaction; the two calls made with `try_` always answer. -/
structure Network (σ : Type) where
  networkId : BytesN 32
  getAcceptedToken : Env → Address → σ → Option (Address × σ)
  syncEventConfig : Env → Address → Address → Symbol → EventTerms → σ → Option σ
  syncRevenueSplits : Env → Address → Address → Symbol → List (Address × ℕ) → σ → Option σ
  cancelEvent : Env → Address → Symbol → Address → σ → Option σ
  postponeEvent : Env → Address → Symbol → Address → ℕ → σ → Option σ
  resumeEvent : Env → Address → Symbol → Address → σ → Option σ
  paymentsTicket : Env → Address → ℕ → σ → Option (Payments.Ticket × σ)
  requestPostponementRefund : Env → Address → Address → ℕ → σ → Option σ
  payForTicket : Env → Address → ℕ → Address → Symbol → ℤ → Option (BytesN 32) → Address →
    PaymentPrivacy → Option (BytesN 32) → Option (BytesN 32) → σ → Option σ
  withdrawRevenue : Env → Address → Symbol → Address → σ → Option σ
  withdrawSplit : Env → Address → Address → Symbol → σ → Option σ
  flagCohost : Env → Address → Address → Symbol → Address → σ → Option σ
  trySetEventContract : Env → Address → Address → Address → σ → σ
  mintTicket : Env → Address → Symbol → Address → Address → σ → Option σ
  batchMintTicket : Env → Address → Symbol → Address → Address → ℕ → σ → Option σ
  getTicketsByOwner : Env → Address → Address → σ → Option (List ℕ × σ)
  getTicket : Env → Address → ℕ → σ → Option (Tickets.Ticket × σ)
  cancelTicket : Env → Address → ℕ → Address → σ → Option σ
  tryVerify : Env → Address → Bytes → Bytes → σ → Bool × σ

structure World (σ : Type) where
  storage : Store DataKey DataKey.Val
  outside : σ
  events : List ContractEvent

abbrev Attempt (α : Type) := Except (Failure EventError) α

def fail {α : Type} (e : EventError) : Attempt α := .error (.error e)

def require (p : Prop) [Decidable p] (e : EventError) : Attempt Unit :=
  ensure p (.error e)

def okOr {α : Type} (x : Option α) (e : EventError) : Attempt α :=
  orFail x (.error e)

@[simp] theorem fail_ne_ok {α : Type} {e : EventError} {a : α} : fail e ≠ .ok a := by
  simp [fail]

@[simp] theorem require_eq_ok {p : Prop} [Decidable p] {e : EventError} {u : Unit} :
    require p e = .ok u ↔ p :=
  ensure_eq_ok

@[simp] theorem okOr_eq_ok {α : Type} {x : Option α} {e : EventError} {a : α} :
    okOr x e = .ok a ↔ x = some a :=
  orFail_eq_ok

namespace World

variable {σ α : Type}

def get (w : World σ) (k : DataKey) : Option k.Val := w.storage.get k

def has (w : World σ) (k : DataKey) : Bool := w.storage.has k

def set (w : World σ) (k : DataKey) (v : k.Val) : World σ :=
  { w with storage := w.storage.set k v }

def remove (w : World σ) (k : DataKey) : World σ :=
  { w with storage := w.storage.remove k }

def emit (w : World σ) (event : ContractEvent) : World σ :=
  { w with events := event :: w.events }

def ask (w : World σ) (call : σ → Option (α × σ)) : Attempt (α × World σ) :=
  match call w.outside with
  | some (answer, outside) => .ok (answer, { w with outside })
  | none => .error .trap

def tell (w : World σ) (call : σ → Option σ) : Attempt (World σ) :=
  match call w.outside with
  | some outside => .ok { w with outside }
  | none => .error .trap

@[simp] theorem ask_eq_ok {w : World σ} {call : σ → Option (α × σ)} {reply : α × World σ} :
    w.ask call = .ok reply ↔
      ∃ outside, call w.outside = some (reply.1, outside) ∧ { w with outside } = reply.2 := by
  obtain ⟨answer, w'⟩ := reply
  unfold ask
  cases call w.outside with
  | none => simp
  | some result => simp [Prod.ext_iff, and_assoc]

@[simp] theorem tell_eq_ok {w w' : World σ} {call : σ → Option σ} :
    w.tell call = .ok w' ↔ ∃ outside, call w.outside = some outside ∧ { w with outside } = w' := by
  unfold tell
  cases call w.outside <;> simp

theorem tell_storage {w w' : World σ} {call : σ → Option σ} (h : w.tell call = .ok w') :
    w'.storage = w.storage := by
  obtain ⟨_, -, rfl⟩ := tell_eq_ok.mp h
  rfl

end World

end Zicket.Events
