import Zicket.Foundation.KeyedStore
import Zicket.Tickets.Types

/-! Persistent storage of the ticket contract: tickets, the indexes by owner and by event,
recovery keys and linked addresses. Published events are logged. -/

namespace Zicket.Tickets

open Host Foundation

inductive DataKey where
  | ticket (id : ℕ)
  | ownerTicket (a : Address) (id : ℕ)
  | eventTicket (e : Symbol) (id : ℕ)
  | nextTicketId
  | contractVersion
  | admin
  | recoveryKey (id : ℕ)
  | paymentsContract
  | eventContract
  | ownerTicketIndex (a : Address) (index : ℕ)
  | ownerTicketsCount (a : Address)
  | eventTicketIndex (e : Symbol) (index : ℕ)
  | eventTicketsCount (e : Symbol)
  | attendanceCredential (id : ℕ)
  deriving DecidableEq

@[reducible] def DataKey.Val : DataKey → Type
  | .ticket _ => Ticket
  | .ownerTicket _ _ | .nextTicketId | .contractVersion | .ownerTicketIndex _ _
  | .ownerTicketsCount _ | .eventTicketIndex _ _ | .eventTicketsCount _ => ℕ
  | .eventTicket _ _ => Bool
  | .admin | .paymentsContract | .eventContract => Address
  | .recoveryKey _ | .attendanceCredential _ => BytesN 32

structure World where
  storage : Store DataKey DataKey.Val
  events : List ContractEvent

abbrev Attempt (α : Type) := Except (Failure TicketError) α

def require (p : Prop) [Decidable p] (e : TicketError) : Attempt Unit :=
  ensure p (.error e)

def okOr {α : Type} (x : Option α) (e : TicketError) : Attempt α :=
  orFail x (.error e)

@[simp] theorem require_eq_ok {p : Prop} [Decidable p] {e : TicketError} {u : Unit} :
    require p e = .ok u ↔ p :=
  ensure_eq_ok

@[simp] theorem okOr_eq_ok {α : Type} {x : Option α} {e : TicketError} {a : α} :
    okOr x e = .ok a ↔ x = some a :=
  orFail_eq_ok

namespace World

def get (w : World) (k : DataKey) : Option k.Val := w.storage.get k

def set (w : World) (k : DataKey) (v : k.Val) : World :=
  { w with storage := w.storage.set k v }

def remove (w : World) (k : DataKey) : World :=
  { w with storage := w.storage.remove k }

def emit (w : World) (event : ContractEvent) : World :=
  { w with events := event :: w.events }

def getTicket (w : World) (id : ℕ) : Attempt Ticket :=
  okOr (w.get (.ticket id)) .ticketNotFound

def updateTicket (w : World) (ticket : Ticket) : World :=
  w.set (.ticket ticket.ticketId) ticket

def readNextTicketId (w : World) : ℕ := (w.get .nextTicketId).getD 1

def writeNextTicketId (w : World) (nextId : ℕ) : World := w.set .nextTicketId nextId

def getOwnerTicketsCount (w : World) (owner : Address) : ℕ :=
  (w.get (.ownerTicketsCount owner)).getD 0

def addOwnerTicket (w : World) (owner : Address) (id : ℕ) : Attempt World := do
  let count := w.getOwnerTicketsCount owner
  let w := w.set (.ownerTicket owner id) count
  let w := w.set (.ownerTicketIndex owner count) id
  return w.set (.ownerTicketsCount owner) (← u64 (count + 1))

/-- Swap-remove: the last listed ticket moves into the freed slot. -/
def removeOwnerTicket (w : World) (owner : Address) (id : ℕ) : World :=
  let storedIndex := w.get (.ownerTicket owner id)
  let w := w.remove (.ownerTicket owner id)
  match storedIndex with
  | none => w
  | some idx =>
    let count := w.getOwnerTicketsCount owner
    if count = 0 then w.remove (.ownerTicketIndex owner idx)
    else
      let lastIdx := count - 1
      let w :=
        if idx < lastIdx then
          match w.get (.ownerTicketIndex owner lastIdx) with
          | some lastTicketId =>
            (w.set (.ownerTicketIndex owner idx) lastTicketId).set
              (.ownerTicket owner lastTicketId) idx
          | none => w
        else w
      (w.remove (.ownerTicketIndex owner lastIdx)).set (.ownerTicketsCount owner) lastIdx

def getTicketsByOwner (w : World) (owner : Address) : List ℕ :=
  (List.range (w.getOwnerTicketsCount owner)).filterMap fun i => w.get (.ownerTicketIndex owner i)

def getEventTicketsCount (w : World) (e : Symbol) : ℕ := (w.get (.eventTicketsCount e)).getD 0

def addEventTicket (w : World) (e : Symbol) (id : ℕ) : Attempt World := do
  let w := w.set (.eventTicket e id) true
  let count := w.getEventTicketsCount e
  let w := w.set (.eventTicketIndex e count) id
  return w.set (.eventTicketsCount e) (← u64 (count + 1))

def getTicketsByEvent (w : World) (e : Symbol) : List ℕ :=
  (List.range (w.getEventTicketsCount e)).filterMap fun i => w.get (.eventTicketIndex e i)

def getRecoveryKey (w : World) (id : ℕ) : Option (BytesN 32) := w.get (.recoveryKey id)

def setRecoveryKey (w : World) (id : ℕ) (publicKey : BytesN 32) : World :=
  w.set (.recoveryKey id) publicKey

def removeRecoveryKey (w : World) (id : ℕ) : World := w.remove (.recoveryKey id)

def setAttendanceCredential (w : World) (id : ℕ) (hash : BytesN 32) : World :=
  w.set (.attendanceCredential id) hash

def getAdmin (w : World) : Attempt Address := okOr (w.get .admin) .unauthorized

def getPaymentsContract (w : World) : Attempt Address :=
  okOr (w.get .paymentsContract) .unauthorized

def getContractVersion (w : World) : ℕ := (w.get .contractVersion).getD 1

end World

end Zicket.Tickets
