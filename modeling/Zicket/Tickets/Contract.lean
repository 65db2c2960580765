import Zicket.Foundation.Run
import Zicket.Tickets.Storage

/-! The operations of the ticket contract, and the contract as a machine. -/

namespace Zicket.Tickets

open Host Foundation

/-- The event contract mints once it is linked, else the payments contract once that is
linked, else the organizer. -/
def requireMinter (env : Env) (w : World) (organizer : Address) : Attempt Unit :=
  match w.get .eventContract with
  | some eventContract => requireAuth env eventContract
  | none =>
    match w.get .paymentsContract with
    | some paymentsContract => requireAuth env paymentsContract
    | none => requireAuth env organizer

def issueTicket (env : Env) (e : Symbol) (organizer owner : Address) (ticketId : ℕ) (w : World) :
    Attempt World := do
  let ticket : Ticket :=
    { ticketId, eventId := e, organizer, owner, issuedAt := env.timestamp, status := .valid,
      isTransferable := true, isUsed := false }
  let w := w.set (.ticket ticketId) ticket
  let w ← w.addOwnerTicket owner ticketId
  let w ← w.addEventTicket e ticketId
  return w.emit (.ticketMinted ticketId e owner organizer env.timestamp)

def mintTicket (env : Env) (e : Symbol) (organizer owner : Address) (w : World) :
    Attempt (ℕ × World) := do
  requireMinter env w organizer
  let ticketId := w.readNextTicketId
  let w ← issueTicket env e organizer owner ticketId w
  return (ticketId, w.writeNextTicketId (← u64 (ticketId + 1)))

/-- The loop of `batch_mint_ticket`: the minted ids, and the next id. -/
def issueTickets (env : Env) (e : Symbol) (organizer owner : Address) :
    ℕ → ℕ → World → Attempt (List ℕ × ℕ × World)
  | 0, nextId, w => return ([], nextId, w)
  | count + 1, nextId, w => do
    let w ← issueTicket env e organizer owner nextId w
    let (ticketIds, lastId, w) ← issueTickets env e organizer owner count (← u64 (nextId + 1)) w
    return (nextId :: ticketIds, lastId, w)

def batchMintTicket (env : Env) (e : Symbol) (organizer owner : Address) (count : ℕ) (w : World) :
    Attempt (List ℕ × World) := do
  require (count ≠ 0 ∧ count ≤ 100) .invalidInput
  requireMinter env w organizer
  let (ticketIds, nextId, w) ←
    issueTickets env e organizer owner count w.readNextTicketId w
  return (ticketIds, w.writeNextTicketId nextId)

def transferTicket (env : Env) (src dst : Address) (ticketId : ℕ) (w : World) :
    Attempt World := do
  requireAuth env src
  require (src ≠ dst) .transferToSelf
  let ticket ← w.getTicket ticketId
  require (ticket.owner = src) .unauthorized
  require (ticket.isTransferable = true) .ticketNotTransferable
  require (ticket.isUsed = false) .ticketNotTransferable
  require (ticket.status = .valid) .ticketNotTransferable
  let w := w.set (.ticket ticketId) { ticket with owner := dst }
  let w := w.removeOwnerTicket src ticketId
  let w ← w.addOwnerTicket dst ticketId
  return w.emit (.ticketTransferred ticketId ticket.eventId src dst env.timestamp)

def useTicket (env : Env) (organizer owner : Address) (ticketId : ℕ) (w : World) :
    Attempt World := do
  requireAuth env organizer
  requireAuth env owner
  let ticket ← w.getTicket ticketId
  require (ticket.organizer = organizer) .unauthorized
  require (ticket.owner = owner) .unauthorized
  require (ticket.isUsed = false) .ticketAlreadyUsed
  require (ticket.status ≠ .cancelled) .eventNotActive
  require (ticket.status ≠ .used) .ticketAlreadyUsed
  let w := w.set (.ticket ticketId) { ticket with isUsed := true, status := .used }
  let hash := env.crypto.sha256 (env.crypto.credentialXdr ticket.eventId ticketId ticket.owner)
  let w := w.setAttendanceCredential ticketId hash
  let w := w.emit (.ticketUsed ticketId ticket.eventId ticket.owner env.timestamp)
  return w.emit
    (.attendanceCredentialIssued ticketId ticket.eventId ticket.owner hash env.timestamp)

def cancelTicket (env : Env) (ticketId : ℕ) (caller : Address) (w : World) : Attempt World := do
  requireAuth env caller
  let ticket ← w.getTicket ticketId
  require (caller = ticket.owner) .unauthorized
  require (ticket.isUsed = false) .ticketAlreadyUsed
  require (ticket.status = .valid) .ticketAlreadyUsed
  let w := w.updateTicket { ticket with status := .cancelled }
  return w.emit (.ticketCancelled ticketId ticket.eventId ticket.owner env.timestamp)

def setRecoveryKey (env : Env) (owner : Address) (ticketId : ℕ) (publicKey : BytesN 32)
    (w : World) : Attempt World := do
  requireAuth env owner
  let ticket ← w.getTicket ticketId
  require (ticket.owner = owner) .unauthorized
  require (ticket.isUsed = false ∧ ticket.status = .valid) .ticketNotTransferable
  let w := w.setRecoveryKey ticketId publicKey
  return w.emit (.ticketRecoveryKeySet ticketId owner env.timestamp)

def recoverTicket (env : Env) (ticketId : ℕ) (newOwner : Address) (signature : BytesN 64)
    (w : World) : Attempt World := do
  let ticket ← w.getTicket ticketId
  require (ticket.isUsed = false ∧ ticket.status = .valid) .ticketNotTransferable
  let publicKey ← okOr (w.getRecoveryKey ticketId) .recoveryKeyNotFound
  -- the signed message is the new owner's address alone
  ensure (env.crypto.ed25519Verify publicKey (env.crypto.addressXdr newOwner) signature = true)
    .trap
  let oldOwner := ticket.owner
  let w := w.updateTicket { ticket with owner := newOwner }
  let w := w.removeOwnerTicket oldOwner ticketId
  let w ← w.addOwnerTicket newOwner ticketId
  let w := w.removeRecoveryKey ticketId
  return w.emit (.ticketRecovered ticketId oldOwner newOwner env.timestamp)

def initializeContract (env : Env) (admin paymentsContract : Address) (w : World) :
    Attempt World := do
  require (w.get .admin = none) .unauthorized
  requireAuth env admin
  return (w.set .admin admin).set .paymentsContract paymentsContract

def requireAdmin (env : Env) (w : World) (admin : Address) : Attempt Unit := do
  requireAuth env admin
  let storedAdmin ← w.getAdmin
  require (admin = storedAdmin) .unauthorized

def setPaymentsContract (env : Env) (admin paymentsContract : Address) (w : World) :
    Attempt World := do
  requireAdmin env w admin
  return w.set .paymentsContract paymentsContract

def setEventContract (env : Env) (admin eventContract : Address) (w : World) : Attempt World := do
  requireAdmin env w admin
  return w.set .eventContract eventContract

def adminTransferTicket (env : Env) (admin src dst : Address) (ticketId : ℕ) (w : World) :
    Attempt World := do
  requireAuth env admin
  let paymentsContract ← w.getPaymentsContract
  require (admin = paymentsContract) .unauthorized
  let ticket ← w.getTicket ticketId
  require (ticket.owner = src) .unauthorized
  require (ticket.isTransferable = true ∧ ticket.isUsed = false ∧ ticket.status = .valid)
    .ticketNotTransferable
  let w := w.updateTicket { ticket with owner := dst }
  let w := w.removeOwnerTicket src ticketId
  let w ← w.addOwnerTicket dst ticketId
  return w.emit (.ticketTransferred ticketId ticket.eventId src dst env.timestamp)

def migrate (env : Env) (caller : Address) (w : World) : Attempt (ℕ × World) := do
  requireAdmin env w caller
  let currentVersion := w.getContractVersion
  require (currentVersion ≤ 2) .unsupportedVersion
  return (currentVersion + 1, w.set .contractVersion (currentVersion + 1))

inductive Call where
  | mintTicket (e : Symbol) (organizer owner : Address)
  | batchMintTicket (e : Symbol) (organizer owner : Address) (count : ℕ)
  | transferTicket (src dst : Address) (ticketId : ℕ)
  | useTicket (organizer owner : Address) (ticketId : ℕ)
  | cancelTicket (ticketId : ℕ) (caller : Address)
  | setRecoveryKey (owner : Address) (ticketId : ℕ) (publicKey : BytesN 32)
  | recoverTicket (ticketId : ℕ) (newOwner : Address) (signature : BytesN 64)
  | initialise (admin paymentsContract : Address)
  | setPaymentsContract (admin paymentsContract : Address)
  | setEventContract (admin eventContract : Address)
  | adminTransferTicket (admin src dst : Address) (ticketId : ℕ)
  | migrate (caller : Address)

def Call.exec (env : Env) (w : World) : Call → Attempt World
  | .mintTicket e organizer owner => do
    let (_, w) ← Tickets.mintTicket env e organizer owner w
    return w
  | .batchMintTicket e organizer owner count => do
    let (_, w) ← Tickets.batchMintTicket env e organizer owner count w
    return w
  | .transferTicket src dst ticketId => Tickets.transferTicket env src dst ticketId w
  | .useTicket organizer owner ticketId => Tickets.useTicket env organizer owner ticketId w
  | .cancelTicket ticketId caller => Tickets.cancelTicket env ticketId caller w
  | .setRecoveryKey owner ticketId publicKey =>
    Tickets.setRecoveryKey env owner ticketId publicKey w
  | .recoverTicket ticketId newOwner signature =>
    Tickets.recoverTicket env ticketId newOwner signature w
  | .initialise admin paymentsContract => initializeContract env admin paymentsContract w
  | .setPaymentsContract admin paymentsContract =>
    Tickets.setPaymentsContract env admin paymentsContract w
  | .setEventContract admin eventContract => Tickets.setEventContract env admin eventContract w
  | .adminTransferTicket admin src dst ticketId =>
    Tickets.adminTransferTicket env admin src dst ticketId w
  | .migrate caller => do
    let (_, w) ← Tickets.migrate env caller w
    return w

def Call.succeeds (env : Env) (w : World) (c : Call) : Bool := (c.exec env w).isOk

structure Step where
  invocation : Invocation
  call : Call

def World.next (d : Deployment) (w : World) (step : Step) : World :=
  commit w (step.call.exec ⟨d, step.invocation⟩ w)

def deployed : World := { storage := .empty, events := [] }

namespace Sample

/-- A signature carries the first byte of its key and then the message. -/
def crypto : Crypto where
  addressXdr a := [UInt8.ofNat a.id]
  symbolXdr e := [UInt8.ofNat e.id]
  u64Xdr n := [UInt8.ofNat n]
  credentialXdr e n a := [UInt8.ofNat e.id, UInt8.ofNat n, UInt8.ofNat a.id]
  sha256 _ := Vector.replicate 32 0
  ed25519Verify publicKey message signature :=
    signature.toList.take 2 == publicKey.toList.take 1 ++ message

def deployment : Deployment := { currentContract := ⟨0⟩, crypto }

def organizer : Address := ⟨2⟩
def bob : Address := ⟨5⟩
def amy : Address := ⟨6⟩
def concert : Symbol := ⟨1⟩

def invocation : Invocation :=
  { sequence := 1, timestamp := 1, authorized := fun _ => true,
    adminTransferTicket := fun _ _ _ _ _ => true }

def call (call : Call) : Step := { invocation, call }

def publicKey (n : UInt8) : BytesN 32 := Vector.replicate 32 n

def signature (n : UInt8) : BytesN 64 := Vector.replicate 64 n

end Sample

end Zicket.Tickets
