import Zicket.Linked.System

/-! The factory: it deploys event contracts, links each with its ticket contract and its payments
contract, and keeps a registry of them. The host derives the address of a contract from its
deployer and the salt, and refuses one that is taken. The code that is deployed, stored under a
hash, is the event contract's. -/

namespace Zicket.Factory

open Host Foundation
open Payments (MaskedAddress maskAddress)

inductive FactoryError where
  | unauthorized
  | eventAlreadyDeployed
  | eventNotFoundInRegistry
  | notInitialized
  | migrationFailed
  | unsupportedVersion
  deriving DecidableEq, Repr

structure DeployedEvent where
  eventId : Symbol
  contractAddress : Address
  organizer : Address
  deployedAt : ℕ
  deriving DecidableEq

inductive DataKey where
  | admin
  | eventWasm
  | deployedEvent (e : Symbol)
  | allEvents
  | organizerEvents (a : Address)
  | ticketContract
  | paymentsContract
  | contractVersion
  deriving DecidableEq

@[reducible] def DataKey.Val : DataKey → Type
  | .admin | .ticketContract | .paymentsContract => Address
  | .eventWasm => BytesN 32
  | .deployedEvent _ => DeployedEvent
  | .allEvents | .organizerEvents _ => List Symbol
  | .contractVersion => ℕ

inductive ContractEvent where
  | factoryInitialized (admin : Address)
  | eventDeployed (e : Symbol) (contractAddress : Address) (organizer : MaskedAddress)

structure Instance where
  storage : Store Events.DataKey Events.DataKey.Val
  events : List Events.ContractEvent

/-- The factory, the event contracts at their addresses, and what they are linked with. -/
structure World (σ : Type) where
  storage : Store DataKey DataKey.Val
  instances : Address → Option Instance
  outside : σ
  events : List ContractEvent

abbrev Attempt (α : Type) := Except (Failure FactoryError) α

def require (p : Prop) [Decidable p] (e : FactoryError) : Attempt Unit :=
  ensure p (.error e)

def okOr {α : Type} (x : Option α) (e : FactoryError) : Attempt α :=
  orFail x (.error e)

@[simp] theorem require_eq_ok {p : Prop} [Decidable p] {e : FactoryError} {u : Unit} :
    require p e = .ok u ↔ p :=
  ensure_eq_ok

@[simp] theorem okOr_eq_ok {α : Type} {x : Option α} {e : FactoryError} {a : α} :
    okOr x e = .ok a ↔ x = some a :=
  orFail_eq_ok

variable {σ : Type}

def Instance.enter (i : Instance) (outside : σ) : Events.World σ :=
  { storage := i.storage, outside, events := i.events }

namespace World

def get (w : World σ) (k : DataKey) : Option k.Val := w.storage.get k

def has (w : World σ) (k : DataKey) : Bool := w.storage.has k

def set (w : World σ) (k : DataKey) (v : k.Val) : World σ :=
  { w with storage := w.storage.set k v }

def emit (w : World σ) (event : ContractEvent) : World σ :=
  { w with events := event :: w.events }

def leave (w : World σ) (address : Address) (i : Events.World σ) : World σ :=
  { w with
    instances := Function.update w.instances address (some ⟨i.storage, i.events⟩)
    outside := i.outside }

def isInitialized (w : World σ) : Bool :=
  w.has .admin && w.has .eventWasm && w.has .ticketContract && w.has .paymentsContract

def getAdmin (w : World σ) : Attempt Address := okOr (w.get .admin) .notInitialized

def getEventWasmHash (w : World σ) : Attempt (BytesN 32) := okOr (w.get .eventWasm) .notInitialized

def getTicketContract (w : World σ) : Attempt Address :=
  okOr (w.get .ticketContract) .notInitialized

def getPaymentsContract (w : World σ) : Attempt Address :=
  okOr (w.get .paymentsContract) .notInitialized

def getDeployedEvent (w : World σ) (e : Symbol) : Attempt DeployedEvent :=
  okOr (w.get (.deployedEvent e)) .eventNotFoundInRegistry

def getAllEventIds (w : World σ) : List Symbol := (w.get .allEvents).getD []

def getOrganizerEvents (w : World σ) (organizer : Address) : List Symbol :=
  (w.get (.organizerEvents organizer)).getD []

def saveDeployedEvent (w : World σ) (event : DeployedEvent) : Attempt (World σ) := do
  require (w.has (.deployedEvent event.eventId) = false) .eventAlreadyDeployed
  let w := w.set (.deployedEvent event.eventId) event
  let w := w.set .allEvents (w.getAllEventIds ++ [event.eventId])
  return w.set (.organizerEvents event.organizer)
    (w.getOrganizerEvents event.organizer ++ [event.eventId])

def getContractVersion (w : World σ) : ℕ := (w.get .contractVersion).getD 1

def setContractVersion (w : World σ) (version : ℕ) : World σ := w.set .contractVersion version

end World

/-- How the host derives the address of a deployed contract from its deployer and the salt. -/
abbrev Derivation := Address → BytesN 32 → Address

def initializeContract (env : Env) (admin : Address) (eventWasmHash : BytesN 32)
    (ticketContract paymentsContract : Address) (w : World σ) : Attempt (World σ) :=
  if w.isInitialized then return w else do
    requireAuth env admin
    let w := (w.set .admin admin).set .eventWasm eventWasmHash
    let w := (w.set .ticketContract ticketContract).set .paymentsContract paymentsContract
    return w.emit (.factoryInitialized admin)

/-- `deploy_v2`: an event contract with nothing stored, at a free address. -/
def deployV2 (derive : Derivation) (env : Env) (salt : BytesN 32) (w : World σ) :
    Attempt (Address × World σ) := do
  let address := derive env.currentContract salt
  ensure ((w.instances address).isNone = true) .trap
  return (address, { w with instances := Function.update w.instances address (some ⟨.empty, []⟩) })

/-- The factory's call of `initialize`, which traps if the event contract fails. -/
def callInitialize (net : Events.Network σ) (env : Env)
    (address organizer ticketContract paymentsContract : Address) (w : World σ) :
    Attempt (World σ) := do
  let i ← orFail (w.instances address) .trap
  let initialized := Events.initializeContract net (Linked.Links.calling env address) organizer
    ticketContract paymentsContract (i.enter w.outside)
  return w.leave address (← orFail initialized.toOption .trap)

/-- `deployment::deploy_event`. -/
def deployInstance (derive : Derivation) (net : Events.Network σ) (env : Env)
    (organizer : Address) (salt : BytesN 32) (ticketContract paymentsContract : Address)
    (w : World σ) : Attempt (Address × World σ) := do
  let (deployedAddress, w) ← deployV2 derive env salt w
  let w ← callInitialize net env deployedAddress organizer ticketContract paymentsContract w
  return (deployedAddress, w)

def deployEvent (derive : Derivation) (net : Events.Network σ) (env : Env) (organizer : Address)
    (e : Symbol) (salt : BytesN 32) (w : World σ) : Attempt (Address × World σ) := do
  requireAuth env organizer
  require ((w.getDeployedEvent e).isOk = false) .eventAlreadyDeployed
  let _wasmHash ← w.getEventWasmHash
  let ticketContract ← w.getTicketContract
  let paymentsContract ← w.getPaymentsContract
  let (contractAddress, w) ←
    deployInstance derive net env organizer salt ticketContract paymentsContract w
  let w ← w.saveDeployedEvent
    { eventId := e, contractAddress, organizer, deployedAt := env.timestamp }
  return (contractAddress,
    w.emit (.eventDeployed e contractAddress (maskAddress env organizer .standard)))

def migrate (env : Env) (admin : Address) (w : World σ) : Attempt (ℕ × World σ) := do
  requireAuth env admin
  let currentAdmin ← w.getAdmin
  require (currentAdmin = admin) .unauthorized
  let currentVersion := w.getContractVersion
  let newVersion ← u32 (currentVersion + 1)
  require (currentVersion ≤ 2) .unsupportedVersion
  return (newVersion, w.setContractVersion newVersion)

inductive Call where
  | initialise (admin : Address) (eventWasmHash : BytesN 32)
      (ticketContract paymentsContract : Address)
  | deployEvent (organizer : Address) (e : Symbol) (salt : BytesN 32)
  | migrate (admin : Address)

def Call.exec (derive : Derivation) (net : Events.Network σ) (env : Env) (w : World σ) :
    Call → Attempt (World σ)
  | .initialise admin eventWasmHash ticketContract paymentsContract =>
    initializeContract env admin eventWasmHash ticketContract paymentsContract w
  | .deployEvent organizer e salt => do
    let (_, w) ← Factory.deployEvent derive net env organizer e salt w
    return w
  | .migrate admin => do
    let (_, w) ← Factory.migrate env admin w
    return w

inductive Step (σ : Type) where
  | factory (invocation : Invocation) (c : Call)
  | event (address : Address) (invocation : Invocation) (c : Events.Call)
  | elsewhere (outside : σ)

variable (derive : Derivation) (net : Events.Network σ) (d : Deployment)

def World.next (w : World σ) : Step σ → World σ
  | .factory invocation c => commit w (c.exec derive net ⟨d, invocation⟩ w)
  | .event address invocation c =>
    match w.instances address with
    | none => w
    | some i =>
      w.leave address ((i.enter w.outside).next net { d with currentContract := address }
        (.call invocation c))
  | .elsewhere outside => { w with outside }

def deploys (w : World σ) : Step σ → Option (Address × Instance)
  | .factory invocation (.deployEvent organizer e salt) =>
    match Factory.deployEvent derive net ⟨d, invocation⟩ organizer e salt w with
    | .ok (address, w') => (w'.instances address).map (address, ·)
    | .error _ => none
  | _ => none

end Zicket.Factory
