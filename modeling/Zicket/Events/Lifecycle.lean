import Zicket.Common.Validation
import Zicket.Events.Storage

/-! Creating an event, editing it and its tiers, and its changes of status. -/

namespace Zicket.Events

open Host Foundation Common
open Payments (EventTerms)

variable {σ : Type} (net : Network σ)

def initializeContract (env : Env) (admin ticketContract paymentsContract : Address)
    (w : World σ) : Attempt (World σ) := do
  requireAuth env admin
  let w := (w.set .admin admin).set .ticketContract ticketContract
  let w := w.set .paymentsContract paymentsContract
  -- the answer of the ticket contract is ignored
  return { w with
    outside := net.trySetEventContract env ticketContract admin env.currentContract w.outside }

/-- The tiers of a new event, numbered from `nextId`, and their total capacity. -/
def buildTiers : List TicketTierParams → ℕ → ℕ → Attempt (List TicketTier × ℕ)
  | [], _, maxSupply => return ([], maxSupply)
  | tier :: rest, nextId, maxSupply => do
    require (tier.name ≠ "") .invalidInput
    require (¬(tier.capacity = 0 ∨ 100000 ≤ tier.capacity)) .invalidTicketCount
    require (0 ≤ tier.price) .invalidPrice
    require (maxSupply + tier.capacity < 2 ^ 32) .invalidTicketCount
    let (tiers, maxSupply) ← buildTiers rest (nextId + 1) (maxSupply + tier.capacity)
    return ({ tierId := nextId, name := tier.name, price := tier.price, capacity := tier.capacity,
              sold := 0, reserved := 0 } :: tiers, maxSupply)

/-- The earliest event date: more than a day from now. -/
def minDate (env : Env) : Attempt ℕ := u64 (env.timestamp + 86400)

def checkPayoutToken (env : Env) (payoutToken : Address) (w : World σ) : Attempt (World σ) :=
  if w.hasLinkedContracts then do
    let paymentsContract ← w.getPaymentsContract
    let (acceptedToken, w) ← w.ask (net.getAcceptedToken env paymentsContract)
    require (payoutToken = acceptedToken) .invalidPayoutToken
    return w
  else return w

def Event.terms (event : Event) : EventTerms :=
  { organizer := event.organizer, payoutToken := event.payoutToken,
    allowAnonymous := event.allowAnonymous, requiresVerification := event.requiresVerification,
    maxTicketsPerUser := event.maxTicketsPerUser, maxSupply := event.maxSupply,
    eventStartLedger := event.eventStartLedger, eventEndLedger := event.eventEndLedger,
    withdrawalDelayLedgers := event.withdrawalDelayLedgers,
    resaleRoyaltyBps := event.resaleRoyaltyBps, maxResalePrice := event.maxResalePrice,
    allowFreeTicketTransfer := event.allowFreeTicketTransfer }

/-- Push the event's configuration to the payments contract and then do `more` there. -/
def syncConfig (env : Env) (e : Symbol) (event : Event)
    (more : Address → World σ → Attempt (World σ)) (w : World σ) : Attempt (World σ) :=
  if w.hasLinkedContracts then do
    let paymentsContract ← w.getPaymentsContract
    let w ← w.tell (net.syncEventConfig env paymentsContract env.currentContract e event.terms)
    more paymentsContract w
  else return w

/-- Tell the payments contract, if the contracts are linked. -/
def tellPayments (w : World σ) (call : Address → σ → Option σ) : Attempt (World σ) :=
  if w.hasLinkedContracts then do
    let paymentsContract ← w.getPaymentsContract
    w.tell (call paymentsContract)
  else return w

def syncSplits (env : Env) (e : Symbol) (splits : List (Address × ℕ))
    (paymentsContract : Address) (w : World σ) : Attempt (World σ) :=
  if splits.isEmpty then return w
  else w.tell (net.syncRevenueSplits env paymentsContract env.currentContract e splits)

def CreateEventParams.toEvent (params : CreateEventParams) (tiers : List TicketTier)
    (maxSupply createdAt : ℕ) : Event :=
  { eventId := params.eventId, organizer := params.organizer, payoutToken := params.payoutToken,
    name := params.name, description := params.description, venue := params.venue,
    eventDate := params.eventDate, allowAnonymous := params.allowAnonymous,
    requiresVerification := params.requiresVerification, tiers, status := .upcoming, createdAt,
    privacyLevel := params.privacyLevel, maxTicketsPerUser := params.maxTicketsPerUser, maxSupply,
    soldCount := 0, eventStartLedger := params.eventStartLedger,
    eventEndLedger := params.eventEndLedger,
    withdrawalDelayLedgers := params.withdrawalDelayLedgers,
    revenueSplits := params.revenueSplits, resaleRoyaltyBps := params.resaleRoyaltyBps,
    maxResalePrice := params.maxResalePrice,
    allowFreeTicketTransfer := params.allowFreeTicketTransfer }

def createEvent (env : Env) (params : CreateEventParams) (w : World σ) :
    Attempt (Event × World σ) := do
  requireAuth env params.organizer
  require (params.name ≠ "") .invalidInput
  require (params.venue ≠ "") .invalidInput
  require ((← minDate env) < params.eventDate) .invalidEventDate
  require (params.eventStartLedger ≤ params.eventEndLedger) .invalidInput
  require (minWithdrawalDelayLedgers ≤ params.withdrawalDelayLedgers) .invalidInput
  require (params.resaleRoyaltyBps ≤ 2000) .invalidInput
  require (params.initialTiers ≠ []) .invalidInput
  require ((validateRevenueSplits params.revenueSplits params.organizer).isOk = true)
    .invalidRevenueSplit
  let (tiers, maxSupply) ← buildTiers params.initialTiers 0 0
  require (w.has (.event params.eventId) = false) .eventAlreadyExists
  let w ← checkPayoutToken net env params.payoutToken w
  let event := params.toEvent tiers maxSupply env.timestamp
  let w := w.saveEvent params.eventId event
  let w := w.setEventPrivacy params.eventId params.privacyLevel
  let w ← syncConfig net env params.eventId event
    (syncSplits net env params.eventId params.revenueSplits) w
  return (event, w.emitEventCreated env params (w.getEventPrivacy params.eventId))

def ownEvent (w : World σ) (e : Symbol) (organizer : Address) : Attempt Event := do
  let event ← w.getEvent e
  require (event.organizer = organizer) .unauthorized
  return event

def applyOption {α : Type} (option : Option α) (check : α → Attempt Unit)
    (change : Event → α → Event) (event : Event) : Attempt Event :=
  match option with
  | none => return event
  | some value => do
    check value
    return change event value

/-- The edits of `update_event_details`, in its order. -/
def editEvent (env : Env) (params : UpdateEventParams) (event : Event) : Attempt Event := do
  let event ← applyOption params.name (fun n => require (n ≠ "") .invalidInput)
    (fun event name => { event with name }) event
  let event ← applyOption params.description (fun _ => return)
    (fun event description => { event with description }) event
  let event ← applyOption params.venue (fun v => require (v ≠ "") .invalidInput)
    (fun event venue => { event with venue }) event
  let event ← applyOption params.eventDate
    (fun date => do require ((← minDate env) < date) .invalidEventDate)
    (fun event eventDate => { event with eventDate }) event
  let event ← applyOption params.allowAnonymous (fun _ => return)
    (fun event allowAnonymous => { event with allowAnonymous }) event
  let event ← applyOption params.requiresVerification (fun _ => return)
    (fun event requiresVerification => { event with requiresVerification }) event
  let event ← applyOption params.maxTicketsPerUser (fun _ => return)
    (fun event maxTicketsPerUser => { event with maxTicketsPerUser }) event
  let event ← applyOption params.resaleRoyaltyBps
    (fun bps => do
      require (event.soldCount = 0) .eventNotUpdatable
      require (bps ≤ 2000) .invalidInput)
    (fun event resaleRoyaltyBps => { event with resaleRoyaltyBps }) event
  let event ← applyOption params.maxResalePrice
    (fun cap => do
      require (event.soldCount = 0) .eventNotUpdatable
      require (¬(cap < 0 ∧ cap ≠ -1)) .invalidInput)
    (fun event cap => { event with maxResalePrice := if cap = -1 then none else some cap }) event
  applyOption params.allowFreeTicketTransfer (fun _ => return)
    (fun event allowFreeTicketTransfer => { event with allowFreeTicketTransfer }) event

def updateEventDetails (env : Env) (params : UpdateEventParams) (w : World σ) :
    Attempt (Event × World σ) := do
  requireAuth env params.organizer
  let event ← ownEvent w params.eventId params.organizer
  require (event.status = .upcoming) .eventNotUpdatable
  let event ← editEvent env params event
  let w := w.saveEvent params.eventId event
  let w ← syncConfig net env params.eventId event (fun _ w => return w) w
  return (event, w.emitEventUpdated env event)

def addTicketTier (env : Env) (organizer : Address) (e : Symbol) (name : String) (price : ℤ)
    (capacity : ℕ) (w : World σ) : Attempt (TicketTier × World σ) := do
  requireAuth env organizer
  let event ← ownEvent w e organizer
  require (event.status = .upcoming) .eventNotUpdatable
  require (name ≠ "") .invalidInput
  require (¬(capacity = 0 ∨ 100000 ≤ capacity)) .invalidTicketCount
  require (0 ≤ price) .invalidPrice
  require (event.maxSupply + capacity < 2 ^ 32) .invalidTicketCount
  let tier : TicketTier :=
    { tierId := event.tiers.length, name, price, capacity, sold := 0, reserved := 0 }
  -- the payments contract is not told of the new supply
  return (tier, w.saveEvent e
    { event with maxSupply := event.maxSupply + capacity, tiers := event.tiers ++ [tier] })

def Event.tierIndex (event : Event) (tierId : ℕ) : Option ℕ :=
  event.tiers.findIdx? fun tier => tier.tierId = tierId

/-- The loop that looks a tier up by its id. -/
def Event.findTier (event : Event) (tierId : ℕ) : Attempt (ℕ × TicketTier) := do
  let index ← okOr (event.tierIndex tierId) .tierNotFound
  let tier ← okOr (event.tiers[index]?) .tierNotFound
  return (index, tier)

def resizeTier (event : Event) (tier : TicketTier) (capacity : Option ℕ) :
    Attempt (Event × TicketTier) :=
  match capacity with
  | none => return (event, tier)
  | some c => do
    require (¬(c = 0 ∨ 100000 ≤ c)) .invalidTicketCount
    require (tier.sold ≤ c) .invalidTicketCount
    require (tier.capacity ≤ event.maxSupply ∧ event.maxSupply - tier.capacity + c < 2 ^ 32)
      .invalidTicketCount
    let newMaxSupply := event.maxSupply - tier.capacity + c
    require (event.soldCount ≤ newMaxSupply) .invalidTicketCount
    return ({ event with maxSupply := newMaxSupply }, { tier with capacity := c })

def renameTier (tier : TicketTier) (name : Option String) : Attempt TicketTier :=
  match name with
  | none => return tier
  | some n => do
    require (n ≠ "") .invalidInput
    return { tier with name := n }

def repriceTier (tier : TicketTier) (price : Option ℤ) : Attempt TicketTier :=
  match price with
  | none => return tier
  | some p => do
    require (0 ≤ p) .invalidPrice
    return { tier with price := p }

def updateTier (env : Env) (organizer : Address) (e : Symbol) (tierId : ℕ) (name : Option String)
    (price : Option ℤ) (capacity : Option ℕ) (w : World σ) : Attempt (World σ) := do
  requireAuth env organizer
  let event ← ownEvent w e organizer
  require (event.status = .upcoming) .eventNotUpdatable
  let (index, tier) ← event.findTier tierId
  let tier ← renameTier tier name
  let tier ← repriceTier tier price
  let (event, tier) ← resizeTier event tier capacity
  -- nor of a changed one
  return w.saveEvent e { event with tiers := event.tiers.set index tier }

def updateEventStatus (env : Env) (organizer : Address) (e : Symbol) (newStatus : EventStatus)
    (w : World σ) : Attempt (World σ) := do
  requireAuth env organizer
  let event ← ownEvent w e organizer
  require ((event.status = .upcoming ∧ newStatus = .active) ∨
    (event.status = .active ∧ newStatus = .completed)) .invalidStatusTransition
  let w ← w.updateEvent e { event with status := newStatus }
  return w.emitStatusChanged env e event.status newStatus

def cancelEvent (env : Env) (organizer : Address) (e : Symbol) (w : World σ) :
    Attempt (World σ) := do
  requireAuth env organizer
  let event ← ownEvent w e organizer
  require (event.status ≠ .completed ∧ event.status ≠ .cancelled) .invalidStatusTransition
  let w ← w.updateEvent e { event with status := .cancelled }
  let w := w.emitStatusChanged env e event.status .cancelled
  let w := w.emitEventCancelled env e organizer (w.getEventPrivacy e)
  tellPayments w fun paymentsContract => net.cancelEvent env paymentsContract e organizer

def postponeEvent (env : Env) (organizer : Address) (e : Symbol) (newDateLedger : ℕ)
    (choiceWindowLedgers : ℕ) (w : World σ) : Attempt (World σ) := do
  requireAuth env organizer
  let event ← ownEvent w e organizer
  require (event.status = .active) .invalidStatusTransition
  let count := w.getPostponeCount e
  require (count < maxPostponements) .maxPostponementsReached
  require (minPostponementChoiceWindowLedgers ≤ choiceWindowLedgers) .postponementWindowTooShort
  require (choiceWindowLedgers ≤ maxPostponementChoiceWindowLedgers) .invalidPostponementDate
  require (newDateLedger ≤ u32Max) .invalidPostponementDate
  let choiceDeadlineLedger := env.sequence + choiceWindowLedgers
  require (choiceDeadlineLedger < 2 ^ 32) .invalidPostponementDate
  require (choiceDeadlineLedger < newDateLedger) .invalidPostponementDate
  let w ← w.updateEvent e { event with status := .postponed }
  let w := w.set (.postponeCount e) (count + 1)
  let w := w.set (.postponement e) { newDateLedger, choiceDeadlineLedger }
  let w := w.emitStatusChanged env e event.status .postponed
  let w := w.emitEventPostponed env e newDateLedger choiceDeadlineLedger (count + 1)
  tellPayments w fun paymentsContract =>
    net.postponeEvent env paymentsContract e organizer choiceDeadlineLedger

def finalizePostponement (env : Env) (organizer : Address) (e : Symbol) (w : World σ) :
    Attempt (World σ) := do
  requireAuth env organizer
  let event ← ownEvent w e organizer
  require (event.status = .postponed) .eventNotPostponed
  let info ← okOr (w.getPostponement e) .eventNotPostponed
  require (info.choiceDeadlineLedger < env.sequence) .postponementWindowOpen
  let duration := event.eventEndLedger - event.eventStartLedger
  require (info.newDateLedger ≤ u32Max) .invalidPostponementDate
  let newEndLedger := info.newDateLedger + duration
  require (newEndLedger < 2 ^ 32) .invalidPostponementDate
  let event :=
    { event with
      eventStartLedger := info.newDateLedger, eventEndLedger := newEndLedger, status := .active }
  let w ← w.updateEvent e event
  let w := w.remove (.postponement e)
  let w := w.emitStatusChanged env e .postponed .active
  let w := w.emitEventResumed env e info.newDateLedger newEndLedger
  syncConfig net env e event
    (fun paymentsContract w => w.tell (net.resumeEvent env paymentsContract e event.organizer)) w

end Zicket.Events
