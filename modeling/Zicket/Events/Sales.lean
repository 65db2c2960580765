import Zicket.Events.Lifecycle

/-! Seats: reserving one, releasing an expired reservation, registering for one or for
several, and opting out of a postponed event. -/

namespace Zicket.Events

open Host Foundation

variable {σ : Type} (net : Network σ)

def Event.setTier (event : Event) (index : ℕ) (tier : TicketTier) : Event :=
  { event with tiers := event.tiers.set index tier }

def TicketTier.unreserve (tier : TicketTier) : TicketTier :=
  { tier with reserved := tier.reserved - 1 }

def Event.releaseSeat (event : Event) (tierId : ℕ) : Attempt Event := do
  let (index, tier) ← event.findTier tierId
  return event.setTier index tier.unreserve

def requireSeat (tier : TicketTier) : Attempt Unit := do
  let taken ← u32 (tier.sold + tier.reserved)
  require (taken < tier.capacity) .tierSoldOut

/-- The seat is put on hold; an expired reservation of the attendee gives its seat back. -/
def holdSeat (env : Env) (attendee : Address) (e : Symbol) (tierId : ℕ) (event : Event)
    (w : World σ) : Attempt (World σ) := do
  let (index, tier) ← event.findTier tierId
  requireSeat tier
  let expiresAt ← u64 (env.timestamp + 900)
  let w := w.saveReservation e attendee { tierId, expiresAt }
  let reserved ← u32 (tier.reserved + 1)
  return w.saveEvent e (event.setTier index { tier with reserved })

def reserveTicket (env : Env) (attendee : Address) (e : Symbol) (tierId : ℕ) (w : World σ) :
    Attempt (World σ) := do
  requireAuth env attendee
  let event ← w.getEvent e
  require (event.status = .active) .eventNotActive
  require (w.isRegistered e attendee = false) .alreadyRegistered
  match w.get (.reservation e attendee) with
  | some reservation =>
    if env.timestamp < reservation.expiresAt then return w
    else do
      let event ← event.releaseSeat reservation.tierId
      holdSeat env attendee e tierId event w
  | none => holdSeat env attendee e tierId event w

def releaseExpiredReservation (env : Env) (e : Symbol) (attendee : Address) (w : World σ) :
    Attempt (World σ) := do
  let reservation ← w.getReservation e attendee
  require (reservation.expiresAt ≤ env.timestamp) .invalidInput
  let event ← w.getEvent e
  let event ← event.releaseSeat reservation.tierId
  return (w.removeReservation e attendee).saveEvent e event

/-- The cross-contract paths can only settle standard payments. -/
def requireSettleablePrivacy (w : World σ) (e : Symbol) : Attempt Unit :=
  require (w.getEventPrivacy e = .standard) .paymentPrivacyUnsupported

def checkCooldown (env : Env) (e : Symbol) (attendee : Address) (cooldownSecs : ℕ) (w : World σ) :
    Attempt Unit :=
  let last := w.getLastFreeClaim e attendee
  if 0 < cooldownSecs ∧ 0 < last then do
    let reopens ← u64 (last + cooldownSecs)
    require (reopens ≤ env.timestamp) .claimCooldownActive
  else return

def checkFreeClaim (env : Env) (e : Symbol) (attendee : Address) (w : World σ) : Attempt Unit := do
  let settings := w.getClaimSettings e
  onlyIf (0 < settings.maxFreeClaims)
    (require (w.getFreeClaimCount e attendee < settings.maxFreeClaims) .claimLimitExceeded)
  checkCooldown env e attendee settings.cooldownSecs w

def checkFreeClaims (env : Env) (e : Symbol) (attendee : Address) (claims : ℕ) (w : World σ) :
    Attempt Unit := do
  let settings := w.getClaimSettings e
  onlyIf (0 < settings.maxFreeClaims) do
    let claimed ← u32 (w.getFreeClaimCount e attendee + claims)
    require (claimed ≤ settings.maxFreeClaims) .claimLimitExceeded
  checkCooldown env e attendee settings.cooldownSecs w

/-- Whether the attendee has a reservation; if so it is of this tier and unexpired. -/
def checkReservation (env : Env) (e : Symbol) (attendee : Address) (tierId : ℕ) (w : World σ) :
    Attempt Bool :=
  match w.get (.reservation e attendee) with
  | some reservation => do
    require (env.timestamp ≤ reservation.expiresAt) .reservationExpired
    require (reservation.tierId = tierId) .invalidInput
    return true
  | none => return false

def chargeTicket (env : Env) (paymentsContract : Address) (nonce : ℕ) (payer : Address)
    (e : Symbol) (amount : ℤ) (emailHash : Option (BytesN 32)) (w : World σ) :
    Attempt (World σ) := do
  let (token, w) ← w.ask (net.getAcceptedToken env paymentsContract)
  w.tell (net.payForTicket env paymentsContract nonce payer e amount emailHash token .standard
    none none)

def chargePriced (env : Env) (paymentsContract : Address) (nonce : ℕ) (payer : Address)
    (e : Symbol) (price amount : ℤ) (emailHash : Option (BytesN 32)) (w : World σ) :
    Attempt (World σ) :=
  if 0 < price then chargeTicket net env paymentsContract nonce payer e amount emailHash w
  else return w

def batchPrice (price : ℤ) (count : ℕ) : Attempt ℤ :=
  if 0 < price then i128 (price * count) else return 0

def recordFreeClaims (env : Env) (e : Symbol) (attendee : Address) :
    ℕ → World σ → Attempt (World σ)
  | 0, w => return w.set (.lastFreeClaim e attendee) env.timestamp
  | count + 1, w => do
    let w ← w.incrementFreeClaimCount e attendee
    recordFreeClaims env e attendee count w

def recordIfFree (env : Env) (e : Symbol) (attendee : Address) (price : ℤ) (count : ℕ)
    (w : World σ) : Attempt (World σ) :=
  if price = 0 then recordFreeClaims env e attendee count w else return w

def registerOnce (e : Symbol) (attendee : Address) (w : World σ) : Attempt (World σ) :=
  if w.isRegistered e attendee then return w else w.saveRegistration e attendee

/-- `count` seats of the tier are sold, one of them a reserved one if `hasRes`. -/
def sellSeats (e : Symbol) (event : Event) (index : ℕ) (tier : TicketTier) (count : ℕ)
    (hasRes : Bool) (w : World σ) : Attempt (ℕ × World σ) := do
  let tier := if hasRes then tier.unreserve else tier
  let sold ← u32 (tier.sold + count)
  let soldCount ← u32 (event.soldCount + count)
  let w ← w.updateEvent e ({ event with soldCount }.setTier index { tier with sold })
  return (sold, w)

def registerForEvent (env : Env) (nonce : ℕ) (attendee : Address) (e : Symbol) (tierId : ℕ)
    (emailHash : Option (BytesN 32)) (w : World σ) : Attempt (World σ) := do
  requireAuth env attendee
  let event ← w.getEvent e
  require (event.status = .active) .eventNotActive
  requireSettleablePrivacy w e
  let reqPrice := (event.tiers.find? fun tier => tier.tierId = tierId).map (·.price)
  onlyIf (reqPrice = some 0) (checkFreeClaim env e attendee w)
  require (w.isRegistered e attendee = false) .alreadyRegistered
  let hasRes ← checkReservation env e attendee tierId w
  let (index, tier) ← event.findTier tierId
  require (event.soldCount < event.maxSupply) .eventSoldOut
  onlyIf (hasRes = false) (requireSeat tier)
  let paymentsContract ← w.getPaymentsContract
  let ticketContract ← w.getTicketContract
  let w ← chargePriced net env paymentsContract nonce attendee e tier.price tier.price emailHash w
  let w ← w.tell (net.mintTicket env ticketContract event.eventId event.organizer attendee)
  let w ← w.saveRegistration e attendee
  let w := if hasRes then w.removeReservation e attendee else w
  let w ← recordIfFree env e attendee tier.price 1 w
  let (sold, w) ← sellSeats e event index tier 1 hasRes w
  return w.emitRegistration env e attendee tierId sold (w.getEventPrivacy e)

def countTickets (env : Env) (ticketContract : Address) (e : Symbol) :
    List ℕ → ℕ → World σ → Attempt (ℕ × World σ)
  | [], count, w => return (count, w)
  | id :: rest, count, w => do
    let (minted, w) ← w.ask (net.getTicket env ticketContract id)
    let count ← (if minted.eventId = e then u32 (count + 1) else pure count)
    countTickets env ticketContract e rest count w

def countUserEventTickets (env : Env) (ticketContract attendee : Address) (e : Symbol)
    (w : World σ) : Attempt (ℕ × World σ) := do
  let (ids, w) ← w.ask (net.getTicketsByOwner env ticketContract attendee)
  countTickets net env ticketContract e ids 0 w

def checkUserLimit (env : Env) (ticketContract attendee : Address) (e : Symbol) (event : Event)
    (count : ℕ) (w : World σ) : Attempt (World σ) :=
  if 0 < event.maxTicketsPerUser then do
    let (existing, w) ← countUserEventTickets net env ticketContract attendee e w
    let wanted ← u32 (existing + count)
    require (wanted ≤ event.maxTicketsPerUser) .invalidInput
    return w
  else return w

def batchRegisterForEvent (env : Env) (nonce : ℕ) (attendee : Address) (e : Symbol)
    (tierId count : ℕ) (emailHash : Option (BytesN 32)) (w : World σ) : Attempt (World σ) := do
  requireAuth env attendee
  require (¬(count = 0 ∨ 100 < count)) .invalidInput
  let event ← w.getEvent e
  require (event.status = .active) .eventNotActive
  requireSettleablePrivacy w e
  let (index, tier) ← event.findTier tierId
  let hasRes ← checkReservation env e attendee tierId w
  let ticketContract ← w.getTicketContract
  let w ← checkUserLimit net env ticketContract attendee e event count w
  let wantedTotal ← u32 (event.soldCount + count)
  require (wantedTotal ≤ event.maxSupply) .eventSoldOut
  let reserved := if hasRes then tier.reserved - 1 else tier.reserved
  let taken ← u32 (tier.sold + reserved)
  let wanted ← u32 (taken + count)
  require (wanted ≤ tier.capacity) .tierSoldOut
  onlyIf (tier.price = 0) (checkFreeClaims env e attendee count w)
  let paymentsContract ← w.getPaymentsContract
  let amount ← batchPrice tier.price count
  let w ← chargePriced net env paymentsContract nonce attendee e tier.price amount emailHash w
  let w ← w.tell
    (net.batchMintTicket env ticketContract event.eventId event.organizer attendee count)
  let w ← registerOnce e attendee w
  let w ← recordIfFree env e attendee tier.price count w
  let w := if hasRes then w.removeReservation e attendee else w
  let (sold, w) ← sellSeats e event index tier count hasRes w
  return w.emitRegistration env e attendee tierId sold (w.getEventPrivacy e)

def Revocable (e : Symbol) (ticket : Tickets.Ticket) : Prop :=
  ticket.eventId = e ∧ ticket.isUsed = false ∧ ticket.status = .valid

instance (e : Symbol) (ticket : Tickets.Ticket) : Decidable (Revocable e ticket) :=
  inferInstanceAs (Decidable (_ ∧ _))

def findRevocable (env : Env) (ticketContract : Address) (e : Symbol) :
    List ℕ → World σ → Attempt (Option ℕ × World σ)
  | [], w => return (none, w)
  | id :: rest, w => do
    let (minted, w) ← w.ask (net.getTicket env ticketContract id)
    if Revocable e minted then return (some id, w)
    else findRevocable env ticketContract e rest w

def firstRevocable (env : Env) (ticketContract attendee : Address) (e : Symbol) (w : World σ) :
    Attempt (Option ℕ × World σ) := do
  let (ids, w) ← w.ask (net.getTicketsByOwner env ticketContract attendee)
  findRevocable net env ticketContract e ids w

def requestPostponementRefund (env : Env) (attendee : Address) (ticketId : ℕ) (w : World σ) :
    Attempt (World σ) := do
  requireAuth env attendee
  let paymentsContract ← w.getPaymentsContract
  let (ticket, w) ← w.ask (net.paymentsTicket env paymentsContract ticketId)
  let e := ticket.eventId
  let event ← w.getEvent e
  require (event.status = .postponed) .eventNotPostponed
  let ticketContract ← w.getTicketContract
  let (first, w) ← firstRevocable net env ticketContract attendee e w
  let revocable ← okOr first .noRefundableTicket
  let w ← w.tell (net.requestPostponementRefund env paymentsContract attendee ticketId)
  let w ← w.tell (net.cancelTicket env ticketContract revocable attendee)
  let (left, w) ← firstRevocable net env ticketContract attendee e w
  return if left.isSome then w else w.removeRegistration e attendee

def getAttendeesPaginated (e : Symbol) (start limit : ℕ) (w : World σ) :
    Attempt (List Address) := do
  let _ ← w.getEvent e
  match w.getEventPrivacy e with
  | .standard => return w.getAttendeesPaginated e start limit
  | .priv => fail .unauthorizedPrivateAccess
  | .anonymous => return []

def getOrgAttendeesPaginated (env : Env) (organizer : Address) (e : Symbol) (start limit : ℕ)
    (w : World σ) : Attempt (List Address) := do
  requireAuth env organizer
  let event ← w.getEvent e
  require (event.organizer = organizer) .unauthorized
  return w.getAttendeesPaginated e start limit

end Zicket.Events
