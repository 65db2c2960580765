import Zicket.Inventory.Seats

/-! What the sales do: which seats they take, and what the linked contracts are asked. The
calls that only look at tickets are kept apart in `Queried`. -/

namespace Zicket.Events

open Host Foundation World

variable {σ : Type} {net : Network σ} {env : Env} {w w' : World σ} {e : Symbol} {event : Event}
  {a : Address} {index tierId : ℕ} {tier : TicketTier}

def Event.sell (event : Event) (index : ℕ) (tier : TicketTier) (count : ℕ) : Event :=
  { event with soldCount := event.soldCount + count }.setTier index
    { tier with sold := tier.sold + count }

/-- The tier before the sale: a reserved seat is given back first. -/
def TicketTier.offered (tier : TicketTier) (hasRes : Bool) : TicketTier :=
  if hasRes then tier.unreserve else tier

section Made

variable {r : Roster}

theorem sell_made {count : ℕ} (stored : r.event e = some event) (active : event.status = .active)
    (place : event.tiers[index]? = some tier)
    (free : tier.sold + tier.reserved + count ≤ tier.capacity) :
    r.Made (r.putEvent e (event.sell index tier count)) e [.sell index tier count] := by
  have inventory := r.inventory_of_event stored
  refine ⟨⟨⟨?_, ?_, free⟩, trivial⟩, ?_⟩
  · rw [inventory, ← active]
    rfl
  · rw [inventory]
    exact place
  · rw [Roster.inventory_putEvent, inventory]
    rfl

theorem sell_reserved_made {count : ℕ} (stored : r.event e = some event)
    (active : event.status = .active) (place : event.tiers[index]? = some tier)
    (held : r.held e a = some tier.tierId)
    (free : tier.sold + (tier.reserved - 1) + count ≤ tier.capacity) :
    r.Made (r.seat e (event.sell index tier.unreserve count) a none) e
      [.release a index tier, .sell index tier.unreserve count] := by
  have inventory := r.inventory_of_event stored
  have lt := (List.getElem?_eq_some_iff.mp place).1
  refine ⟨⟨⟨?_, ?_⟩, ⟨?_, ?_, free⟩, trivial⟩, ?_⟩
  · rw [inventory]
    exact place
  · rw [Roster.inventory_held, held]
  · rw [inventory]
    exact congrArg some active
  · rw [inventory]
    change (event.tiers.set index _)[index]? = _
    rw [List.getElem?_set_self lt]
    rfl
  · rw [Roster.inventory_seat, inventory]
    simp only [run_cons, run_nil, Inventory.apply, Inventory.setTier, Event.inventory,
      Event.sell, Event.setTier, TicketTier.unreserve, List.set_set]

theorem seat_none_of_unheld (unheld : r.held e a = none) :
    r.seat e event a none = r.putEvent e event := by
  have same : put r.held e a none = r.held := by rw [← unheld, put_eq]
  unfold Roster.seat
  rw [same]
  rfl

theorem sale_made {count : ℕ} {hasRes : Bool} (stored : r.event e = some event)
    (active : event.status = .active) (place : event.tiers[index]? = some tier)
    (held : r.held e a = if hasRes then some tier.tierId else none)
    (free : (tier.offered hasRes).sold + (tier.offered hasRes).reserved + count ≤ tier.capacity) :
    ∃ cs, r.Made (r.seat e (event.sell index (tier.offered hasRes) count) a none) e cs := by
  cases hasRes with
  | false =>
    rw [seat_none_of_unheld held]
    exact ⟨_, sell_made stored active place free⟩
  | true => exact ⟨_, sell_reserved_made stored active place held free⟩

end Made

theorem checkReservation_ok {hasRes : Bool}
    (h : checkReservation env e a tierId w = .ok hasRes) :
    w.roster.held e a = if hasRes then some tierId else none := by
  change (w.get (.reservation e a)).map (·.tierId) = _
  unfold checkReservation at h
  split at h
  · rename_i reservation stored
    simp only [bind_eq_ok, require_eq_ok, pure_eq_ok] at h
    obtain ⟨-, -, -, same, rfl⟩ := h
    rw [stored, ← same]
    rfl
  · rename_i absent
    cases h
    rw [absent]
    rfl

theorem sellSeats_ok {count sold : ℕ} {hasRes : Bool}
    (h : sellSeats e event index tier count hasRes w = .ok (sold, w')) :
    w' = w.saveEvent e (event.sell index (tier.offered hasRes) count) := by
  simp only [sellSeats, bind_eq_ok, pure_eq_ok, u32_eq_ok] at h
  obtain ⟨_, ⟨-, rfl⟩, _, ⟨-, rfl⟩, w₁, updated, h⟩ := h
  cases h
  exact updateEvent_ok updated

def charge (net : Network σ) (env : Env) (nonce : ℕ) (payer : Address) (e : Symbol)
    (price amount : ℤ) (emailHash : Option (BytesN 32)) (paymentsContract : Address)
    (outside : σ) : Option σ :=
  if 0 < price then
    (net.getAcceptedToken env paymentsContract outside).bind fun (token, outside) =>
      net.payForTicket env paymentsContract nonce payer e amount emailHash token .standard
        none none outside
  else some outside

theorem chargePriced_ok {paymentsContract payer : Address} {nonce : ℕ} {price amount : ℤ}
    {emailHash : Option (BytesN 32)}
    (h : chargePriced net env paymentsContract nonce payer e price amount emailHash w = .ok w') :
    w'.storage = w.storage ∧
      charge net env nonce payer e price amount emailHash paymentsContract w.outside =
        some w'.outside := by
  unfold chargePriced at h
  split at h
  · rename_i priced
    simp only [chargeTicket, bind_eq_ok, ask_eq_ok, tell_eq_ok] at h
    obtain ⟨⟨token, _⟩, ⟨outside, asked, rfl⟩, outside', paid, rfl⟩ := h
    refine ⟨rfl, ?_⟩
    rw [charge, if_pos priced, asked]
    exact paid
  · rename_i free
    cases h
    exact ⟨rfl, if_neg free⟩

inductive Network.Queried (net : Network σ) (env : Env) (ticketContract : Address) : σ → σ → Prop
  | done (s : σ) : Queried net env ticketContract s s
  | owner {a : Address} {ids : List ℕ} {s s' s'' : σ} :
    net.getTicketsByOwner env ticketContract a s = some (ids, s') →
      Queried net env ticketContract s' s'' → Queried net env ticketContract s s''
  | ticket {id : ℕ} {minted : Tickets.Ticket} {s s' s'' : σ} :
    net.getTicket env ticketContract id s = some (minted, s') →
      Queried net env ticketContract s' s'' → Queried net env ticketContract s s''

section Queries

variable {ticketContract : Address}

theorem countTickets_queried {ids : List ℕ} {count counted : ℕ}
    (h : countTickets net env ticketContract e ids count w = .ok (counted, w')) :
    w'.storage = w.storage ∧ net.Queried env ticketContract w.outside w'.outside := by
  induction ids generalizing count w with
  | nil =>
    cases h
    exact ⟨rfl, .done _⟩
  | cons id rest ih =>
    simp only [countTickets, bind_eq_ok, ask_eq_ok] at h
    obtain ⟨⟨minted, _⟩, ⟨outside, asked, rfl⟩, count', -, h⟩ := h
    obtain ⟨frame, queried⟩ := ih h
    exact ⟨frame, .ticket asked queried⟩

theorem checkUserLimit_queried {count : ℕ}
    (h : checkUserLimit net env ticketContract a e event count w = .ok w') :
    w'.storage = w.storage ∧ net.Queried env ticketContract w.outside w'.outside := by
  unfold checkUserLimit at h
  split at h
  · simp only [countUserEventTickets, bind_eq_ok, ask_eq_ok, pure_eq_ok] at h
    obtain ⟨⟨existing, w₁⟩, ⟨⟨ids, _⟩, ⟨outside, asked, rfl⟩, counted⟩, -, -, -, -, rfl⟩ := h
    obtain ⟨frame, queried⟩ := countTickets_queried counted
    exact ⟨frame, .owner asked queried⟩
  · cases h
    exact ⟨rfl, .done _⟩

theorem findRevocable_queried {ids : List ℕ} {first : Option ℕ}
    (h : findRevocable net env ticketContract e ids w = .ok (first, w')) :
    w'.storage = w.storage ∧ net.Queried env ticketContract w.outside w'.outside := by
  induction ids generalizing w with
  | nil =>
    cases h
    exact ⟨rfl, .done _⟩
  | cons id rest ih =>
    simp only [findRevocable, bind_eq_ok, ask_eq_ok] at h
    obtain ⟨⟨minted, _⟩, ⟨outside, asked, rfl⟩, h⟩ := h
    split at h
    · cases h
      exact ⟨rfl, .ticket asked (.done _)⟩
    · obtain ⟨frame, queried⟩ := ih h
      exact ⟨frame, .ticket asked queried⟩

theorem firstRevocable_queried {first : Option ℕ}
    (h : firstRevocable net env ticketContract a e w = .ok (first, w')) :
    w'.storage = w.storage ∧ net.Queried env ticketContract w.outside w'.outside := by
  simp only [firstRevocable, bind_eq_ok, ask_eq_ok] at h
  obtain ⟨⟨ids, _⟩, ⟨outside, asked, rfl⟩, h⟩ := h
  obtain ⟨frame, queried⟩ := findRevocable_queried h
  exact ⟨frame, .owner asked queried⟩

end Queries

section Registration

variable {nonce : ℕ} {emailHash : Option (BytesN 32)}

/-- A successful `register_for_event`: what it passed, and the state after each of its writes. -/
structure RegisterForEvent (net : Network σ) (env : Env) (nonce : ℕ) (a : Address) (e : Symbol)
    (tierId : ℕ) (emailHash : Option (BytesN 32)) (w w' : World σ) where
  event : Event
  index : ℕ
  tier : TicketTier
  hasRes : Bool
  payments : Address
  tickets : Address
  charged : World σ
  minted : World σ
  saved : World σ
  recorded : World σ
  stored : w.getEvent e = .ok event
  active : event.status = .active
  settles : requireSettleablePrivacy w e = .ok ()
  limited : (event.tiers.find? fun tier => tier.tierId = tierId).map (·.price) = some 0 →
    checkFreeClaim env e a w = .ok ()
  new : w.isRegistered e a = false
  reserved : checkReservation env e a tierId w = .ok hasRes
  found : event.findTier tierId = .ok (index, tier)
  free : hasRes = false → requireSeat tier = .ok ()
  paymentsContract : w.getPaymentsContract = .ok payments
  ticketContract : w.getTicketContract = .ok tickets
  charges : chargePriced net env payments nonce a e tier.price tier.price emailHash w = .ok charged
  mints : charged.tell (net.mintTicket env tickets event.eventId event.organizer a) = .ok minted
  saves : minted.saveRegistration e a = .ok saved
  records : recordIfFree env e a tier.price 1
    (if hasRes then saved.removeReservation e a else saved) = .ok recorded
  sold : ℕ
  left : World σ
  sells : sellSeats e event index tier 1 hasRes recorded = .ok (sold, left)
  result : w' = left.emitRegistration env e a tierId sold (left.getEventPrivacy e)

theorem registerForEvent_ok
    (h : registerForEvent net env nonce a e tierId emailHash w = .ok w') :
    Nonempty (RegisterForEvent net env nonce a e tierId emailHash w w') := by
  simp only [registerForEvent, bind_eq_ok, pure_eq_ok, require_eq_ok, onlyIf_eq_ok] at h
  obtain ⟨-, -, event, stored, -, active, ⟨⟩, settles, ⟨⟩, limited, -, new, hasRes, reserved,
    ⟨index, tier⟩, found, -, -, ⟨⟩, free, payments, paymentsContract, tickets, ticketContract,
    charged, charges, minted, mints, saved, saves, recorded, records, ⟨sold, left⟩, sells, result⟩ := h
  exact ⟨⟨event, index, tier, hasRes, payments, tickets, charged, minted, saved, recorded, stored,
    active, settles, limited, new, reserved, found, free, paymentsContract, ticketContract, charges,
    mints, saves, records, sold, left, sells, result.symm⟩⟩

structure BatchRegisterForEvent (net : Network σ) (env : Env) (nonce : ℕ) (a : Address)
    (e : Symbol) (tierId count : ℕ) (emailHash : Option (BytesN 32)) (w w' : World σ) where
  event : Event
  index : ℕ
  tier : TicketTier
  hasRes : Bool
  payments : Address
  tickets : Address
  asked : World σ
  amount : ℤ
  charged : World σ
  minted : World σ
  registered : World σ
  recorded : World σ
  counted : ¬(count = 0 ∨ 100 < count)
  stored : w.getEvent e = .ok event
  active : event.status = .active
  settles : requireSettleablePrivacy w e = .ok ()
  found : event.findTier tierId = .ok (index, tier)
  reserved : checkReservation env e a tierId w = .ok hasRes
  ticketContract : w.getTicketContract = .ok tickets
  asks : checkUserLimit net env tickets a e event count w = .ok asked
  free : tier.sold + (if hasRes then tier.reserved - 1 else tier.reserved) + count ≤ tier.capacity
  limited : tier.price = 0 → checkFreeClaims env e a count asked = .ok ()
  paymentsContract : asked.getPaymentsContract = .ok payments
  charges : chargePriced net env payments nonce a e tier.price amount emailHash asked = .ok charged
  mints : charged.tell (net.batchMintTicket env tickets event.eventId event.organizer a count) =
    .ok minted
  registers : registerOnce e a minted = .ok registered
  records : recordIfFree env e a tier.price count registered = .ok recorded
  sold : ℕ
  left : World σ
  sells : sellSeats e event index tier count hasRes
    (if hasRes then recorded.removeReservation e a else recorded) = .ok (sold, left)
  result : w' = left.emitRegistration env e a tierId sold (left.getEventPrivacy e)

theorem batchRegisterForEvent_ok {count : ℕ}
    (h : batchRegisterForEvent net env nonce a e tierId count emailHash w = .ok w') :
    Nonempty (BatchRegisterForEvent net env nonce a e tierId count emailHash w w') := by
  simp only [batchRegisterForEvent, bind_eq_ok, pure_eq_ok, require_eq_ok, onlyIf_eq_ok,
    u32_eq_ok] at h
  obtain ⟨-, -, -, counted, event, stored, -, active, ⟨⟩, settles, ⟨index, tier⟩, found, hasRes,
    reserved, tickets, ticketContract, asked, asks, _, -, -, -, _, ⟨-, rfl⟩, _, ⟨-, rfl⟩, -, free,
    ⟨⟩, limited, payments, paymentsContract, amount, -, charged, charges, minted, mints, registered,
    registers, recorded, records, ⟨sold, left⟩, sells, result⟩ := h
  exact ⟨⟨event, index, tier, hasRes, payments, tickets, asked, amount, charged, minted, registered,
    recorded, counted, stored, active, settles, found, reserved, ticketContract, asks, free, limited,
    paymentsContract, charges, mints, registers, records, sold, left, sells, result.symm⟩⟩

/-- What a sale to an attendee needs of the event and makes of the roster. -/
structure Sale (r r' : Roster) (e : Symbol) (a : Address) (tierId count : ℕ) where
  event : Event
  index : ℕ
  tier : TicketTier
  hasRes : Bool
  stored : r.event e = some event
  active : event.status = .active
  found : event.findTier tierId = .ok (index, tier)
  held : r.held e a = if hasRes then some tierId else none
  free : hasRes = true ∧ count = 1 ∨
    (tier.offered hasRes).sold + (tier.offered hasRes).reserved + count ≤ tier.capacity
  roster : r' = r.seat e (event.sell index (tier.offered hasRes) count) a none

theorem removal_frame (w : World σ) (hasRes : Bool) :
    (if hasRes then w.removeReservation e a else w).roster =
        (if hasRes then w.roster.drop e a else w.roster) ∧
      (if hasRes then w.removeReservation e a else w).outside = w.outside := by
  cases hasRes with
  | false => exact ⟨rfl, rfl⟩
  | true => exact ⟨roster_removeReservation .., rfl⟩

theorem seat_of_removal {r : Roster} {hasRes : Bool}
    (held : r.held e a = if hasRes then some tierId else none) (event : Event) :
    (if hasRes then r.drop e a else r).putEvent e event = r.seat e event a none := by
  cases hasRes with
  | false => exact (seat_none_of_unheld held).symm
  | true => rfl

theorem registerForEvent_spec
    (h : registerForEvent net env nonce a e tierId emailHash w = .ok w') :
    ∃ sale : Sale w.roster w'.roster e a tierId 1, ∃ p t,
      w.roster.paymentsContract = some p ∧ w.roster.ticketContract = some t ∧
      (charge net env nonce a e sale.tier.price sale.tier.price emailHash p w.outside).bind
        (net.mintTicket env t sale.event.eventId sale.event.organizer a) = some w'.outside := by
  obtain ⟨call⟩ := registerForEvent_ok h
  obtain ⟨frame, charge⟩ := chargePriced_ok call.charges
  obtain ⟨outside, minted, tells⟩ := tell_eq_ok.mp call.mints
  obtain ⟨roster₃, outside₃⟩ := saveRegistration_roster call.saves
  obtain ⟨roster₄, outside₄⟩ := recordIfFree_roster call.records
  obtain ⟨removed, kept⟩ := removal_frame (e := e) (a := a) call.saved call.hasRes
  have sold := sellSeats_ok call.sells
  have held := checkReservation_ok call.reserved
  have seats : call.hasRes = true ∧ 1 = 1 ∨ (call.tier.offered call.hasRes).sold +
      (call.tier.offered call.hasRes).reserved + 1 ≤ call.tier.capacity := by
    cases used : call.hasRes with
    | false => exact .inr (requireSeat_ok (call.free used))
    | true => exact .inl ⟨rfl, rfl⟩
  have roster₂ : call.minted.roster = w.roster := by
    rw [← tells]
    exact roster_congr frame
  have roster : w'.roster =
      w.roster.seat e (call.event.sell call.index (call.tier.offered call.hasRes) 1) a none := by
    refine (congrArg World.roster call.result).trans ?_
    change call.left.roster = _
    rw [← seat_of_removal held, sold, roster_saveEvent, roster₄, removed, roster₃, roster₂]
  have told : w'.outside = outside := by
    have minted : call.minted.outside = outside := (congrArg World.outside tells).symm
    have sold : call.left.outside = call.recorded.outside := by
      rw [sold]
      rfl
    refine (congrArg World.outside call.result).trans (sold.trans ?_)
    exact outside₄.trans (kept.trans (outside₃.trans minted))
  refine ⟨⟨call.event, call.index, call.tier, call.hasRes, getEvent_ok.mp call.stored, call.active,
    call.found, held, seats, roster⟩, call.payments, call.tickets,
    okOr_eq_ok.mp call.paymentsContract, okOr_eq_ok.mp call.ticketContract, ?_⟩
  rw [charge]
  exact minted.trans (congrArg some told.symm)

theorem batchRegisterForEvent_spec {count : ℕ}
    (h : batchRegisterForEvent net env nonce a e tierId count emailHash w = .ok w') :
    0 < count ∧ ∃ sale : Sale w.roster w'.roster e a tierId count, ∃ p t amount queried,
      w.roster.paymentsContract = some p ∧ w.roster.ticketContract = some t ∧
      net.Queried env t w.outside queried ∧
      (charge net env nonce a e sale.tier.price amount emailHash p queried).bind
        (net.batchMintTicket env t sale.event.eventId sale.event.organizer a count) =
          some w'.outside := by
  obtain ⟨call⟩ := batchRegisterForEvent_ok h
  obtain ⟨frame₀, queried⟩ := checkUserLimit_queried call.asks
  obtain ⟨frame, charge⟩ := chargePriced_ok call.charges
  obtain ⟨outside, minted, tells⟩ := tell_eq_ok.mp call.mints
  obtain ⟨roster₃, outside₃⟩ := registerOnce_roster call.registers
  obtain ⟨roster₄, outside₄⟩ := recordIfFree_roster call.records
  obtain ⟨removed, kept⟩ := removal_frame (e := e) (a := a) call.recorded call.hasRes
  have sold := sellSeats_ok call.sells
  have held := checkReservation_ok call.reserved
  have counted := call.counted
  have seats : (call.tier.offered call.hasRes).sold + (call.tier.offered call.hasRes).reserved +
      count ≤ call.tier.capacity := by
    have free := call.free
    cases used : call.hasRes <;> rw [used] at free <;> exact free
  have roster₂ : call.minted.roster = w.roster := by
    rw [← tells]
    exact roster_congr (frame.trans frame₀)
  have roster : w'.roster =
      w.roster.seat e (call.event.sell call.index (call.tier.offered call.hasRes) count) a none := by
    refine (congrArg World.roster call.result).trans ?_
    change call.left.roster = _
    rw [← seat_of_removal held, sold, roster_saveEvent, removed, roster₄, roster₃, roster₂]
  have told : w'.outside = outside := by
    have minted : call.minted.outside = outside := (congrArg World.outside tells).symm
    have sold : call.left.outside = (if call.hasRes then call.recorded.removeReservation e a
      else call.recorded).outside := by
      rw [sold]
      rfl
    refine (congrArg World.outside call.result).trans (sold.trans ?_)
    exact kept.trans (outside₄.trans (outside₃.trans minted))
  refine ⟨by omega, ⟨call.event, call.index, call.tier, call.hasRes, getEvent_ok.mp call.stored,
    call.active, call.found, held, .inr seats, roster⟩, call.payments, call.tickets, call.amount,
    call.asked.outside, ?_, okOr_eq_ok.mp call.ticketContract, queried, ?_⟩
  · exact (congrArg Roster.paymentsContract (roster_congr frame₀)).symm.trans
      (okOr_eq_ok.mp call.paymentsContract)
  · rw [charge]
    exact minted.trans (congrArg some told.symm)

theorem Sale.made {r r' : Roster} {count : ℕ} (sale : Sale r r' e a tierId count)
    (kept : (r.inventory e).Kept) : ∃ cs, r.Made r' e cs := by
  obtain ⟨event, index, tier, hasRes, stored, active, found, held, free, rfl⟩ := sale
  obtain ⟨place, rfl⟩ := findTier_ok found
  refine sale_made stored active place held ?_
  obtain ⟨rfl, rfl⟩ | free := free
  · -- a reserved seat is counted in the capacity
    rw [r.inventory_of_event stored] at kept
    have seats := kept.seats tier (List.mem_of_getElem? place)
    have pos := kept.reserved_pos place held
    simp only [TicketTier.offered, TicketTier.unreserve, if_true]
    omega
  · exact free

end Registration

section Claims

theorem sellSeats_fresh {sold : ℕ} (h : sellSeats e event index tier 1 false w = .ok (sold, w'))
    (seat : requireSeat tier = .ok ()) (place : event.tiers[index]? = some tier)
    (stored : w.roster.event e = some event) (active : event.status = .active) :
    w.roster.Made w'.roster e [.sell index tier 1] ∧
      w'.roster = w.roster.putEvent e (event.sell index tier 1) ∧ w'.outside = w.outside := by
  obtain rfl := sellSeats_ok h
  have roster := roster_saveEvent w e (event.sell index tier 1)
  refine ⟨?_, roster, rfl⟩
  rw [show tier.offered false = tier from rfl, roster]
  exact sell_made stored active place (requireSeat_ok seat)

def attend (net : Network σ) (env : Env) (e : Symbol) (event : Event) (price : ℤ)
    (ticketContract paymentsContract : Address) (outside : σ) : Option σ :=
  (charge net env 0 env.currentContract e price price none paymentsContract outside).bind
    (net.mintTicket env ticketContract event.eventId event.organizer env.currentContract)

theorem chargeAttendance_told {price : ℤ} (h : chargeAttendance net env e event price w = .ok w') :
    w'.storage = w.storage ∧ (w'.outside = w.outside ∨
      ∃ p t, w.roster.paymentsContract = some p ∧ w.roster.ticketContract = some t ∧
        attend net env e event price t p w.outside = some w'.outside) := by
  unfold chargeAttendance at h
  split at h
  · simp only [bind_eq_ok, getPaymentsContract, getTicketContract, okOr_eq_ok, tell_eq_ok] at h
    obtain ⟨p, payments, w₁, charged, t, tickets, outside, minted, rfl⟩ := h
    obtain ⟨frame, charge⟩ := chargePriced_ok charged
    refine ⟨frame, .inr ⟨p, t, payments, ?_, ?_⟩⟩
    · exact (congrArg Roster.ticketContract (roster_congr frame)).symm.trans tickets
    · rw [attend, charge]
      exact minted
  · cases h
    exact ⟨rfl, .inl rfl⟩

theorem verifyAndAttend_spec {claim : ZkPassportClaim}
    (h : verifyAndAttend net env e tierId claim w = .ok w') :
    ∃ event index tier, w.roster.event e = some event ∧ event.status = .active ∧
      w.roster.Made w'.roster e [.sell index tier 1] ∧
      w'.roster = w.roster.putEvent e (event.sell index tier 1) ∧
      (w'.outside = w.outside ∨
        ∃ p t, w.roster.paymentsContract = some p ∧ w.roster.ticketContract = some t ∧
          attend net env e event tier.price t p w.outside = some w'.outside) := by
  simp only [verifyAndAttend, bind_eq_ok, pure_eq_ok, require_eq_ok, getEvent_ok] at h
  obtain ⟨event, stored, -, active, -, -, -, -, -, -, -, -, -, -, -, -, ⟨index, tier⟩, found, -, -,
    _, seat, w₁, charged, ⟨sold, w₂⟩, sells, rfl⟩ := h
  obtain ⟨frame, told⟩ := chargeAttendance_told charged
  have roster₁ : (w₁.set (.zkNullifier e claim.nullifier) true).roster = w.roster :=
    (roster_congr frame : w₁.roster = w.roster)
  obtain ⟨made, roster, outside⟩ := sellSeats_fresh sells seat (findTier_ok found).1
    (roster₁ ▸ stored) active
  rw [roster₁] at made roster
  refine ⟨event, index, tier, stored, active, made, roster, ?_⟩
  change w₂.outside = _ ∨ ∃ p t, _ ∧ _ ∧ _ = some w₂.outside
  rw [outside]
  exact told

theorem claimAnonymousTicket_spec {claim : AnonymousTicketClaim}
    (h : claimAnonymousTicket net env e tierId claim w = .ok w') :
    w' = w ∨ ∃ event index tier verifier inputs, w.roster.event e = some event ∧
      w.roster.Made w'.roster e [.sell index tier 1] ∧
      w'.roster = w.roster.putEvent e (event.sell index tier 1) ∧
      w'.outside = (net.tryVerify env verifier claim.proof inputs w.outside).2 := by
  simp only [claimAnonymousTicket, bind_eq_ok, getEvent_ok] at h
  obtain ⟨event, stored, h⟩ := h
  split at h
  · split at h
    · cases h
      exact .inl rfl
    · simp at h
  · simp only [claimNewTicket, Event.findFreeTier, verifyClaim, bind_eq_ok, pure_eq_ok,
      require_eq_ok] at h
    obtain ⟨-, active, -, -, -, -, -, -, _, ⟨⟨index, tier⟩, found, -, -, rfl⟩, -, -, _, seat,
      w₁, counted, verifier, -, w₂, ⟨-, -, rfl⟩, ⟨sold, w₃⟩, sells, rfl⟩ := h
    obtain ⟨roster₁, outside₁⟩ := countAnonClaim_roster counted
    have stored₁ : w₁.roster.event e = some event := roster₁ ▸ stored
    obtain ⟨made, roster, outside⟩ :=
      sellSeats_fresh sells seat (findTier_ok found).1 stored₁ active
    refine .inr ⟨event, index, tier, verifier, anonymousClaimPublicInputs net env e tierId claim,
      stored, ?_, ?_, ?_⟩
    · exact roster₁ ▸ made
    · exact roster₁ ▸ roster
    · rw [← outside₁]
      exact outside

theorem requestPostponementRefund_spec {ticketId : ℕ}
    (h : requestPostponementRefund net env a ticketId w = .ok w') :
    w'.roster = w.roster ∧ ∃ p t ticket event s₁ w₂ first s₃ s₄,
      w.roster.paymentsContract = some p ∧ w.roster.ticketContract = some t ∧
      net.paymentsTicket env p ticketId w.outside = some (ticket, s₁) ∧
      w.roster.event ticket.eventId = some event ∧ event.status = .postponed ∧
      firstRevocable net env t a ticket.eventId { w with outside := s₁ } = .ok (some first, w₂) ∧
      net.requestPostponementRefund env p a ticketId w₂.outside = some s₃ ∧
      net.cancelTicket env t first a s₃ = some s₄ ∧ net.Queried env t s₄ w'.outside := by
  simp only [requestPostponementRefund, bind_eq_ok, pure_eq_ok, require_eq_ok, getEvent_ok,
    tell_eq_ok, ask_eq_ok, getPaymentsContract, getTicketContract, okOr_eq_ok] at h
  obtain ⟨-, -, p, payments, ⟨ticket, _⟩, ⟨s₁, asked, rfl⟩, event, stored, -, postponed, t,
    tickets, ⟨first, w₂⟩, scan, revocable, found, _, ⟨s₃, refunded, rfl⟩, _, ⟨s₄, revoked, rfl⟩,
    ⟨left, w₅⟩, rescan, rfl⟩ := h
  obtain rfl := found
  obtain ⟨frame₂, -⟩ := firstRevocable_queried scan
  obtain ⟨frame₅, queried⟩ := firstRevocable_queried rescan
  have roster : w₅.roster = w.roster := roster_congr (frame₅.trans frame₂)
  have cleared : (if left.isSome then w₅ else w₅.removeRegistration ticket.eventId a).roster =
        w.roster ∧
      (if left.isSome then w₅ else w₅.removeRegistration ticket.eventId a).outside =
        w₅.outside := by
    split
    · exact ⟨roster, rfl⟩
    · obtain ⟨same, outside⟩ := removeRegistration_roster w₅ ticket.eventId a
      exact ⟨same.trans roster, outside⟩
  refine ⟨cleared.1, p, t, ticket, event, s₁, w₂, revocable, s₃, s₄, payments, tickets, asked,
    stored, postponed, scan, refunded, revoked, ?_⟩
  rw [cleared.2]
  exact queried

end Claims

end Zicket.Events
