import Zicket.Inventory.Supply
import Zicket.Linked.Wiring

/-! Who is admitted with a ZK passport. The event contract pays for the seat itself, under a
nonce that the payments contract refuses, so of the admissible claims those for a free tier are
accepted and the others fail. -/

namespace Zicket.Tickets

open Host Foundation World

structure World.HasRoom (w : World) (e : Symbol) (owner : Address) : Prop where
  numbers : w.readNextTicketId + 1 < 2 ^ 64
  owned : w.getOwnerTicketsCount owner + 1 < 2 ^ 64
  listed : w.getEventTicketsCount e + 1 < 2 ^ 64

theorem mintTicket_succeeds_iff {env : Env} {w : World} {e : Symbol} {organizer owner : Address} :
    (∃ w', (Call.mintTicket e organizer owner).exec env w = .ok w') ↔
      requireMinter env w organizer = .ok () ∧ w.HasRoom e owner := by
  simp only [Call.exec, mintTicket, issueTicket, addOwnerTicket, addEventTicket, bind_eq_ok,
    pure_eq_ok, u64_eq_ok]
  constructor
  · rintro ⟨_, _, ⟨_, minter, _, ⟨_, ⟨_, ⟨owned, rfl⟩, rfl⟩, _, ⟨_, ⟨listed, rfl⟩, rfl⟩, rfl⟩, _,
      ⟨numbers, rfl⟩, rfl⟩, rfl⟩
    exact ⟨minter, numbers, owned, listed⟩
  · rintro ⟨minter, numbers, owned, listed⟩
    exact ⟨_, _, ⟨(), minter, _, ⟨_, ⟨_, ⟨owned, rfl⟩, rfl⟩, _, ⟨_, ⟨listed, rfl⟩, rfl⟩, rfl⟩, _,
      ⟨numbers, rfl⟩, rfl⟩, rfl⟩

end Zicket.Tickets

namespace Zicket.Payments

open Host Foundation

/-- A payment without a nonce is never accepted. -/
theorem payForTicket_nonce {env : Env} {w w' : World} {payer : Address} {e : Symbol} {amount : ℤ}
    {emailHash : Option (BytesN 32)} {token : Address} {level : PaymentPrivacy}
    {nullifier stealthKey : Option (BytesN 32)} :
    (Call.payForTicket 0 payer e amount emailHash token level nullifier stealthKey).exec env w ≠
      .ok w' := by
  intro h
  simp only [Call.exec, payForTicket, createPayment, bind_eq_ok, require_eq_ok] at h
  obtain ⟨-, ⟨-, -, -, -, -, named, -⟩, -⟩ := h
  exact named rfl

end Zicket.Payments

namespace Zicket.Events

open Host Foundation World

variable {σ : Type} {net : Network σ} {env : Env} {w w' : World σ} {e : Symbol} {event : Event}
  {tierId index : ℕ} {tier : TicketTier} {claim : ZkPassportClaim}

/-- The claim for the tier is one to accept: the event and its configuration let it in, it is
fresh, and the tier has a seat. -/
structure Admissible (env : Env) (w : World σ) (e : Symbol) (tierId : ℕ) (claim : ZkPassportClaim)
    (event : Event) (index : ℕ) (tier : TicketTier) : Prop where
  stored : w.roster.event e = some event
  active : event.status = .active
  standard : w.getEventPrivacy e = .standard
  verifies : event.requiresVerification = true
  enabled : (w.getZkVerificationConfig e).enabled = true
  unexpired : env.sequence ≤ claim.expiryLedger
  allowed : (w.getZkVerificationConfig e).requiredClaimType = .any ∨
    claim.claimType = (w.getZkVerificationConfig e).requiredClaimType
  fresh : w.has (.zkNullifier e claim.nullifier) = false
  found : event.findTier tierId = .ok (index, tier)
  seat : tier.sold + tier.reserved < tier.capacity

theorem Admissible.unique {event' : Event} {index' : ℕ} {tier' : TicketTier}
    (h : Admissible env w e tierId claim event index tier)
    (h' : Admissible env w e tierId claim event' index' tier') :
    event = event' ∧ index = index' ∧ tier = tier' := by
  obtain rfl : event = event' := Option.some.inj (h.stored.symm.trans h'.stored)
  have found : (index, tier) = (index', tier') := Except.ok.inj (h.found.symm.trans h'.found)
  exact ⟨rfl, congrArg Prod.fst found, congrArg Prod.snd found⟩

theorem verifyAndAttend_admissible (h : verifyAndAttend net env e tierId claim w = .ok w') :
    ∃ event index tier w₁, Admissible env w e tierId claim event index tier ∧
      chargeAttendance net env e event tier.price w = .ok w₁ ∧
      w'.roster = w₁.roster.putEvent e (event.sell index tier 1) := by
  simp only [verifyAndAttend, requireSettleablePrivacy, bind_eq_ok, pure_eq_ok, require_eq_ok,
    getEvent_ok] at h
  obtain ⟨event, stored, -, active, -, standard, -, verifies, -, enabled, -, unexpired, -, allowed,
    -, fresh, ⟨index, tier⟩, found, -, -, _, seat, w₁, charged, ⟨sold, w₂⟩, sells, rfl⟩ := h
  refine ⟨event, index, tier, w₁, ⟨stored, active, standard, verifies, enabled, unexpired, allowed,
    fresh, found, requireSeat_ok seat⟩, charged, ?_⟩
  obtain rfl := sellSeats_ok sells
  exact roster_saveEvent ..

theorem Admissible.attends {w₁ : World σ} (stocked : w.Stocked) (sized : w.Sized)
    (admissible : Admissible env w e tierId claim event index tier)
    (charged : chargeAttendance net env e event tier.price w = .ok w₁) :
    ∃ w', verifyAndAttend net env e tierId claim w = .ok w' := by
  obtain ⟨stored, active, standard, verifies, enabled, unexpired, allowed, fresh, found, seat⟩ :=
    admissible
  obtain ⟨remaining, taken, sold, soldCount⟩ :=
    room_of_seat stocked sized stored (findTier_ok found).1 seat
  obtain ⟨frame, -⟩ := chargeAttendance_told charged
  have present : (w₁.set (.zkNullifier e claim.nullifier) true).has (.event e) = true := by
    have same : w₁.roster.event e = some event := roster_congr frame ▸ stored
    exact congrArg Option.isSome same
  have seated : requireSeat tier = .ok () := by
    simp only [requireSeat, bind_eq_ok, u32_eq_ok, require_eq_ok]
    exact ⟨_, ⟨taken, rfl⟩, seat⟩
  simp only [verifyAndAttend, requireSettleablePrivacy, sellSeats, updateEvent, bind_eq_ok,
    pure_eq_ok, require_eq_ok, getEvent_ok, u32_eq_ok]
  exact ⟨_, event, stored, (), active, (), standard, (), verifies, (), enabled, (), unexpired, (),
    allowed, (), fresh, (index, tier), found, (), remaining, (), seated, w₁, charged, _,
    ⟨_, ⟨sold, rfl⟩, _, ⟨soldCount, rfl⟩, _, ⟨(), present, rfl⟩, rfl⟩, rfl⟩

end Zicket.Events

namespace Zicket.Linked

open Host Foundation Events

variable {links : Links} {setup : Setup} {env : Env} {w w' : World} {e : Symbol} {event : Event}
  {tierId index : ℕ} {tier : TicketTier} {claim : ZkPassportClaim}

/-- The linked contracts when the token follows the event contract's word for its own money. -/
def Links.granting (links : Links) : Network Outside :=
  { links.network with
    payForTicket := fun env p nonce payer e amount emailHash token level nullifier stealthKey =>
      links.callPayments env p
        (.payForTicket nonce payer e amount emailHash token level nullifier stealthKey) }

/-- The payments contract sells tickets of the event, and the event contract can pay the price. -/
structure PaymentsReady (links : Links) (w : World) (e : Symbol) (price : ℤ) : Prop where
  unpaused : w.outside.payments.isPaused = false
  synced : ∃ config, w.outside.payments.getEventConfig e = some config ∧
    ¬(0 < config.maxSupply ∧ config.maxSupply ≤ config.soldCount)
  funded : ∃ token, w.outside.payments.getAcceptedToken = .ok token ∧
    price ≤ w.outside.payments.balances token links.events

/-- Admissible claims are accepted and counted in their tier when the payments contract is
ready; all others are refused, and nothing changes. -/
def AttendsExactly (links : Links) (w : World) (invocation : Invocation) (e : Symbol)
    (tierId : ℕ) (claim : ZkPassportClaim) : Prop :=
  let env : Env := ⟨links.eventsAt, links.signed invocation⟩
  let attend : Call := .verifyAndAttend e tierId claim
  (∀ event index tier, Admissible env w e tierId claim event index tier →
    PaymentsReady links w e tier.price →
    ∃ w' event', attend.exec links.granting env w = .ok w' ∧ w'.roster.event e = some event' ∧
      event'.tiers[index]? = some { tier with sold := tier.sold + 1 }) ∧
  ((∀ event index tier, ¬ Admissible env w e tierId claim event index tier) →
    attend.succeeds links.granting env w = false ∧
      Events.World.next links.granting links.eventsAt w (.call (links.signed invocation) attend) =
        w)

/-- The tier charges nothing, and the ticket contract has a number left for the ticket. -/
structure Settles (links : Links) (w : World) (event : Event) (tier : TicketTier) : Prop where
  free : tier.price ≤ 0
  room : w.outside.tickets.HasRoom event.eventId links.events

theorem callPayments_nonce {p payer token : Address} {amount : ℤ}
    {emailHash nullifier stealthKey : Option (BytesN 32)} {level : Payments.PaymentPrivacy}
    (s : Outside) : links.callPayments env p
      (.payForTicket 0 payer e amount emailHash token level nullifier stealthKey) s = none := by
  unfold Links.callPayments
  split
  · cases result : (Payments.Call.payForTicket 0 payer e amount emailHash token level nullifier
        stealthKey).exec (Links.calling env links.payments) s.payments with
    | error failure => rfl
    | ok paid => exact absurd result Payments.payForTicket_nonce
  · rfl

theorem chargePriced_nonce {p payer : Address} {price amount : ℤ}
    {emailHash : Option (BytesN 32)} :
    chargePriced links.granting env p 0 payer e price amount emailHash w = .ok w' ↔
      price ≤ 0 ∧ w' = w := by
  unfold chargePriced
  split
  · rename_i priced
    simp only [chargeTicket, Links.granting, bind_eq_ok, World.tell_eq_ok, callPayments_nonce]
    constructor
    · rintro ⟨_, -, _, paid, -⟩
      cases paid
    · rintro ⟨free, -⟩
      omega
  · rename_i free
    rw [pure_eq_ok, eq_comm]
    exact (and_iff_right (Int.not_lt.mp free)).symm

theorem mintTicket_iff (kept : w.outside.Kept links) (here : env.currentContract = links.events)
    (e : Symbol) (organizer : Address) :
    (∃ s', links.granting.mintTicket env links.tickets e organizer env.currentContract w.outside =
      some s') ↔ w.outside.tickets.HasRoom e links.events := by
  have minter : Tickets.requireMinter (Links.calling env links.tickets) w.outside.tickets
      organizer = .ok () := by
    rw [Tickets.requireMinter, kept.minter]
    refine requireAuth_eq_ok.mpr ?_
    simp [Links.calling, here]
  have minted : (∃ tickets, (Tickets.Call.mintTicket e organizer links.events).exec
      (Links.calling env links.tickets) w.outside.tickets = .ok tickets) ↔ _ :=
    Tickets.mintTicket_succeeds_iff
  rw [here]
  constructor
  · rintro ⟨s', sent⟩
    obtain ⟨tickets, result, -⟩ := Links.deliver_tickets.mp sent
    exact (minted.mp ⟨tickets, result⟩).2
  · intro room
    obtain ⟨tickets, result⟩ := minted.mpr ⟨minter, room⟩
    exact ⟨_, Links.deliver_tickets.mpr ⟨tickets, result, rfl⟩⟩

theorem chargeAttendance_iff (wired : Wired links w) (here : env.currentContract = links.events) :
    (∃ w₁, chargeAttendance links.granting env e event tier.price w = .ok w₁) ↔
      Settles links w event tier := by
  have payments : w.roster.paymentsContract = some links.payments := (Prod.ext_iff.mp wired.ends).2
  have tickets : w.roster.ticketContract = some links.tickets := (Prod.ext_iff.mp wired.ends).1
  have linked : w.hasLinkedContracts = true := by
    rw [hasLinkedContracts_iff, Roster.Linked, payments, tickets]
    exact ⟨rfl, rfl⟩
  have mints := mintTicket_iff wired.outside here event.eventId event.organizer
  unfold chargeAttendance
  rw [if_pos linked]
  simp only [bind_eq_ok, World.getPaymentsContract, World.getTicketContract, okOr_eq_ok, World.tell_eq_ok,
    chargePriced_nonce]
  constructor
  · rintro ⟨w₁, p, -, _, ⟨free, rfl⟩, t, stored, s', sent, -⟩
    obtain rfl : links.tickets = t := Option.some.inj (tickets.symm.trans stored)
    exact ⟨free, mints.mp ⟨s', sent⟩⟩
  · rintro ⟨free, room⟩
    obtain ⟨s', sent⟩ := mints.mpr room
    exact ⟨_, links.payments, payments, w, ⟨free, rfl⟩, links.tickets, tickets, s', sent, rfl⟩

def Seated (w : World) : Prop := w.Stocked ∧ w.Sized

theorem next_seated {step : Step} (seated : Seated w) : Seated (links.next w step) := by
  cases step with
  | events invocation c =>
    exact commit_induction (P := Seated) seated
      fun _ accepted => ⟨exec_stocked seated.1 accepted, exec_sized seated.2 accepted⟩
  | _ => exact seated

theorem run_seated (links : Links) (setup : Setup) (steps : List Step) :
    Seated (run links.next (links.opened setup) steps) := by
  refine run_invariant (I := Seated) (fun _ _ seated _ => next_seated seated)
    (along_of_forall (fun _ _ => trivial) _ steps) ⟨?_, nofun⟩
  have stocked := deployed_stocked (links.opened setup).outside
  exact stocked

theorem attends_counted (admissible : Admissible env w e tierId claim event index tier)
    (h : verifyAndAttend links.granting env e tierId claim w = .ok w') :
    ∃ event', w'.roster.event e = some event' ∧
      event'.tiers[index]? = some { tier with sold := tier.sold + 1 } := by
  obtain ⟨event₁, index₁, tier₁, w₁, checked, -, roster⟩ := verifyAndAttend_admissible h
  obtain ⟨rfl, rfl, rfl⟩ := admissible.unique checked
  refine ⟨event.sell index tier 1, ?_, ?_⟩
  · rw [roster]
    exact Function.update_self ..
  · have lt := (List.getElem?_eq_some_iff.mp (findTier_ok admissible.found).1).1
    exact List.getElem?_set_self lt

theorem attends_iff (wired : Wired links w) (seated : Seated w)
    (here : env.currentContract = links.events) :
    (∃ w', verifyAndAttend links.granting env e tierId claim w = .ok w') ↔
      ∃ event index tier, Admissible env w e tierId claim event index tier ∧
        Settles links w event tier := by
  constructor
  · rintro ⟨w', h⟩
    obtain ⟨event, index, tier, w₁, admissible, charged, -⟩ := verifyAndAttend_admissible h
    exact ⟨event, index, tier, admissible, (chargeAttendance_iff wired here).mp ⟨w₁, charged⟩⟩
  · rintro ⟨event, index, tier, admissible, settles⟩
    obtain ⟨w₁, charged⟩ := (chargeAttendance_iff wired here).mpr settles
    exact admissible.attends seated.1 seated.2 charged

theorem attendsExactly_iff (wired : Wired links w) (seated : Seated w) {invocation : Invocation} :
    AttendsExactly links w invocation e tierId claim ↔ ∀ event index tier,
      Admissible ⟨links.eventsAt, links.signed invocation⟩ w e tierId claim event index tier →
        PaymentsReady links w e tier.price → Settles links w event tier := by
  let env : Env := ⟨links.eventsAt, links.signed invocation⟩
  have accepts : (∃ w', verifyAndAttend links.granting env e tierId claim w = .ok w') ↔ _ :=
    attends_iff wired seated rfl
  constructor
  · rintro ⟨accepted, -⟩ event index tier admissible ready
    obtain ⟨w', -, success, -⟩ := accepted event index tier admissible ready
    obtain ⟨event₁, index₁, tier₁, checked, settles⟩ := accepts.mp ⟨w', success⟩
    obtain ⟨rfl, rfl, rfl⟩ := admissible.unique checked
    exact settles
  · intro settles
    refine ⟨fun event index tier admissible ready => ?_, fun refused => ?_⟩
    · obtain ⟨w', success⟩ :=
        accepts.mpr ⟨event, index, tier, admissible, settles event index tier admissible ready⟩
      obtain ⟨event', stored, counted⟩ := attends_counted admissible success
      exact ⟨w', event', success, stored, counted⟩
    · cases result : verifyAndAttend links.granting env e tierId claim w with
      | error failure =>
        have outcome : (Call.verifyAndAttend e tierId claim).exec links.granting env w =
            .error failure := result
        refine ⟨congrArg Except.isOk outcome, ?_⟩
        exact congrArg (commit w) outcome
      | ok w' =>
        obtain ⟨event, index, tier, admissible, -⟩ := accepts.mp ⟨w', result⟩
        exact absurd admissible (refused event index tier)

/-- In every state of the linked contracts `verify_and_attend` accepts exactly the admissible
claims, the payments contract being ready, just in case the tier claimed is then a free one and
the ticket contract has numbers left. -/
theorem verify_and_attend_exact_iff {steps : List Step} (linked : LinkedRun links setup steps)
    (invocation : Invocation) (e : Symbol) (tierId : ℕ) (claim : ZkPassportClaim) :
    let w := run links.next (links.opened setup) steps
    AttendsExactly links w invocation e tierId claim ↔ ∀ event index tier,
      Admissible ⟨links.eventsAt, links.signed invocation⟩ w e tierId claim event index tier →
        PaymentsReady links w e tier.price → Settles links w event tier :=
  attendsExactly_iff (run_wired linked (opened_wired links setup)) (run_seated links setup steps)

namespace Sample

def verifying : List Step :=
  [events 1 (.createEvent { params with requiresVerification := true }),
    events 2 (.updateEventStatus organizer concert .active),
    events 2 (.setZkConfig organizer concert ⟨.any, true⟩),
    .mint token Sample.links.events 1000]

def adult : ZkPassportClaim :=
  { claimType := .age, proof := [], nullifier := Vector.replicate 32 1, expiryLedger := 10 }

def seat : TicketTier :=
  { tierId := 0, name := "seat", price := 100, capacity := 10, sold := 0, reserved := 0 }

end Sample

theorem verify_and_attend_exact_sample :
    let w := run Sample.links.next (Sample.links.opened Sample.setup) Sample.verifying
    AttendsExactly Sample.links w (Sample.invocation 3) Sample.concert 1 Sample.adult ↔
      ∀ event index tier,
        Admissible ⟨Sample.links.eventsAt, Sample.links.signed (Sample.invocation 3)⟩ w
            Sample.concert 1 Sample.adult event index tier →
          PaymentsReady Sample.links w Sample.concert tier.price →
            Settles Sample.links w event tier :=
  verify_and_attend_exact_iff (by decide) (Sample.invocation 3) Sample.concert 1 Sample.adult

/-- A seat at 100 is claimed in vain. -/
theorem paid_seat_refused :
    let w := run Sample.links.next (Sample.links.opened Sample.setup) Sample.verifying
    let env : Env := ⟨Sample.links.eventsAt, Sample.links.signed (Sample.invocation 3)⟩
    LinkedRun Sample.links Sample.setup Sample.verifying ∧
      (∃ event, Admissible env w Sample.concert 0 Sample.adult event 0 Sample.seat) ∧
      PaymentsReady Sample.links w Sample.concert Sample.seat.price ∧
      ¬ AttendsExactly Sample.links w (Sample.invocation 3) Sample.concert 0 Sample.adult := by
  intro w env
  obtain ⟨event, stored, sale⟩ := Option.map_eq_some_iff.mp
    (show (w.get (.event Sample.concert)).map
        (fun event : Event => (event.status, event.requiresVerification, event.tiers.head?)) =
      some (.active, true, some Sample.seat) by decide)
  simp only [Prod.mk.injEq] at sale
  obtain ⟨active, verifies, first⟩ := sale
  obtain ⟨rest, tiers⟩ := List.head?_eq_some_iff.mp first
  have admissible : Admissible env w Sample.concert 0 Sample.adult event 0 Sample.seat :=
    { stored, active, verifies
      standard := by decide
      enabled := by decide
      unexpired := by decide
      allowed := by decide
      fresh := by decide
      found := by
        unfold Event.findTier Event.tierIndex
        rw [tiers]
        rfl
      seat := by decide }
  have ready : PaymentsReady Sample.links w Sample.concert Sample.seat.price :=
    { unpaused := by decide
      synced := by
        obtain ⟨config, synced, supply⟩ := Option.map_eq_some_iff.mp
          (show (w.outside.payments.getEventConfig Sample.concert).map (·.soldCount) = some 0 by
            decide)
        exact ⟨config, synced, by omega⟩
      funded := ⟨Sample.token, by decide, by decide⟩ }
  have refused : (Call.verifyAndAttend Sample.concert 0 Sample.adult).succeeds Sample.links.granting
      env w = false := by decide
  refine ⟨by decide, ⟨event, admissible⟩, ready, fun attends => ?_⟩
  obtain ⟨w', -, success, -⟩ := attends.1 event 0 Sample.seat admissible ready
  have accepted : (Call.verifyAndAttend Sample.concert 0 Sample.adult).succeeds Sample.links.granting
      env w = true := congrArg Except.isOk success
  rw [accepted] at refused
  cases refused

/-- A free seat is claimed with success. -/
example : (Call.verifyAndAttend Sample.concert 1 Sample.adult).succeeds Sample.links.granting
    ⟨Sample.links.eventsAt, Sample.links.signed (Sample.invocation 3)⟩
    (run Sample.links.next (Sample.links.opened Sample.setup) Sample.verifying) = true := by
  decide

end Zicket.Linked
