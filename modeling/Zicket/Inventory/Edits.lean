import Zicket.Inventory.View

/-! What the organizer's operations do: which event they write, what they tell the payments
contract, and which change of the inventory that is. -/

namespace Zicket.Events

open Host Foundation World

variable {σ : Type} {net : Network σ} {env : Env} {w w' : World σ} {e : Symbol} {event : Event}

def Roster.Linked (r : Roster) : Prop :=
  r.ticketContract.isSome = true ∧ r.paymentsContract.isSome = true

theorem hasLinkedContracts_iff : w.hasLinkedContracts = true ↔ w.roster.Linked := by
  unfold hasLinkedContracts Roster.Linked World.has Store.has
  rw [Bool.and_eq_true]
  rfl

/-- `outside` is what the call makes of the present outside, if the contracts are linked. -/
def World.Told (w : World σ) (call : Address → σ → Option σ) (outside : σ) : Prop :=
  (w.roster.Linked → ∃ paymentsContract, w.roster.paymentsContract = some paymentsContract ∧
    call paymentsContract w.outside = some outside) ∧
  (¬ w.roster.Linked → outside = w.outside)

theorem World.Told.andThen {first second : Address → σ → Option σ} {outside : σ}
    (told : w.Told first w'.outside) (frame : w'.roster = w.roster) (next : w'.Told second outside) :
    w.Told (fun p s => (first p s).bind (second p)) outside := by
  unfold Told at next
  rw [frame] at next
  constructor
  · intro linked
    obtain ⟨p, stored, call⟩ := told.1 linked
    obtain ⟨p', stored', call'⟩ := next.1 linked
    rw [stored] at stored'
    cases stored'
    exact ⟨p, stored, (congrArg (·.bind (second p)) call).trans call'⟩
  · intro unlinked
    exact (next.2 unlinked).trans (told.2 unlinked)

theorem getEvent_ok : w.getEvent e = .ok event ↔ w.roster.event e = some event := okOr_eq_ok

theorem ownEvent_ok {organizer : Address} :
    ownEvent w e organizer = .ok event ↔ w.roster.event e = some event ∧ event.organizer = organizer := by
  simp only [ownEvent, bind_eq_ok, pure_eq_ok, getEvent_ok, require_eq_ok]
  constructor
  · rintro ⟨_, stored, -, own, rfl⟩
    exact ⟨stored, own⟩
  · rintro ⟨stored, own⟩
    exact ⟨event, stored, (), own, rfl⟩

theorem updateEvent_ok (h : w.updateEvent e event = .ok w') : w' = w.saveEvent e event := by
  simp only [updateEvent, bind_eq_ok, pure_eq_ok] at h
  obtain ⟨-, -, rfl⟩ := h
  rfl

theorem tellPayments_told {call : Address → σ → Option σ} (h : tellPayments w call = .ok w') :
    w'.storage = w.storage ∧ w.Told call w'.outside := by
  unfold tellPayments at h
  split at h
  · rename_i linked
    simp only [bind_eq_ok, getPaymentsContract, okOr_eq_ok, tell_eq_ok] at h
    obtain ⟨paymentsContract, stored, outside, told, rfl⟩ := h
    exact ⟨rfl, fun _ => ⟨paymentsContract, stored, told⟩,
      fun unlinked => absurd (hasLinkedContracts_iff.mp linked) unlinked⟩
  · rename_i unlinked
    cases h
    exact ⟨rfl, fun linked => absurd (hasLinkedContracts_iff.mpr linked) unlinked, fun _ => rfl⟩

/-- What `sync_event_config` and the call after it make of the outside. -/
def syncThen (net : Network σ) (env : Env) (e : Symbol) (event : Event)
    (more : Address → σ → Option σ) (paymentsContract : Address) (outside : σ) : Option σ :=
  (net.syncEventConfig env paymentsContract env.currentContract e event.terms outside).bind
    (more paymentsContract)

theorem syncConfig_told {more : Address → World σ → Attempt (World σ)}
    {call : Address → σ → Option σ}
    (calls : ∀ p (w w' : World σ), more p w = .ok w' →
      w'.storage = w.storage ∧ call p w.outside = some w'.outside)
    (h : syncConfig net env e event more w = .ok w') :
    w'.storage = w.storage ∧ w.Told (syncThen net env e event call) w'.outside := by
  unfold syncConfig at h
  split at h
  · rename_i linked
    simp only [bind_eq_ok, getPaymentsContract, okOr_eq_ok, tell_eq_ok] at h
    obtain ⟨paymentsContract, stored, _, ⟨outside, told, rfl⟩, h⟩ := h
    obtain ⟨frame, rest⟩ := calls _ _ _ h
    refine ⟨frame, fun _ => ⟨paymentsContract, stored, ?_⟩,
      fun unlinked => absurd (hasLinkedContracts_iff.mp linked) unlinked⟩
    rw [syncThen, told]
    exact rest
  · rename_i unlinked
    cases h
    exact ⟨rfl, fun linked => absurd (hasLinkedContracts_iff.mpr linked) unlinked, fun _ => rfl⟩

section Create

def askToken (net : Network σ) (env : Env) (paymentsContract : Address) (outside : σ) : Option σ :=
  (net.getAcceptedToken env paymentsContract outside).map (·.2)

def tellSplits (net : Network σ) (env : Env) (e : Symbol) (splits : List (Address × ℕ))
    (paymentsContract : Address) (outside : σ) : Option σ :=
  if splits.isEmpty then some outside
  else net.syncRevenueSplits env paymentsContract env.currentContract e splits outside

def announce (net : Network σ) (env : Env) (event : Event) (paymentsContract : Address)
    (outside : σ) : Option σ :=
  (askToken net env paymentsContract outside).bind
    (syncThen net env event.eventId event
      (tellSplits net env event.eventId event.revenueSplits) paymentsContract)

theorem buildTiers_tiers {params : List TicketTierParams} : ∀ {nextId maxSupply : ℕ}
    {tiers : List TicketTier} {total : ℕ},
    buildTiers params nextId maxSupply = .ok (tiers, total) →
      tiers.map (·.tierId) = List.range' nextId tiers.length ∧
      total = maxSupply + (tiers.map (·.capacity)).sum ∧
      ∀ tier ∈ tiers, Inventory.Unsold tier := by
  induction params with
  | nil =>
    intro nextId maxSupply tiers total h
    simp only [buildTiers, pure_eq_ok] at h
    cases h
    exact ⟨rfl, rfl, by simp⟩
  | cons first rest ih =>
    intro nextId maxSupply tiers total h
    simp only [buildTiers, bind_eq_ok, pure_eq_ok] at h
    obtain ⟨-, -, -, -, -, -, -, -, ⟨tiers', total'⟩, built, h⟩ := h
    cases h
    obtain ⟨numbers, supply, unsold⟩ := ih built
    refine ⟨?_, ?_, ?_⟩
    · simp [numbers, List.range'_succ]
    · simp only [List.map_cons, List.sum_cons]
      omega
    · intro tier mem
      obtain rfl | mem := List.mem_cons.mp mem
      · exact ⟨rfl, rfl⟩
      · exact unsold tier mem

theorem checkPayoutToken_told {payoutToken : Address}
    (h : checkPayoutToken net env payoutToken w = .ok w') :
    w'.storage = w.storage ∧
      w.Told (askToken net env) w'.outside := by
  unfold checkPayoutToken at h
  split at h
  · rename_i linked
    simp only [bind_eq_ok, getPaymentsContract, okOr_eq_ok, ask_eq_ok, pure_eq_ok] at h
    obtain ⟨paymentsContract, stored, ⟨token, _⟩, ⟨outside, asked, rfl⟩, -, -, rfl⟩ := h
    have answer : askToken net env paymentsContract w.outside = some outside := by
      rw [askToken, asked]
      rfl
    exact ⟨rfl, fun _ => ⟨paymentsContract, stored, answer⟩,
      fun unlinked => absurd (hasLinkedContracts_iff.mp linked) unlinked⟩
  · rename_i unlinked
    cases h
    exact ⟨rfl, fun linked => absurd (hasLinkedContracts_iff.mpr linked) unlinked, fun _ => rfl⟩

theorem syncSplits_told {splits : List (Address × ℕ)} {p : Address}
    (h : syncSplits net env e splits p w = .ok w') :
    w'.storage = w.storage ∧ tellSplits net env e splits p w.outside = some w'.outside := by
  unfold syncSplits at h
  split at h
  · rename_i empty
    cases h
    exact ⟨rfl, if_pos empty⟩
  · rename_i given
    obtain ⟨outside, told, rfl⟩ := tell_eq_ok.mp h
    exact ⟨rfl, (if_neg given).trans told⟩

/-- What a created event passed, and the calls before and after it is saved. -/
theorem createEvent_ok {params : CreateEventParams}
    (h : createEvent net env params w = .ok (event, w')) :
    ∃ tiers maxSupply w₁ w₂, params.eventStartLedger ≤ params.eventEndLedger ∧
      buildTiers params.initialTiers 0 0 = .ok (tiers, maxSupply) ∧
      event = params.toEvent tiers maxSupply env.timestamp ∧
      w.has (.event params.eventId) = false ∧
      checkPayoutToken net env params.payoutToken w = .ok w₁ ∧
      syncConfig net env params.eventId event
        (syncSplits net env params.eventId params.revenueSplits)
        ((w₁.saveEvent params.eventId event).setEventPrivacy params.eventId params.privacyLevel) =
          .ok w₂ ∧
      w' = w₂.emitEventCreated env params (w₂.getEventPrivacy params.eventId) := by
  simp only [createEvent, bind_eq_ok, pure_eq_ok, require_eq_ok] at h
  obtain ⟨-, -, -, -, -, -, _, -, -, -, -, ordered, -, -, -, -, -, -, -, -, ⟨tiers, maxSupply⟩,
    built, -, new, w₁, asked, w₂, synced, h⟩ := h
  cases h
  exact ⟨tiers, maxSupply, w₁, w₂, ordered, built, rfl, new, asked, synced, rfl⟩

theorem createEvent_spec {params : CreateEventParams}
    (h : createEvent net env params w = .ok (event, w')) :
    ∃ tiers maxSupply, buildTiers params.initialTiers 0 0 = .ok (tiers, maxSupply) ∧
      event = params.toEvent tiers maxSupply env.timestamp ∧
      w.roster.event params.eventId = none ∧
      w'.roster = w.roster.putEvent params.eventId event ∧
      w.Told (announce net env event) w'.outside := by
  obtain ⟨tiers, maxSupply, w₁, w₂, -, built, rfl, new, asked, synced, rfl⟩ := createEvent_ok h
  obtain ⟨frame₁, told₁⟩ := checkPayoutToken_told asked
  obtain ⟨frame₂, told₂⟩ := syncConfig_told (fun _ _ _ => syncSplits_told) synced
  have absent : w.roster.event params.eventId = none := by
    change w.get _ = none
    simpa [World.has, Store.has, World.get] using new
  have view : w₂.roster = w.roster.putEvent params.eventId
      (params.toEvent tiers maxSupply env.timestamp) := by
    rw [roster_congr frame₂, ← roster_congr frame₁]
    exact roster_saveEvent ..
  exact ⟨tiers, maxSupply, built, rfl, absent, view, told₁.andThen (roster_congr frame₁) told₂⟩

theorem create_sound {params : CreateEventParams} {tiers : List TicketTier} {maxSupply : ℕ}
    (built : buildTiers params.initialTiers 0 0 = .ok (tiers, maxSupply)) {r : Inventory}
    (absent : r.status = none) : r.Sound (.create tiers maxSupply) := by
  obtain ⟨numbers, supply, unsold⟩ := buildTiers_tiers built
  refine ⟨absent, ?_, by omega, unsold⟩
  rw [numbers, List.range_eq_range']

end Create

section Details

structure Event.SameSales (event edited : Event) : Prop where
  eventId : edited.eventId = event.eventId
  status : edited.status = event.status
  tiers : edited.tiers = event.tiers
  maxSupply : edited.maxSupply = event.maxSupply
  soldCount : edited.soldCount = event.soldCount
  organizer : edited.organizer = event.organizer
  payoutToken : edited.payoutToken = event.payoutToken
  eventStartLedger : edited.eventStartLedger = event.eventStartLedger
  eventEndLedger : edited.eventEndLedger = event.eventEndLedger

theorem Event.SameSales.refl (event : Event) : event.SameSales event :=
  ⟨rfl, rfl, rfl, rfl, rfl, rfl, rfl, rfl, rfl⟩

theorem Event.SameSales.trans {first second third : Event} (h : first.SameSales second)
    (h' : second.SameSales third) : first.SameSales third :=
  ⟨h'.eventId.trans h.eventId, h'.status.trans h.status, h'.tiers.trans h.tiers,
    h'.maxSupply.trans h.maxSupply, h'.soldCount.trans h.soldCount,
    h'.organizer.trans h.organizer, h'.payoutToken.trans h.payoutToken,
    h'.eventStartLedger.trans h.eventStartLedger, h'.eventEndLedger.trans h.eventEndLedger⟩

theorem applyOption_same {α : Type} {option : Option α} {check : α → Attempt Unit}
    {change : Event → α → Event} {edited : Event}
    (same : ∀ (event : Event) value, event.SameSales (change event value))
    (h : applyOption option check change event = .ok edited) : event.SameSales edited := by
  unfold applyOption at h
  cases option with
  | none =>
    cases h
    exact .refl event
  | some value =>
    simp only [bind_eq_ok, pure_eq_ok] at h
    obtain ⟨-, -, rfl⟩ := h
    exact same event value

theorem editEvent_same {params : UpdateEventParams} {edited : Event}
    (h : editEvent env params event = .ok edited) : event.SameSales edited := by
  simp only [editEvent, bind_eq_ok] at h
  obtain ⟨_, h₁, _, h₂, _, h₃, _, h₄, _, h₅, _, h₆, _, h₇, _, h₈, _, h₉, h₁₀⟩ := h
  have same {first second : Event} {α : Type} {option : Option α} {check : α → Attempt Unit}
      {change : Event → α → Event} (applied : applyOption option check change first = .ok second)
      (eq : ∀ (event : Event) value, event.SameSales (change event value)) : first.SameSales second :=
    applyOption_same eq applied
  refine (same h₁ ?_).trans <| (same h₂ ?_).trans <| (same h₃ ?_).trans <| (same h₄ ?_).trans <|
    (same h₅ ?_).trans <| (same h₆ ?_).trans <| (same h₇ ?_).trans <| (same h₈ ?_).trans <|
    (same h₉ ?_).trans (same h₁₀ ?_) <;>
    exact fun _ _ => ⟨rfl, rfl, rfl, rfl, rfl, rfl, rfl, rfl, rfl⟩

theorem updateEventDetails_spec {params : UpdateEventParams} {edited : Event}
    (h : updateEventDetails net env params w = .ok (edited, w')) :
    ∃ event, w.roster.event params.eventId = some event ∧ event.status = .upcoming ∧
      event.SameSales edited ∧ w'.roster = w.roster.putEvent params.eventId edited ∧
      w.Told (syncThen net env params.eventId edited fun _ s => some s) w'.outside := by
  simp only [updateEventDetails, bind_eq_ok, pure_eq_ok, require_eq_ok, ownEvent_ok] at h
  obtain ⟨-, -, event, ⟨stored, -⟩, -, upcoming, _, edits, w₁, synced, h⟩ := h
  cases h
  have silent : ∀ (_ : Address) (w w' : World σ), (pure w : Attempt (World σ)) = .ok w' →
      w'.storage = w.storage ∧ some w.outside = some w'.outside := by
    intro _ w w' h
    cases h
    exact ⟨rfl, rfl⟩
  obtain ⟨frame, told⟩ := syncConfig_told silent synced
  refine ⟨event, stored, upcoming, editEvent_same edits, ?_, told⟩
  exact (roster_congr frame).trans (roster_saveEvent ..)

end Details

section Tiers

theorem addTicketTier_spec {organizer : Address} {name : String} {price : ℤ} {capacity : ℕ}
    {tier : TicketTier} (h : addTicketTier env organizer e name price capacity w = .ok (tier, w')) :
    ∃ event, w.roster.event e = some event ∧ event.status = .upcoming ∧
      tier.tierId = event.tiers.length ∧ tier.capacity = capacity ∧ 0 < capacity ∧
      Inventory.Unsold tier ∧
      w' = w.saveEvent e
        { event with maxSupply := event.maxSupply + capacity, tiers := event.tiers ++ [tier] } := by
  simp only [addTicketTier, bind_eq_ok, pure_eq_ok, require_eq_ok, ownEvent_ok] at h
  obtain ⟨-, -, event, ⟨stored, -⟩, -, upcoming, -, -, -, capacities, -, -, -, -, h⟩ := h
  cases h
  exact ⟨event, stored, upcoming, rfl, rfl, by omega, ⟨rfl, rfl⟩, rfl⟩

theorem findTier_ok {tierId index : ℕ} {tier : TicketTier}
    (h : event.findTier tierId = .ok (index, tier)) :
    event.tiers[index]? = some tier ∧ tier.tierId = tierId := by
  simp only [Event.findTier, bind_eq_ok, pure_eq_ok, okOr_eq_ok] at h
  obtain ⟨index, found, tier, stored, h⟩ := h
  cases h
  refine ⟨stored, ?_⟩
  obtain ⟨lt, same⟩ := List.getElem?_eq_some_iff.mp stored
  have := (List.findIdx?_eq_some_iff_getElem.mp found)
  obtain ⟨lt', same', -⟩ := this
  subst same
  simpa using same'

theorem renameTier_ok {tier renamed : TicketTier} {name : Option String}
    (h : renameTier tier name = .ok renamed) : renamed = { tier with name := renamed.name } := by
  unfold renameTier at h
  cases name with
  | none =>
    cases h
    rfl
  | some n =>
    simp only [bind_eq_ok, pure_eq_ok] at h
    obtain ⟨-, -, rfl⟩ := h
    rfl

theorem repriceTier_ok {tier repriced : TicketTier} {price : Option ℤ}
    (h : repriceTier tier price = .ok repriced) :
    repriced = { tier with price := repriced.price } := by
  unfold repriceTier at h
  cases price with
  | none =>
    cases h
    rfl
  | some p =>
    simp only [bind_eq_ok, pure_eq_ok] at h
    obtain ⟨-, -, rfl⟩ := h
    rfl

theorem resizeTier_ok {tier resized : TicketTier} {event' : Event} {capacity : Option ℕ}
    (h : resizeTier event tier capacity = .ok (event', resized)) :
    resized = { tier with capacity := capacity.getD tier.capacity } ∧
      event' = { event with maxSupply := event'.maxSupply } ∧
      event'.maxSupply + tier.capacity = event.maxSupply + resized.capacity := by
  unfold resizeTier at h
  cases capacity with
  | none =>
    cases h
    exact ⟨rfl, rfl, rfl⟩
  | some c =>
    simp only [bind_eq_ok, pure_eq_ok, require_eq_ok] at h
    obtain ⟨-, -, -, -, -, ⟨le, -⟩, -, -, h⟩ := h
    cases h
    exact ⟨rfl, rfl, by simp only; omega⟩

theorem updateTier_spec {organizer : Address} {tierId : ℕ} {name : Option String}
    {price : Option ℤ} {capacity : Option ℕ}
    (h : updateTier env organizer e tierId name price capacity w = .ok w') :
    ∃ event index tier edited maxSupply, w.roster.event e = some event ∧
      event.status = .upcoming ∧ event.findTier tierId = .ok (index, tier) ∧
      edited = { tier with
        name := edited.name, price := edited.price, capacity := capacity.getD tier.capacity } ∧
      maxSupply + tier.capacity = event.maxSupply + edited.capacity ∧
      w' = w.saveEvent e { event with maxSupply, tiers := event.tiers.set index edited } := by
  simp only [updateTier, bind_eq_ok, pure_eq_ok, require_eq_ok, ownEvent_ok] at h
  obtain ⟨-, -, event, ⟨stored, -⟩, -, upcoming, ⟨index, tier⟩, found, renamed, h₁, repriced, h₂,
    ⟨event', edited⟩, h₃, rfl⟩ := h
  have named := renameTier_ok h₁
  have priced := repriceTier_ok h₂
  obtain ⟨resized, same, supply⟩ := resizeTier_ok h₃
  have capacities : repriced.capacity = tier.capacity := by rw [priced, named]
  rw [capacities] at resized supply
  refine ⟨event, index, tier, edited, event'.maxSupply, stored, upcoming, found, ?_, supply, ?_⟩
  · rw [resized, priced, named]
  · rw [same]

end Tiers

section Status

variable {organizer : Address}

theorem updateEventStatus_spec {newStatus : EventStatus}
    (h : updateEventStatus env organizer e newStatus w = .ok w') :
    ∃ event, w.roster.event e = some event ∧
      (event.status = .upcoming ∧ newStatus = .active ∨
        event.status = .active ∧ newStatus = .completed) ∧
      w'.roster = w.roster.putEvent e { event with status := newStatus } ∧
      w'.outside = w.outside := by
  simp only [updateEventStatus, bind_eq_ok, pure_eq_ok, require_eq_ok, ownEvent_ok] at h
  obtain ⟨-, -, event, ⟨stored, -⟩, -, transition, w₁, updated, rfl⟩ := h
  obtain rfl := updateEvent_ok updated
  exact ⟨event, stored, transition, roster_saveEvent .., rfl⟩

theorem cancelEvent_spec (h : cancelEvent net env organizer e w = .ok w') :
    ∃ event, w.roster.event e = some event ∧ event.organizer = organizer ∧
      event.status ≠ .completed ∧ event.status ≠ .cancelled ∧
      w'.roster = w.roster.putEvent e { event with status := .cancelled } ∧
      w.Told (fun p => net.cancelEvent env p e organizer) w'.outside := by
  simp only [cancelEvent, bind_eq_ok, require_eq_ok, ownEvent_ok] at h
  obtain ⟨-, -, event, ⟨stored, own⟩, -, ⟨open₁, open₂⟩, w₁, updated, told⟩ := h
  obtain rfl := updateEvent_ok updated
  obtain ⟨frame, told⟩ := tellPayments_told told
  exact ⟨event, stored, own, open₁, open₂,
    (roster_congr frame).trans (roster_saveEvent ..), told⟩

theorem postponeEvent_spec {newDateLedger choiceWindowLedgers : ℕ}
    (h : postponeEvent net env organizer e newDateLedger choiceWindowLedgers w = .ok w') :
    ∃ event, w.roster.event e = some event ∧ event.organizer = organizer ∧
      event.status = .active ∧
      w'.roster = w.roster.putEvent e { event with status := .postponed } ∧
      w.Told (fun p => net.postponeEvent env p e organizer (env.sequence + choiceWindowLedgers))
        w'.outside := by
  simp only [postponeEvent, bind_eq_ok, require_eq_ok, ownEvent_ok] at h
  obtain ⟨-, -, event, ⟨stored, own⟩, -, active, -, -, -, -, -, -, -, -, -, -, -, -, w₁, updated,
    told⟩ := h
  obtain rfl := updateEvent_ok updated
  obtain ⟨frame, told⟩ := tellPayments_told told
  exact ⟨event, stored, own, active, (roster_congr frame).trans (roster_saveEvent ..), told⟩

theorem finalizePostponement_spec (h : finalizePostponement net env organizer e w = .ok w') :
    ∃ event start stop, w.roster.event e = some event ∧ event.organizer = organizer ∧
      event.status = .postponed ∧
      w'.roster = w.roster.putEvent e
        { event with eventStartLedger := start, eventEndLedger := stop, status := .active } ∧
      w.Told (syncThen net env e
          { event with eventStartLedger := start, eventEndLedger := stop, status := .active }
          fun p => net.resumeEvent env p e organizer) w'.outside := by
  simp only [finalizePostponement, bind_eq_ok, require_eq_ok, ownEvent_ok, okOr_eq_ok] at h
  obtain ⟨-, -, event, ⟨stored, rfl⟩, -, postponed, info, -, -, -, -, -, -, -, w₁, updated,
    synced⟩ := h
  obtain rfl := updateEvent_ok updated
  have resumes : ∀ p (w w' : World σ), w.tell (net.resumeEvent env p e event.organizer) = .ok w' →
      w'.storage = w.storage ∧
        net.resumeEvent env p e event.organizer w.outside = some w'.outside := by
    intro p w w' h
    obtain ⟨outside, told, rfl⟩ := tell_eq_ok.mp h
    exact ⟨rfl, told⟩
  obtain ⟨frame, told⟩ := syncConfig_told resumes synced
  exact ⟨event, _, _, stored, rfl, postponed, (roster_congr frame).trans (roster_saveEvent ..),
    told⟩

end Status

end Zicket.Events
