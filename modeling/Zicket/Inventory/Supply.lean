import Zicket.Inventory.Calls

/-! The supply of an event is checked to be a 32-bit number wherever it is written, so the
counters of seats below it cannot overflow. -/

namespace Zicket.Events

open Host Foundation World

variable {σ : Type} {net : Network σ} {env : Env} {w w' : World σ} {e : Symbol} {event : Event}

theorem buildTiers_fits {params : List TicketTierParams} : ∀ {nextId maxSupply : ℕ}
    {tiers : List TicketTier} {total : ℕ}, maxSupply < 2 ^ 32 →
      buildTiers params nextId maxSupply = .ok (tiers, total) → total < 2 ^ 32 := by
  induction params with
  | nil =>
    intro nextId maxSupply tiers total fits h
    cases h
    exact fits
  | cons first rest ih =>
    intro nextId maxSupply tiers total _ h
    simp only [buildTiers, bind_eq_ok, pure_eq_ok, require_eq_ok] at h
    obtain ⟨-, -, -, -, -, -, -, fits, ⟨tiers', total'⟩, built, h⟩ := h
    cases h
    exact ih fits built

theorem resizeTier_fits {tier resized : TicketTier} {event' : Event} {capacity : Option ℕ}
    (h : resizeTier event tier capacity = .ok (event', resized)) (fits : event.maxSupply < 2 ^ 32) :
    event'.maxSupply < 2 ^ 32 := by
  unfold resizeTier at h
  cases capacity with
  | none =>
    cases h
    exact fits
  | some c =>
    simp only [bind_eq_ok, pure_eq_ok, require_eq_ok] at h
    obtain ⟨-, -, -, -, -, ⟨-, fits⟩, -, -, h⟩ := h
    cases h
    exact fits

def World.Sized (w : World σ) : Prop :=
  ∀ e event, w.roster.event e = some event → event.maxSupply < 2 ^ 32

theorem World.Sized.write (sized : w.Sized) (fits : event.maxSupply < 2 ^ 32)
    (written : w'.roster.event = Function.update w.roster.event e (some event)) : w'.Sized := by
  intro e' stored h
  rw [written] at h
  obtain ⟨-, rfl⟩ | ⟨-, h⟩ := update_eq_some.mp h
  · exact fits
  · exact sized e' stored h

theorem addTicketTier_fits {organizer : Address} {name : String} {price : ℤ} {capacity : ℕ}
    {tier : TicketTier} (h : addTicketTier env organizer e name price capacity w = .ok (tier, w')) :
    ∃ event : Event, event.maxSupply < 2 ^ 32 ∧ w' = w.saveEvent e event := by
  simp only [addTicketTier, bind_eq_ok, pure_eq_ok, require_eq_ok] at h
  obtain ⟨-, -, event, -, -, -, -, -, -, -, -, -, -, fits, h⟩ := h
  cases h
  exact ⟨_, fits, rfl⟩

theorem updateTier_fits {organizer : Address} {tierId : ℕ} {name : Option String}
    {price : Option ℤ} {capacity : Option ℕ} (sized : w.Sized)
    (h : updateTier env organizer e tierId name price capacity w = .ok w') :
    ∃ event : Event, event.maxSupply < 2 ^ 32 ∧ w' = w.saveEvent e event := by
  simp only [updateTier, bind_eq_ok, pure_eq_ok, ownEvent_ok] at h
  obtain ⟨-, -, event, ⟨stored, -⟩, -, -, _, -, _, -, _, -, ⟨event', edited⟩, resized, rfl⟩ := h
  have fits : event'.maxSupply < 2 ^ 32 := resizeTier_fits resized (sized e event stored)
  refine ⟨_, ?_, rfl⟩
  exact fits

theorem exec_sized {c : Call} (sized : w.Sized) (h : c.exec net env w = .ok w') : w'.Sized := by
  have quiet (same : w'.roster = w.roster) : w'.Sized := by
    intro e event stored
    rw [same] at stored
    exact sized e event stored
  have seated {e : Symbol} {event edited : Event} {a : Address} {id : Option ℕ}
      (stored : w.roster.event e = some event) (roster : w'.roster = w.roster.seat e edited a id)
      (same : edited.maxSupply = event.maxSupply) : w'.Sized :=
    sized.write (same ▸ sized e event stored) (congrArg Roster.event roster)
  have written {e : Symbol} {event edited : Event} (stored : w.roster.event e = some event)
      (roster : w'.roster = w.roster.putEvent e edited)
      (same : edited.maxSupply = event.maxSupply) : w'.Sized :=
    sized.write (same ▸ sized e event stored) (congrArg Roster.event roster)
  cases c with
  | initialise =>
    simp only [Call.exec, initializeContract, bind_eq_ok, pure_eq_ok] at h
    obtain ⟨-, -, rfl⟩ := h
    exact sized
  | createEvent params =>
    simp only [Call.exec, bind_eq_ok, pure_eq_ok] at h
    obtain ⟨⟨event, w₁⟩, created, rfl⟩ := h
    obtain ⟨tiers, maxSupply, built, rfl, -, roster, -⟩ := createEvent_spec created
    have fits : (params.toEvent tiers maxSupply env.timestamp).maxSupply < 2 ^ 32 :=
      buildTiers_fits (by decide) built
    exact sized.write fits (congrArg Roster.event roster)
  | updateEventDetails params =>
    simp only [Call.exec, bind_eq_ok, pure_eq_ok] at h
    obtain ⟨⟨edited, w₁⟩, updated, rfl⟩ := h
    obtain ⟨event, stored, -, same, roster, -⟩ := updateEventDetails_spec updated
    exact written stored roster same.maxSupply
  | addTicketTier =>
    simp only [Call.exec, bind_eq_ok, pure_eq_ok] at h
    obtain ⟨⟨tier, w₁⟩, added, rfl⟩ := h
    obtain ⟨event, fits, rfl⟩ := addTicketTier_fits added
    exact sized.write fits (congrArg Roster.event (roster_saveEvent ..))
  | updateTier =>
    obtain ⟨event, fits, rfl⟩ := updateTier_fits sized h
    exact sized.write fits (congrArg Roster.event (roster_saveEvent ..))
  | updateEventStatus =>
    obtain ⟨event, stored, -, roster, -⟩ := updateEventStatus_spec h
    exact written stored roster rfl
  | cancelEvent =>
    obtain ⟨event, stored, -, -, -, roster, -⟩ := cancelEvent_spec h
    exact written stored roster rfl
  | postponeEvent =>
    obtain ⟨event, stored, -, -, roster, -⟩ := postponeEvent_spec h
    exact written stored roster rfl
  | finalizePostponement =>
    obtain ⟨event, start, stop, stored, -, -, roster, -⟩ := finalizePostponement_spec h
    exact written stored roster rfl
  | requestPostponementRefund => exact quiet (requestPostponementRefund_spec h).1
  | reserveTicket =>
    obtain ⟨-, rfl | ⟨event, stored, -, tiers, cs, -, roster⟩⟩ := reserveTicket_spec h
    · exact sized
    · exact seated stored roster rfl
  | releaseExpiredReservation =>
    obtain ⟨-, event, stored, tiers, index, tier, -, roster⟩ := releaseExpiredReservation_spec h
    exact seated stored roster rfl
  | registerForEvent =>
    obtain ⟨sale, -⟩ := registerForEvent_spec h
    exact seated sale.stored sale.roster rfl
  | batchRegisterForEvent =>
    obtain ⟨-, sale, -⟩ := batchRegisterForEvent_spec h
    exact seated sale.stored sale.roster rfl
  | withdrawRevenue =>
    simp only [Call.exec, withdrawRevenue, bind_eq_ok, tell_eq_ok] at h
    obtain ⟨-, -, -, -, -, -, _, -, _, -, rfl⟩ := h
    exact sized
  | setEventPrivacy => exact quiet (storeSetting_roster (fun _ => rfl) h).1
  | setClaimSettings => exact quiet (storeSetting_roster (fun _ => rfl) h).1
  | setAnonymousClaimVerifier =>
    simp only [Call.exec, setAnonymousClaimVerifier, bind_eq_ok, pure_eq_ok] at h
    obtain ⟨-, -, -, -, rfl⟩ := h
    exact sized
  | claimAnonymousTicket =>
    obtain rfl | ⟨event, index, tier, -, -, stored, -, roster, -⟩ := claimAnonymousTicket_spec h
    · exact sized
    · exact written stored roster rfl
  | setAnonClaimSettings => exact quiet (storeSetting_roster (fun _ => rfl) h).1
  | verifyAndAttend =>
    obtain ⟨event, index, tier, stored, -, -, roster, -⟩ := verifyAndAttend_spec h
    exact written stored roster rfl
  | setZkConfig => exact quiet (storeSetting_roster (fun _ => rfl) h).1
  | migrate =>
    simp only [Call.exec, migrate, bind_eq_ok, pure_eq_ok] at h
    obtain ⟨_, ⟨-, -, -, -, rfl⟩, rfl⟩ := h
    exact sized
  | withdrawSplit =>
    simp only [Call.exec, withdrawSplit, bind_eq_ok, tell_eq_ok] at h
    obtain ⟨-, -, -, -, _, -, _, -, rfl⟩ := h
    exact sized
  | flagCohost =>
    simp only [Call.exec, flagCohost, bind_eq_ok, tell_eq_ok] at h
    obtain ⟨-, -, -, -, _, -, _, -, rfl⟩ := h
    exact sized

theorem room_of_seat (stocked : w.Stocked) (sized : w.Sized) (stored : w.roster.event e = some event)
    {index : ℕ} {tier : TicketTier} (place : event.tiers[index]? = some tier)
    (seat : tier.sold + tier.reserved < tier.capacity) :
    event.soldCount < event.maxSupply ∧ tier.sold + tier.reserved < 2 ^ 32 ∧
      tier.sold + 1 < 2 ^ 32 ∧ event.soldCount + 1 < 2 ^ 32 := by
  have kept := stocked e
  rw [w.roster.inventory_of_event stored] at kept
  have mem := List.mem_of_getElem? place
  have supply : event.maxSupply = (event.tiers.map (·.capacity)).sum := kept.supply
  have sold : event.soldCount = (event.tiers.map (·.sold)).sum := kept.sold
  have fewer : (event.tiers.map (·.sold)).sum < (event.tiers.map (·.capacity)).sum := by
    refine List.sum_lt_sum _ _ (fun t t_mem => ?_) ⟨tier, mem, by omega⟩
    have := kept.seats t t_mem
    omega
  have capacity : tier.capacity ≤ (event.tiers.map (·.capacity)).sum :=
    List.le_sum_of_mem (List.mem_map_of_mem mem)
  have fits := sized e event stored
  omega

end Zicket.Events
