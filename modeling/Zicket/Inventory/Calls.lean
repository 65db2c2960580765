import Zicket.Inventory.Sales

/-! Every operation of the event contract is a run of changes of one event's inventory, so
the inventories of every reachable state are kept. -/

namespace Zicket.Events

open Host Foundation World

variable {σ : Type} {net : Network σ} {env : Env} {w w' : World σ} {e : Symbol} {event : Event}

section Made

variable {r : Roster}

theorem Roster.Made.write {c : Change} (sound : (r.inventory e).Sound c)
    (applied : event.inventory (r.held e) = (r.inventory e).apply c) :
    r.Made (r.putEvent e event) e [c] := by
  refine ⟨⟨sound, trivial⟩, ?_⟩
  rw [Roster.inventory_putEvent, applied]
  rfl

theorem Roster.Made.edit {edited : Event} (stored : r.event e = some event)
    (same : edited.inventory (r.held e) = event.inventory (r.held e)) :
    r.Made (r.putEvent e edited) e [] := by
  refine .same ?_ e
  rw [Roster.inventory_putEvent, same, ← r.inventory_of_event stored, Function.update_eq_self]

theorem Roster.Made.setStatus {edited : Event} (status : EventStatus)
    (stored : r.event e = some event) (later : status ≠ .upcoming)
    (same : edited.inventory (r.held e) = { event.inventory (r.held e) with status := some status }) :
    r.Made (r.putEvent e edited) e [.setStatus status] := by
  have inventory := r.inventory_of_event stored
  refine .write ⟨?_, later⟩ ?_
  · rw [inventory]
    exact Option.some_ne_none _
  · rw [same, inventory]
    rfl

end Made

section Edits

variable {organizer : Address}

theorem createEvent_made {params : CreateEventParams}
    (h : createEvent net env params w = .ok (event, w')) :
    w.roster.Made w'.roster params.eventId [.create event.tiers event.maxSupply] := by
  obtain ⟨tiers, maxSupply, built, rfl, absent, roster, -⟩ := createEvent_spec h
  have unborn : w.roster.inventory params.eventId =
      { status := none, tiers := [], maxSupply := 0, soldCount := 0,
        held := w.roster.held params.eventId } := by
    rw [Roster.inventory, absent]
  rw [roster]
  refine .write (create_sound built ?_) ?_
  · rw [unborn]
  · rw [unborn]
    rfl

theorem addTicketTier_made {name : String} {price : ℤ} {capacity : ℕ} {tier : TicketTier}
    (h : addTicketTier env organizer e name price capacity w = .ok (tier, w')) :
    w.roster.Made w'.roster e [.addTier tier] := by
  obtain ⟨event, stored, upcoming, number, rfl, -, unsold, rfl⟩ := addTicketTier_spec h
  have inventory := w.roster.inventory_of_event stored
  rw [roster_saveEvent]
  refine .write ⟨?_, ?_, unsold⟩ ?_
  · rw [inventory]
    exact congrArg some upcoming
  · rw [inventory]
    exact number
  · rw [inventory]
    rfl

theorem updateTier_made {tierId : ℕ} {name : Option String} {price : Option ℤ}
    {capacity : Option ℕ} (h : updateTier env organizer e tierId name price capacity w = .ok w') :
    ∃ c, w.roster.Made w'.roster e [c] := by
  obtain ⟨event, index, tier, edited, maxSupply, stored, upcoming, found, same, supply, rfl⟩ :=
    updateTier_spec h
  have inventory := w.roster.inventory_of_event stored
  rw [roster_saveEvent]
  refine ⟨.editTier index tier edited, .write ⟨?_, ?_, ?_, ?_, ?_⟩ ?_⟩
  · rw [inventory]
    exact congrArg some upcoming
  · rw [inventory]
    exact (findTier_ok found).1
  · rw [same]
  · rw [same]
  · rw [same]
  · have total : maxSupply = event.maxSupply + edited.capacity - tier.capacity := by omega
    rw [inventory, total]
    rfl

end Edits

section Rest

theorem storeSetting_roster {organizer : Address} {k : DataKey} {v : k.Val}
    (quiet : ∀ w : World σ, (w.set k v).roster = w.roster)
    (h : storeSetting env organizer e k v w = .ok w') :
    w'.roster = w.roster ∧ w'.outside = w.outside := by
  simp only [storeSetting, bind_eq_ok, pure_eq_ok] at h
  obtain ⟨-, -, _, -, rfl⟩ := h
  exact ⟨quiet w, rfl⟩

end Rest

/-- What an operation makes of the inventory it touches: one change, unless the event is
active. -/
theorem exec_made {c : Call} (kept : ∀ e, (w.roster.inventory e).Kept)
    (h : c.exec net env w = .ok w') : ∃ e cs, w.roster.Made w'.roster e cs ∧
      (cs.length ≤ 1 ∨ (w.roster.inventory e).status = some .active) := by
  have quiet (same : w'.roster.inventory = w.roster.inventory) :
      ∃ e cs, w.roster.Made w'.roster e cs ∧
        (cs.length ≤ 1 ∨ (w.roster.inventory e).status = some .active) :=
    ⟨⟨0⟩, [], .same same _, .inl (Nat.zero_le _)⟩
  have one {e : Symbol} {c : Change} (made : w.roster.Made w'.roster e [c]) :
      ∃ e cs, w.roster.Made w'.roster e cs ∧
        (cs.length ≤ 1 ∨ (w.roster.inventory e).status = some .active) :=
    ⟨e, [c], made, .inl le_rfl⟩
  have busy {e : Symbol} {cs : List Change} {event : Event} (stored : w.roster.event e = some event)
      (active : event.status = .active) (made : w.roster.Made w'.roster e cs) :
      ∃ e cs, w.roster.Made w'.roster e cs ∧
        (cs.length ≤ 1 ∨ (w.roster.inventory e).status = some .active) := by
    refine ⟨e, cs, made, .inr ?_⟩
    rw [w.roster.inventory_of_event stored, ← active]
    rfl
  cases c with
  | initialise =>
    simp only [Call.exec, initializeContract, bind_eq_ok, pure_eq_ok] at h
    obtain ⟨-, -, rfl⟩ := h
    exact quiet rfl
  | createEvent params =>
    simp only [Call.exec, bind_eq_ok, pure_eq_ok] at h
    obtain ⟨⟨event, w₁⟩, created, rfl⟩ := h
    exact one (createEvent_made created)
  | updateEventDetails params =>
    simp only [Call.exec, bind_eq_ok, pure_eq_ok] at h
    obtain ⟨⟨edited, w₁⟩, updated, rfl⟩ := h
    obtain ⟨event, stored, -, same, roster, -⟩ := updateEventDetails_spec updated
    refine ⟨params.eventId, [], ?_, .inl (Nat.zero_le _)⟩
    rw [roster]
    refine .edit stored ?_
    unfold Event.inventory
    rw [same.status, same.tiers, same.maxSupply, same.soldCount]
  | addTicketTier =>
    simp only [Call.exec, bind_eq_ok, pure_eq_ok] at h
    obtain ⟨⟨tier, w₁⟩, added, rfl⟩ := h
    exact one (addTicketTier_made added)
  | updateTier =>
    obtain ⟨change, made⟩ := updateTier_made h
    exact one made
  | updateEventStatus organizer e newStatus =>
    obtain ⟨event, stored, transition, roster, -⟩ := updateEventStatus_spec h
    have later : newStatus ≠ .upcoming := by
      obtain ⟨-, rfl⟩ | ⟨-, rfl⟩ := transition
      · decide
      · decide
    suffices made : w.roster.Made w'.roster e [.setStatus newStatus] from one made
    rw [roster]
    exact .setStatus newStatus stored later rfl
  | cancelEvent organizer e =>
    obtain ⟨event, stored, -, -, -, roster, -⟩ := cancelEvent_spec h
    suffices made : w.roster.Made w'.roster e [.setStatus EventStatus.cancelled] from one made
    rw [roster]
    exact .setStatus EventStatus.cancelled stored (by decide) rfl
  | postponeEvent organizer e =>
    obtain ⟨event, stored, -, -, roster, -⟩ := postponeEvent_spec h
    suffices made : w.roster.Made w'.roster e [.setStatus EventStatus.postponed] from one made
    rw [roster]
    exact .setStatus EventStatus.postponed stored (by decide) rfl
  | finalizePostponement organizer e =>
    obtain ⟨event, start, stop, stored, -, -, roster, -⟩ := finalizePostponement_spec h
    suffices made : w.roster.Made w'.roster e [.setStatus EventStatus.active] from one made
    rw [roster]
    exact .setStatus EventStatus.active stored (by decide) rfl
  | requestPostponementRefund =>
    exact quiet (congrArg Roster.inventory (requestPostponementRefund_spec h).1)
  | reserveTicket =>
    obtain ⟨-, rfl | ⟨event, stored, active, tiers, cs, made, -⟩⟩ := reserveTicket_spec h
    · exact quiet rfl
    · exact busy stored active made
  | releaseExpiredReservation =>
    obtain ⟨-, event, -, tiers, index, tier, made, -⟩ := releaseExpiredReservation_spec h
    exact one made
  | registerForEvent =>
    obtain ⟨sale, -⟩ := registerForEvent_spec h
    obtain ⟨cs, made⟩ := sale.made (kept _)
    exact busy sale.stored sale.active made
  | batchRegisterForEvent =>
    obtain ⟨-, sale, -⟩ := batchRegisterForEvent_spec h
    obtain ⟨cs, made⟩ := sale.made (kept _)
    exact busy sale.stored sale.active made
  | withdrawRevenue =>
    simp only [Call.exec, withdrawRevenue, bind_eq_ok, tell_eq_ok] at h
    obtain ⟨-, -, -, -, -, -, _, -, _, -, rfl⟩ := h
    exact quiet rfl
  | setEventPrivacy =>
    exact quiet (congrArg Roster.inventory (storeSetting_roster (fun _ => rfl) h).1)
  | setClaimSettings =>
    exact quiet (congrArg Roster.inventory (storeSetting_roster (fun _ => rfl) h).1)
  | setAnonymousClaimVerifier =>
    simp only [Call.exec, setAnonymousClaimVerifier, bind_eq_ok, pure_eq_ok] at h
    obtain ⟨-, -, -, -, rfl⟩ := h
    exact quiet rfl
  | claimAnonymousTicket =>
    obtain rfl | ⟨event, index, tier, -, -, -, made, -⟩ := claimAnonymousTicket_spec h
    · exact quiet rfl
    · exact one made
  | setAnonClaimSettings =>
    exact quiet (congrArg Roster.inventory (storeSetting_roster (fun _ => rfl) h).1)
  | verifyAndAttend =>
    obtain ⟨event, index, tier, -, -, made, -⟩ := verifyAndAttend_spec h
    exact one made
  | setZkConfig =>
    exact quiet (congrArg Roster.inventory (storeSetting_roster (fun _ => rfl) h).1)
  | migrate =>
    simp only [Call.exec, migrate, bind_eq_ok, pure_eq_ok] at h
    obtain ⟨_, ⟨-, -, -, -, rfl⟩, rfl⟩ := h
    exact quiet rfl
  | withdrawSplit =>
    simp only [Call.exec, withdrawSplit, bind_eq_ok, tell_eq_ok] at h
    obtain ⟨-, -, -, -, _, -, _, -, rfl⟩ := h
    exact quiet rfl
  | flagCohost =>
    simp only [Call.exec, flagCohost, bind_eq_ok, tell_eq_ok] at h
    obtain ⟨-, -, -, -, _, -, _, -, rfl⟩ := h
    exact quiet rfl

def World.Stocked (w : World σ) : Prop := ∀ e, (w.roster.inventory e).Kept

theorem deployed_stocked (outside : σ) : (deployed outside).Stocked := fun e =>
  { numbered := rfl
    supply := rfl
    sold := rfl
    seats := by intro tier mem; cases mem
    reserved := by
      intro id
      have empty : holders ((deployed outside).roster.inventory e).held id = ∅ := by
        refine Set.eq_empty_of_forall_notMem fun a has => ?_
        cases has
      rw [empty, Set.encard_empty]
      rfl
    unsold := by intro upcoming; cases upcoming
    absent := fun _ => rfl }

theorem exec_stocked {c : Call} (kept : w.Stocked) (h : c.exec net env w = .ok w') :
    w'.Stocked := by
  obtain ⟨e, cs, ⟨sound, effect⟩, -⟩ := exec_made kept h
  intro e'
  rw [effect]
  by_cases same : e' = e
  · subst same
    rw [Function.update_self]
    exact Inventory.run_kept sound (kept e')
  · rw [Function.update_of_ne same]
    exact kept e'

theorem next_stocked {d : Deployment} (kept : w.Stocked) (step : Step σ) :
    (w.next net d step).Stocked := by
  cases step with
  | elsewhere outside => exact kept
  | call invocation c => exact commit_induction kept fun _ => exec_stocked kept

theorem reachable_stocked (net : Network σ) (d : Deployment) (outside : σ) (steps : List (Step σ)) :
    (run (World.next net d) (deployed outside) steps).Stocked :=
  run_invariant (I := World.Stocked) (fun _ step kept _ => next_stocked kept step)
    (along_of_forall (fun _ _ => trivial) _ steps) (deployed_stocked outside)

end Zicket.Events
