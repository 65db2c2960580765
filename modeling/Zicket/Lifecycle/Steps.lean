import Zicket.Inventory.Calls
import Zicket.Lifecycle.Charter
import Zicket.Lifecycle.Stages

/-! The contract takes each event through its life: every operation is a turn of every event's
life, and while an event is not active its seats are not taken. -/

namespace Zicket.Events

open Host Foundation World

variable {σ : Type} {net : Network σ} {env : Env} {w w' : World σ} {e : Symbol} {event : Event}

def Event.stage (event : Event) : Stage :=
  ⟨event.status, event.eventStartLedger, event.eventEndLedger⟩

def Roster.stage (r : Roster) (e : Symbol) : Option Stage := (r.event e).map Event.stage

def World.life (w : World σ) (e : Symbol) : Life where
  stage := w.roster.stage e
  postponement := w.charter.postponement e
  postponeCount := w.charter.postponeCount e

theorem Roster.stage_of_event {r : Roster} (stored : r.event e = some event) :
    r.stage e = some event.stage := by
  rw [stage, stored]
  rfl

theorem Roster.stage_putEvent (r : Roster) (e : Symbol) (event : Event) :
    (r.putEvent e event).stage = Function.update r.stage e (some event.stage) := by
  funext e'
  unfold stage putEvent
  by_cases same : e' = e
  · subst same
    simp
  · simp [same]

theorem Roster.stage_seat (r : Roster) (e : Symbol) (event : Event) (a : Address) (id : Option ℕ) :
    (r.seat e event a id).stage = Function.update r.stage e (some event.stage) :=
  stage_putEvent r e event

section Turns

theorem life_eq {stages : Symbol → Option Stage} {charter : Charter}
    (stage_eq : w'.roster.stage = stages) (charter_eq : w'.charter = charter) (e : Symbol) :
    w'.life e = ⟨stages e, charter.postponement e, charter.postponeCount e⟩ := by
  subst stage_eq charter_eq
  rfl

theorem turn_of_same (stages : w'.roster.stage = w.roster.stage) (charter : w'.charter = w.charter)
    (e : Symbol) : (w.life e).Turn env.sequence (w'.life e) := by
  rw [life_eq stages charter]
  exact .stay (w.life e)

theorem turn_of_stage {stage : Stage}
    (stages : w'.roster.stage = Function.update w.roster.stage e (some stage))
    (charter : w'.charter = w.charter)
    (turn : (w.life e).Turn env.sequence { w.life e with stage := some stage }) (e' : Symbol) :
    (w.life e').Turn env.sequence (w'.life e') := by
  rw [life_eq stages charter]
  by_cases same : e' = e
  · subst same
    rw [Function.update_self]
    exact turn
  · rw [Function.update_of_ne same]
    exact .stay (w.life e')

theorem turn_of_edit {edited : Event} (stored : w.roster.event e = some event)
    (stages : w'.roster.stage = Function.update w.roster.stage e (some edited.stage))
    (same : edited.stage = event.stage) (charter : w'.charter = w.charter) (e' : Symbol) :
    (w.life e').Turn env.sequence (w'.life e') := by
  refine turn_of_same ?_ charter e'
  rw [stages, same, ← Roster.stage_of_event stored, Function.update_eq_self]

theorem turn_of_move {status : EventStatus} (stored : w.roster.event e = some event)
    (roster : w'.roster = w.roster.putEvent e { event with status })
    (changes : event.status.Changes status) (settled : status ≠ .postponed)
    (paused : status = .active → event.status ≠ .postponed) (charter : w'.charter = w.charter)
    (e' : Symbol) : (w.life e').Turn env.sequence (w'.life e') := by
  have stages := (congrArg Roster.stage roster).trans (Roster.stage_putEvent ..)
  refine turn_of_stage stages charter ?_ e'
  have present : (w.life e).stage = some event.stage := Roster.stage_of_event stored
  exact .move present changes settled paused

end Turns

section Calls

variable {organizer : Address}

theorem postponeEvent_turn {newDateLedger choiceWindowLedgers : ℕ}
    (h : postponeEvent net env organizer e newDateLedger choiceWindowLedgers w = .ok w')
    (e' : Symbol) : (w.life e').Turn env.sequence (w'.life e') := by
  obtain ⟨few, later, charter⟩ := postponeEvent_amends h
  obtain ⟨event, stored, -, active, roster, -⟩ := postponeEvent_spec h
  have stages := (congrArg Roster.stage roster).trans (Roster.stage_putEvent ..)
  rw [life_eq stages charter, Charter.postpone]
  by_cases same : e' = e
  · subst same
    simp only [Function.update_self]
    have present : (w.life e').stage = some event.stage := Roster.stage_of_event stored
    have turn : (w.life e').Turn env.sequence
        ⟨_, some ⟨newDateLedger, env.sequence + choiceWindowLedgers⟩, _⟩ :=
      .postpone present active few later
    exact turn
  · simp only [Function.update_of_ne same]
    exact .stay (w.life e')

theorem finalizePostponement_turn (h : finalizePostponement net env organizer e w = .ok w')
    (e' : Symbol) : (w.life e').Turn env.sequence (w'.life e') := by
  obtain ⟨charter, event, info, stored, postponed, known, closed, roster⟩ :=
    finalizePostponement_amends h
  have charter : w'.charter = w.charter.resume e := charter
  have stages := (congrArg Roster.stage roster).trans (Roster.stage_putEvent ..)
  rw [life_eq stages charter, Charter.resume]
  by_cases same : e' = e
  · subst same
    simp only [Function.update_self]
    have present : (w.life e').stage = some event.stage := Roster.stage_of_event stored
    have turn := Life.Turn.resume present postponed known closed
    exact turn
  · simp only [Function.update_of_ne same]
    exact .stay (w.life e')

theorem Event.SameSales.stage {edited : Event} (same : event.SameSales edited) :
    edited.stage = event.stage := by
  unfold Event.stage
  rw [same.status, same.eventStartLedger, same.eventEndLedger]

theorem createEvent_turn {params : CreateEventParams}
    (h : createEvent net env params w = .ok (event, w')) (charter : w'.charter = w.charter)
    (e : Symbol) : (w.life e).Turn env.sequence (w'.life e) := by
  obtain ⟨tiers, maxSupply, -, rfl, absent, roster, -⟩ := createEvent_spec h
  have stages := (congrArg Roster.stage roster).trans (Roster.stage_putEvent ..)
  refine turn_of_stage stages charter (.create ?_ rfl ?_) e
  · change (w.roster.event params.eventId).map Event.stage = none
    rw [absent]
    rfl
  · obtain ⟨-, -, -, -, ordered, -⟩ := createEvent_ok h
    exact ordered

theorem exec_turn {c : Call} (h : c.exec net env w = .ok w') (e : Symbol) :
    (w.life e).Turn env.sequence (w'.life e) := by
  have amends := exec_amends h
  have quiet (same : w'.roster = w.roster) (charter : w'.charter = w.charter) :
      (w.life e).Turn env.sequence (w'.life e) :=
    turn_of_same (congrArg Roster.stage same) charter e
  have seated {e₀ : Symbol} {event edited : Event} {a : Address} {id : Option ℕ}
      (stored : w.roster.event e₀ = some event) (roster : w'.roster = w.roster.seat e₀ edited a id)
      (same : edited.stage = event.stage) (charter : w'.charter = w.charter) :
      (w.life e).Turn env.sequence (w'.life e) :=
    turn_of_edit stored ((congrArg Roster.stage roster).trans (Roster.stage_seat ..)) same charter e
  have written {e₀ : Symbol} {event edited : Event} (stored : w.roster.event e₀ = some event)
      (roster : w'.roster = w.roster.putEvent e₀ edited) (same : edited.stage = event.stage)
      (charter : w'.charter = w.charter) : (w.life e).Turn env.sequence (w'.life e) :=
    turn_of_edit stored ((congrArg Roster.stage roster).trans (Roster.stage_putEvent ..)) same
      charter e
  cases c with
  | initialise =>
    simp only [Call.exec, initializeContract, bind_eq_ok, pure_eq_ok] at h
    obtain ⟨-, -, rfl⟩ := h
    exact .stay (w.life e)
  | createEvent params =>
    simp only [Call.exec, bind_eq_ok, pure_eq_ok] at h
    obtain ⟨⟨event, w₁⟩, created, rfl⟩ := h
    exact createEvent_turn created amends e
  | updateEventDetails params =>
    simp only [Call.exec, bind_eq_ok, pure_eq_ok] at h
    obtain ⟨⟨edited, w₁⟩, updated, rfl⟩ := h
    obtain ⟨event, stored, -, same, roster, -⟩ := updateEventDetails_spec updated
    exact written stored roster same.stage amends
  | addTicketTier =>
    simp only [Call.exec, bind_eq_ok, pure_eq_ok] at h
    obtain ⟨⟨tier, w₁⟩, added, rfl⟩ := h
    obtain ⟨event, stored, -, -, -, -, -, rfl⟩ := addTicketTier_spec added
    exact written stored (roster_saveEvent ..) rfl amends
  | updateTier =>
    obtain ⟨event, index, tier, edited, maxSupply, stored, -, -, -, -, rfl⟩ := updateTier_spec h
    exact written stored (roster_saveEvent ..) rfl amends
  | updateEventStatus organizer e₀ newStatus =>
    obtain ⟨event, stored, transition, roster, -⟩ := updateEventStatus_spec h
    obtain ⟨upcoming, rfl⟩ | ⟨active, rfl⟩ := transition
    · refine turn_of_move stored roster (upcoming ▸ .activate) (by decide) ?_ amends e
      rw [upcoming]
      decide
    · exact turn_of_move stored roster (active ▸ .complete) (by decide) (by simp) amends e
  | cancelEvent =>
    obtain ⟨event, stored, -, running, kept, roster, -⟩ := cancelEvent_spec h
    exact turn_of_move stored roster (.cancel running kept) (by decide) (by simp) amends e
  | postponeEvent => exact postponeEvent_turn h e
  | finalizePostponement => exact finalizePostponement_turn h e
  | requestPostponementRefund => exact quiet (requestPostponementRefund_spec h).1 amends
  | reserveTicket =>
    obtain ⟨-, rfl | ⟨event, stored, -, tiers, cs, -, roster⟩⟩ := reserveTicket_spec h
    · exact .stay _
    · exact seated stored roster rfl amends
  | releaseExpiredReservation =>
    obtain ⟨-, event, stored, tiers, index, tier, -, roster⟩ := releaseExpiredReservation_spec h
    exact seated stored roster rfl amends
  | registerForEvent =>
    obtain ⟨sale, -⟩ := registerForEvent_spec h
    exact seated sale.stored sale.roster rfl amends
  | batchRegisterForEvent =>
    obtain ⟨-, sale, -⟩ := batchRegisterForEvent_spec h
    exact seated sale.stored sale.roster rfl amends
  | withdrawRevenue =>
    simp only [Call.exec, withdrawRevenue, bind_eq_ok, tell_eq_ok] at h
    obtain ⟨-, -, -, -, -, -, _, -, _, -, rfl⟩ := h
    exact .stay (w.life e)
  | setEventPrivacy => exact quiet (storeSetting_roster (fun _ => rfl) h).1 amends
  | setClaimSettings => exact quiet (storeSetting_roster (fun _ => rfl) h).1 amends
  | setAnonymousClaimVerifier =>
    simp only [Call.exec, setAnonymousClaimVerifier, bind_eq_ok, pure_eq_ok] at h
    obtain ⟨-, -, -, -, rfl⟩ := h
    exact .stay (w.life e)
  | claimAnonymousTicket =>
    obtain rfl | ⟨event, index, tier, -, -, stored, -, roster, -⟩ := claimAnonymousTicket_spec h
    · exact .stay _
    · exact written stored roster rfl amends
  | setAnonClaimSettings => exact quiet (storeSetting_roster (fun _ => rfl) h).1 amends
  | verifyAndAttend =>
    obtain ⟨event, index, tier, stored, -, -, roster, -⟩ := verifyAndAttend_spec h
    exact written stored roster rfl amends
  | setZkConfig => exact quiet (storeSetting_roster (fun _ => rfl) h).1 amends
  | migrate =>
    simp only [Call.exec, migrate, bind_eq_ok, pure_eq_ok] at h
    obtain ⟨_, ⟨-, -, -, -, rfl⟩, rfl⟩ := h
    exact .stay (w.life e)
  | withdrawSplit =>
    simp only [Call.exec, withdrawSplit, bind_eq_ok, tell_eq_ok] at h
    obtain ⟨-, -, -, -, _, -, _, -, rfl⟩ := h
    exact .stay (w.life e)
  | flagCohost =>
    simp only [Call.exec, flagCohost, bind_eq_ok, tell_eq_ok] at h
    obtain ⟨-, -, -, -, _, -, _, -, rfl⟩ := h
    exact .stay (w.life e)

end Calls

def Inventory.soldIn (r : Inventory) (id : ℕ) : ℕ := (r.tiers[id]?).elim 0 (·.sold)

structure Inventory.Eases (r r' : Inventory) : Prop where
  soldCount : r'.soldCount ≤ r.soldCount
  sold : ∀ id, r'.soldIn id ≤ r.soldIn id
  reserved : ∀ id, r'.reservedIn id ≤ r.reservedIn id

namespace Inventory

variable {r : Inventory}

theorem Eases.refl (r : Inventory) : r.Eases r := ⟨le_rfl, fun _ => le_rfl, fun _ => le_rfl⟩

theorem unsold_at {tiers : List TicketTier} (unsold : ∀ tier ∈ tiers, Unsold tier) (id : ℕ) :
    (tiers[id]?).elim 0 (·.sold) = 0 ∧ (tiers[id]?).elim 0 (·.reserved) = 0 := by
  cases stored : tiers[id]? with
  | none => exact ⟨rfl, rfl⟩
  | some tier => exact unsold tier (List.mem_of_getElem? stored)

theorem soldIn_setTier {index : ℕ} {tier tier' : TicketTier} (stored : r.tiers[index]? = some tier)
    (id : ℕ) :
    (r.setTier index tier').soldIn id = if id = index then tier'.sold else r.soldIn id := by
  have lt := (List.getElem?_eq_some_iff.mp stored).1
  unfold soldIn setTier
  rw [List.getElem?_set]
  by_cases same : id = index
  · simp [same, lt]
  · simp [same, Ne.symm same]

theorem setTier_eases {index : ℕ} {tier tier' : TicketTier} (stored : r.tiers[index]? = some tier)
    (sold : tier'.sold ≤ tier.sold) (reserved : tier'.reserved ≤ tier.reserved) :
    r.Eases (r.setTier index tier') where
  soldCount := le_rfl
  sold id := by
    rw [soldIn_setTier stored]
    split
    · rename_i same
      rw [same, soldIn, stored]
      exact sold
    · exact le_rfl
  reserved id := by
    rw [reservedIn_setTier stored]
    split
    · rename_i same
      rw [same, reservedIn, stored]
      exact reserved
    · exact le_rfl

theorem apply_eases {c : Change} (sound : r.Sound c) (idle : r.status ≠ some .active) :
    r.Eases (r.apply c) := by
  cases c with
  | create tiers maxSupply =>
    obtain ⟨-, -, -, unsold⟩ := sound
    refine ⟨Nat.zero_le _, fun id => ?_, fun id => ?_⟩
    · exact (unsold_at unsold id).1.trans_le (Nat.zero_le _)
    · exact (unsold_at unsold id).2.trans_le (Nat.zero_le _)
  | setStatus => exact ⟨le_rfl, fun _ => le_rfl, fun _ => le_rfl⟩
  | addTier tier =>
    obtain ⟨-, -, unsold⟩ := sound
    have tail : ∀ t ∈ [tier], Unsold t := fun t mem => List.mem_singleton.mp mem ▸ unsold
    refine ⟨le_rfl, fun id => ?_, fun id => ?_⟩
    · change ((r.tiers ++ [tier])[id]?).elim 0 (·.sold) ≤ (r.tiers[id]?).elim 0 (·.sold)
      rw [List.getElem?_append]
      split
      · exact le_rfl
      · exact (unsold_at tail _).1.trans_le (Nat.zero_le _)
    · change ((r.tiers ++ [tier])[id]?).elim 0 (·.reserved) ≤ (r.tiers[id]?).elim 0 (·.reserved)
      rw [List.getElem?_append]
      split
      · exact le_rfl
      · exact (unsold_at tail _).2.trans_le (Nat.zero_le _)
  | editTier index tier edited =>
    obtain ⟨-, stored, -, sold, reserved⟩ := sound
    have eases := setTier_eases stored sold.le reserved.le
    exact ⟨eases.soldCount, eases.sold, eases.reserved⟩
  | hold => exact absurd sound.1 idle
  | release a index tier =>
    obtain ⟨stored, -⟩ := sound
    have eases : r.Eases (r.setTier index { tier with reserved := tier.reserved - 1 }) :=
      setTier_eases stored le_rfl (Nat.sub_le ..)
    exact ⟨eases.soldCount, eases.sold, eases.reserved⟩
  | sell => exact absurd sound.1 idle

end Inventory

/-- While an event is not active, no operation takes its seats. -/
theorem exec_eases {c : Call} (kept : w.Stocked) (h : c.exec net env w = .ok w') (e : Symbol) :
    (w.roster.inventory e).status = some .active ∨
      (w.roster.inventory e).Eases (w'.roster.inventory e) := by
  obtain ⟨e₀, cs, ⟨sound, effect⟩, few | active⟩ := exec_made kept h
  · by_cases active : (w.roster.inventory e).status = some .active
    · exact .inl active
    · right
      rw [effect]
      by_cases same : e = e₀
      · subst same
        rw [Function.update_self]
        match cs with
        | [] => exact .refl _
        | [c] => exact Inventory.apply_eases sound.1 active
        | _ :: _ :: _ =>
          simp only [List.length_cons] at few
          omega
      · rw [Function.update_of_ne same]
        exact .refl _
  · by_cases same : e = e₀
    · exact .inl (same ▸ active)
    · right
      rw [effect, Function.update_of_ne same]
      exact .refl _

section Runs

variable {d : Deployment}

def Step.sequence : Step σ → ℕ
  | .call invocation _ => invocation.sequence
  | .elsewhere _ => 0

theorem next_turn (w : World σ) (step : Step σ) (e : Symbol) :
    (w.life e).Turn step.sequence ((w.next net d step).life e) := by
  cases step with
  | elsewhere outside => exact .stay (w.life e)
  | call invocation c =>
    rw [World.next]
    cases result : c.exec net ⟨d, invocation⟩ w with
    | error failure => exact .stay (w.life e)
    | ok w' =>
      have turn := exec_turn result e
      exact turn

theorem next_eases (kept : w.Stocked) (step : Step σ) (e : Symbol) :
    (w.roster.inventory e).status = some .active ∨
      (w.roster.inventory e).Eases ((w.next net d step).roster.inventory e) := by
  cases step with
  | elsewhere outside => exact .inr (.refl _)
  | call invocation c =>
    rw [World.next]
    cases result : c.exec net ⟨d, invocation⟩ w with
    | error failure => exact .inr (.refl _)
    | ok w' => exact exec_eases kept result e

theorem deployed_life (outside : σ) (e : Symbol) : ((deployed outside).life e).Sound :=
  ⟨nofun, nofun, Nat.zero_le _⟩

end Runs

end Zicket.Events
