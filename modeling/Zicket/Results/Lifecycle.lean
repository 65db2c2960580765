import Zicket.Lifecycle.Steps
import Zicket.Results.Inventory

/-! The life of every event over whole runs of the event contract, whatever the linked
contracts answer. -/

namespace Zicket.Events

open Host Foundation World

variable {σ : Type} {net : Network σ} {d : Deployment}

/-- What a step may do to an event. -/
structure Lives (net : Network σ) (d : Deployment) (e : Symbol) (w : World σ) (step : Step σ) :
    Prop where
  created : w.get (.event e) = none →
    ∀ event', (w.next net d step).getEvent e = .ok event' → event'.status = .upcoming
  changes : ∀ event, w.getEvent e = .ok event → ∃ event',
    (w.next net d step).getEvent e = .ok event' ∧
      (event'.status = event.status ∨ event.status.Changes event'.status)
  resumed : ∀ event event', w.getEvent e = .ok event →
    (w.next net d step).getEvent e = .ok event' →
      event.status = .postponed → event'.status = .active →
        ∃ info, w.getPostponement e = some info ∧ info.choiceDeadlineLedger < step.sequence ∧
          info.choiceDeadlineLedger < event'.eventStartLedger
  seats : (w.roster.inventory e).status = some .active ∨
    (w.roster.inventory e).Eases ((w.next net d step).roster.inventory e)

def World.IsPostponed (w : World σ) (e : Symbol) : Prop :=
  ∃ event ∈ w.get (.event e), Event.status event = .postponed

instance (w : World σ) (e : Symbol) : Decidable (w.IsPostponed e) :=
  inferInstanceAs (Decidable (∃ event ∈ w.get (.event e), Event.status event = .postponed))

def EntersPostponed (net : Network σ) (d : Deployment) (e : Symbol) (w : World σ) (step : Step σ) :
    Prop :=
  ¬ w.IsPostponed e ∧ (w.next net d step).IsPostponed e

instance (e : Symbol) (w : World σ) (step : Step σ) :
    Decidable (EntersPostponed net d e w step) := by
  unfold EntersPostponed
  infer_instance

section Views

variable {w : World σ} {e : Symbol} {event : Event}

theorem life_stage (stored : w.getEvent e = .ok event) : (w.life e).stage = some event.stage :=
  Roster.stage_of_event (getEvent_ok.mp stored)

theorem stage_stored {stage : Stage} (present : (w.life e).stage = some stage) :
    ∃ event, w.getEvent e = .ok event ∧ event.stage = stage := by
  obtain ⟨event, stored, same⟩ := Option.map_eq_some_iff.mp present
  exact ⟨event, getEvent_ok.mpr stored, same⟩

theorem isPostponed_iff : w.IsPostponed e ↔ (w.life e).IsPostponed := by
  constructor
  · rintro ⟨event, stored, postponed⟩
    exact ⟨event.stage, Roster.stage_of_event stored, postponed⟩
  · rintro ⟨stage, present, postponed⟩
    obtain ⟨event, stored, rfl⟩ := Option.map_eq_some_iff.mp present
    exact ⟨event, stored, postponed⟩

end Views

theorem next_lives {w : World σ} (stocked : w.Stocked) {e : Symbol} (sound : (w.life e).Sound)
    (step : Step σ) : Lives net d e w step := by
  have turn : (w.life e).Turn step.sequence ((w.next net d step).life e) := next_turn w step e
  refine ⟨fun absent event' stored' => ?_, fun event stored => ?_,
    fun event event' stored stored' postponed active => ?_, next_eases stocked step e⟩
  · have unborn : (w.life e).stage = none := congrArg (Option.map Event.stage) absent
    exact turn.absent unborn (life_stage stored')
  · obtain ⟨stage', present', -, changes⟩ := turn.present (life_stage stored)
    obtain ⟨event', stored', rfl⟩ := stage_stored present'
    exact ⟨event', stored', changes⟩
  · exact turn.resumed sound (life_stage stored) postponed (life_stage stored') active

structure World.Lived (w : World σ) (e : Symbol) : Prop where
  stocked : w.Stocked
  sound : (w.life e).Sound

theorem next_lived {w : World σ} {e : Symbol} (h : w.Lived e) (step : Step σ) :
    (w.next net d step).Lived e :=
  ⟨next_stocked h.stocked step, (next_turn w step e).sound h.sound⟩

theorem deployed_lived (outside : σ) (e : Symbol) : (deployed outside).Lived e :=
  ⟨deployed_stocked outside, deployed_life outside e⟩

theorem run_lived (net : Network σ) (d : Deployment) {w : World σ} {e : Symbol} (h : w.Lived e)
    (steps : List (Step σ)) :
    (run (World.next net d) w steps).Lived e :=
  run_invariant (I := fun w : World σ => w.Lived e) (fun _ step h _ => next_lived h step)
    (along_of_forall (fun _ _ => trivial) w steps) h

theorem postponed_le_count (net : Network σ) (d : Deployment) (w : World σ) (e : Symbol)
    (steps : List (Step σ)) :
    (w.life e).postponeCount + firings (World.next net d) (EntersPostponed net d e) w steps ≤
      ((run (World.next net d) w steps).life e).postponeCount := by
  have counts (w : World σ) (step : Step σ) :
      (w.life e).postponeCount + (if EntersPostponed net d e w step then 1 else 0) ≤
        ((w.next net d step).life e).postponeCount := by
    have turn : (w.life e).Turn step.sequence ((w.next net d step).life e) := next_turn w step e
    obtain ⟨grows, counts⟩ := turn.counts
    split
    · rename_i enters
      exact counts (isPostponed_iff.mp enters.2) fun before => enters.1 (isPostponed_iff.mpr before)
    · exact grows
  exact add_firings_le_counter counts w steps

/-- An event is never lost, and what is to stay of it stays. -/
theorem run_becomes (net : Network σ) (d : Deployment) {w : World σ} {e : Symbol} {event : Event}
    (stored : w.getEvent e = .ok event) (steps : List (Step σ)) : ∃ event',
      (run (World.next net d) w steps).getEvent e = .ok event' ∧
        event.stage.Becomes event'.stage := by
  induction steps generalizing w event with
  | nil => exact ⟨event, stored, .refl _⟩
  | cons step steps ih =>
    have turn : (w.life e).Turn step.sequence ((w.next net d step).life e) := next_turn w step e
    obtain ⟨stage', present', first, -⟩ := turn.present (life_stage stored)
    obtain ⟨event', stored', rfl⟩ := stage_stored present'
    obtain ⟨event'', stored'', rest⟩ := ih stored'
    exact ⟨event'', stored'', first.trans rest⟩

/-- Along every run: the status changes only as it may, and a final one stays; an event is
postponed at most three times and resumed only after the deadline, to start after it; it lasts
as long as it was created to; and only an active event's seats are taken. -/
theorem event_lifecycle (net : Network σ) (d : Deployment) (outside : σ) (steps : List (Step σ))
    (e : Symbol) :
    Along (World.next net d) (Lives net d e) (deployed outside) steps ∧
    firings (World.next net d) (EntersPostponed net d e) (deployed outside) steps ≤ 3 ∧
    ∀ before, before <+: steps →
      ∀ event, (run (World.next net d) (deployed outside) before).getEvent e = .ok event →
        event.eventStartLedger ≤ event.eventEndLedger ∧
        ∃ event', (run (World.next net d) (deployed outside) steps).getEvent e = .ok event' ∧
          event'.eventStartLedger ≤ event'.eventEndLedger ∧
          event'.eventEndLedger - event'.eventStartLedger =
            event.eventEndLedger - event.eventStartLedger ∧
          (event.status.Final → event'.status = event.status) := by
  refine ⟨?_, ?_, ?_⟩
  · have free : Along (World.next net d) (fun _ _ => True) (deployed outside) steps :=
      along_of_forall (fun _ _ => trivial) _ steps
    refine (free.strengthen (I := fun w : World σ => w.Lived e)
      (fun _ step h _ => next_lived h step) (deployed_lived outside e)).mono ?_
    rintro w step ⟨lived, -⟩
    exact next_lives lived.stocked lived.sound step
  · have bound := postponed_le_count net d (deployed outside) e steps
    have few := (run_lived net d (deployed_lived outside e) steps).sound.few
    have unused : ((deployed outside).life e).postponeCount = 0 := rfl
    simp only [unused, maxPostponements] at bound few
    omega
  · rintro before ⟨later, rfl⟩ event stored
    rw [run_append]
    have now := run_lived net d (deployed_lived outside e) before
    obtain ⟨event', stored', becomes⟩ := run_becomes net d stored later
    have then_ := run_lived net d now later
    exact ⟨now.sound.ordered _ (life_stage stored), event', stored',
      then_.sound.ordered _ (life_stage stored'), becomes.duration, becomes.final⟩

end Zicket.Events
