import Zicket.Events.Types

/-! The life of one event, apart from its seats: its status, when it takes place, and how it
is being postponed. `Turn` is one step of a life, whoever takes it and why. -/

namespace Zicket.Events

structure Stage where
  status : EventStatus
  startLedger : ℕ
  endLedger : ℕ

/-- No stage: there is no such event yet. -/
structure Life where
  stage : Option Stage
  postponement : Option PostponementInfo
  postponeCount : ℕ

inductive EventStatus.Changes : EventStatus → EventStatus → Prop
  | activate : Changes .upcoming .active
  | complete : Changes .active .completed
  | postpone : Changes .active .postponed
  | resume : Changes .postponed .active
  | cancel {status : EventStatus} (running : status ≠ .completed) (kept : status ≠ .cancelled) :
    Changes status .cancelled

def EventStatus.Final (status : EventStatus) : Prop := status = .completed ∨ status = .cancelled

theorem EventStatus.Final.stays {status status' : EventStatus} (h : status.Final) :
    ¬ status.Changes status' := by
  rintro (_ | _ | _ | _ | ⟨running, kept⟩)
  · obtain h | h := h <;> cases h
  · obtain h | h := h <;> cases h
  · obtain h | h := h <;> cases h
  · obtain h | h := h <;> cases h
  · obtain h | h := h
    · exact running h
    · exact kept h

def Stage.duration (stage : Stage) : ℕ := stage.endLedger - stage.startLedger

structure Stage.Becomes (stage stage' : Stage) : Prop where
  duration : stage'.duration = stage.duration
  final : stage.status.Final → stage'.status = stage.status

theorem Stage.Becomes.refl (stage : Stage) : stage.Becomes stage := ⟨rfl, fun _ => rfl⟩

theorem Stage.Becomes.trans {first second third : Stage} (h : first.Becomes second)
    (h' : second.Becomes third) : first.Becomes third where
  duration := h'.duration.trans h.duration
  final ends := (h'.final ((h.final ends).symm ▸ ends)).trans (h.final ends)

namespace Life

inductive Turn (sequence : ℕ) : Life → Life → Prop
  | stay (life : Life) : Turn sequence life life
  | create {life : Life} {stage : Stage} (absent : life.stage = none)
    (upcoming : stage.status = .upcoming) (ordered : stage.startLedger ≤ stage.endLedger) :
    Turn sequence life { life with stage := some stage }
  | move {life : Life} {stage : Stage} {status : EventStatus} (present : life.stage = some stage)
    (changes : stage.status.Changes status) (settled : status ≠ .postponed)
    (paused : status = .active → stage.status ≠ .postponed) :
    Turn sequence life { life with stage := some { stage with status } }
  | postpone {life : Life} {stage : Stage} {info : PostponementInfo}
    (present : life.stage = some stage) (active : stage.status = .active)
    (few : life.postponeCount < maxPostponements)
    (later : info.choiceDeadlineLedger < info.newDateLedger) :
    Turn sequence life
      { stage := some { stage with status := .postponed }, postponement := some info,
        postponeCount := life.postponeCount + 1 }
  | resume {life : Life} {stage : Stage} {info : PostponementInfo}
    (present : life.stage = some stage) (postponed : stage.status = .postponed)
    (known : life.postponement = some info) (closed : info.choiceDeadlineLedger < sequence) :
    Turn sequence life
      { life with
        stage := some
          ⟨.active, info.newDateLedger, info.newDateLedger + (stage.endLedger - stage.startLedger)⟩
        postponement := none }

structure Sound (life : Life) : Prop where
  ordered : ∀ stage, life.stage = some stage → stage.startLedger ≤ stage.endLedger
  later : ∀ info, life.postponement = some info → info.choiceDeadlineLedger < info.newDateLedger
  few : life.postponeCount ≤ maxPostponements

variable {sequence : ℕ} {life life' : Life}

theorem Turn.sound (turn : life.Turn sequence life') (h : life.Sound) : life'.Sound := by
  cases turn with
  | stay => exact h
  | create _ _ ordered =>
    refine { h with ordered := ?_ }
    rintro _ ⟨⟩
    exact ordered
  | move present =>
    have ordered := h.ordered _ present
    refine { h with ordered := ?_ }
    rintro _ ⟨⟩
    exact ordered
  | postpone present _ few later =>
    have ordered := h.ordered _ present
    refine { ordered := ?_, later := ?_, few }
    · rintro _ ⟨⟩
      exact ordered
    · rintro _ ⟨⟩
      exact later
  | resume =>
    refine { h with ordered := ?_, later := nofun }
    rintro _ ⟨⟩
    exact Nat.le_add_right ..

theorem Turn.present {stage : Stage} (turn : life.Turn sequence life')
    (present : life.stage = some stage) : ∃ stage', life'.stage = some stage' ∧
      stage.Becomes stage' ∧
      (stage'.status = stage.status ∨ stage.status.Changes stage'.status) := by
  have changed {stage' : Stage} (duration : stage'.duration = stage.duration)
      (changes : stage.status.Changes stage'.status) : stage.Becomes stage' ∧
        (stage'.status = stage.status ∨ stage.status.Changes stage'.status) :=
    ⟨⟨duration, fun final => absurd changes final.stays⟩, .inr changes⟩
  cases turn with
  | stay => exact ⟨stage, present, .refl stage, .inl rfl⟩
  | create absent =>
    rw [absent] at present
    cases present
  | move present' changes =>
    cases present.symm.trans present'
    exact ⟨_, rfl, changed rfl changes⟩
  | postpone present' active =>
    cases present.symm.trans present'
    exact ⟨_, rfl, changed rfl (active ▸ .postpone)⟩
  | resume present' postponed =>
    cases present.symm.trans present'
    exact ⟨_, rfl, changed (Nat.add_sub_cancel_left ..) (postponed ▸ .resume)⟩

theorem Turn.absent {stage' : Stage} (turn : life.Turn sequence life') (absent : life.stage = none)
    (present : life'.stage = some stage') : stage'.status = .upcoming := by
  cases turn with
  | stay =>
    rw [absent] at present
    cases present
  | create _ upcoming =>
    cases present
    exact upcoming
  | move present' | postpone present' | resume present' =>
    rw [absent] at present'
    cases present'

/-- A postponed event is resumed after its deadline, and starts later than that. -/
theorem Turn.resumed {stage stage' : Stage} (turn : life.Turn sequence life') (h : life.Sound)
    (present : life.stage = some stage) (postponed : stage.status = .postponed)
    (present' : life'.stage = some stage') (active : stage'.status = .active) :
    ∃ info, life.postponement = some info ∧ info.choiceDeadlineLedger < sequence ∧
      info.choiceDeadlineLedger < stage'.startLedger := by
  cases turn with
  | stay =>
    cases present.symm.trans present'
    rw [postponed] at active
    cases active
  | create absent =>
    rw [absent] at present
    cases present
  | move found _ _ paused =>
    cases present.symm.trans found
    cases present'
    exact absurd postponed (paused active)
  | postpone =>
    cases present'
    cases active
  | resume _ _ known closed =>
    cases present'
    exact ⟨_, known, closed, h.later _ known⟩

def IsPostponed (life : Life) : Prop := ∃ stage, life.stage = some stage ∧ stage.status = .postponed

theorem Turn.counts (turn : life.Turn sequence life') : life.postponeCount ≤ life'.postponeCount ∧
    (life'.IsPostponed → ¬ life.IsPostponed → life.postponeCount + 1 ≤ life'.postponeCount) := by
  have none_entered {stage' : Stage} (status : stage'.status ≠ .postponed)
      (present' : life'.stage = some stage') : ¬ life'.IsPostponed := by
    rintro ⟨_, found, postponed⟩
    cases present'.symm.trans found
    exact status postponed
  cases turn with
  | stay => exact ⟨le_rfl, fun entered before => absurd entered before⟩
  | create _ upcoming =>
    exact ⟨le_rfl, fun entered => absurd entered (none_entered (by rw [upcoming]; decide) rfl)⟩
  | move _ _ settled => exact ⟨le_rfl, fun entered => absurd entered (none_entered settled rfl)⟩
  | postpone => exact ⟨Nat.le_succ _, fun _ _ => le_rfl⟩
  | resume =>
    have active : EventStatus.active ≠ .postponed := by decide
    exact ⟨le_rfl, fun entered => absurd entered (none_entered active rfl)⟩

end Life

end Zicket.Events
