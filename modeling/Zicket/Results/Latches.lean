import Zicket.Refinement.Calls

/-! The two one-way switches of an event: `organizer_withdrawn`, which no operation
clears, and `auto_released`, which `set_event_end_time` clears. -/

namespace Zicket.Payments

open Host Foundation Book

variable {d : Deployment} {e : Symbol}

section OrganizerWithdrawn

def Book.Withdrawn (b : Book) (e : Symbol) : Prop :=
  ∃ c, b.config e = some c ∧ c.organizerWithdrawn = true

def World.OrganizerWithdrawn (w : World) (e : Symbol) : Prop :=
  ∃ c ∈ w.getEventConfig e, c.organizerWithdrawn = true

def SettlesEvent (d : Deployment) (e : Symbol) (w : World) : Step → Prop
  | .call invocation (.withdraw organizer e') =>
    e' = e ∧ (Call.withdraw organizer e').succeeds ⟨d, invocation⟩ w = true
  | .call invocation (.withdrawRevenue e' recipient) =>
    e' = e ∧ (Call.withdrawRevenue e' recipient).succeeds ⟨d, invocation⟩ w = true
  | _ => False

instance (d : Deployment) (e : Symbol) (w : World) (step : Step) :
    Decidable (SettlesEvent d e w step) := by
  unfold SettlesEvent
  split <;> infer_instance

theorem post_configured_event {self : Address} {b : Book} {posting : Posting}
    (sound : Sound self b posting) (h : (b.config e).isSome) :
    ((b.post self posting).config e).isSome := by
  obtain ⟨c, stored⟩ := Option.isSome_iff_exists.mp h
  obtain ⟨c', stored', -, -⟩ := post_config sound stored
  rw [stored']
  rfl

theorem post_withdrawn {self : Address} {b : Book} {posting : Posting}
    (sound : Sound self b posting) (h : b.Withdrawn e) : (b.post self posting).Withdrawn e := by
  obtain ⟨c, stored, withdrawn⟩ := h
  obtain ⟨c', stored', latch, -⟩ := post_config sound stored
  exact ⟨c', stored', latch withdrawn⟩

theorem next_withdrawn {w : World} (step : Step) (kept : w.book.Kept) (h : w.book.Withdrawn e) :
    (w.next d step).book.Withdrawn e :=
  next_posting_invariant (fun _ _ _ inv sound => post_withdrawn sound inv) step kept h

theorem settlesEvent_sets {w : World} {step : Step} (kept : w.book.Kept)
    (configured : (w.book.config e).isSome) (h : SettlesEvent d e w step) :
    ¬ w.book.Withdrawn e ∧ (w.next d step).book.Withdrawn e := by
  unfold SettlesEvent at h
  split at h
  · obtain ⟨rfl, success⟩ := h
    obtain ⟨ps, ⟨sweep, c, total, net, left, -, stored, unlatched, rfl⟩, -, effect⟩ :=
      succeeds_written kept success
    constructor
    · rintro ⟨c', stored', withdrawn⟩
      rw [stored] at stored'
      cases stored'
      rw [unlatched] at withdrawn
      cases withdrawn
    · rw [← effect, run_append]
      exact ⟨{ c with organizerWithdrawn := true }, Function.update_self .., rfl⟩
  · obtain ⟨rfl, success⟩ := h
    obtain ⟨c, stored⟩ := Option.isSome_iff_exists.mp configured
    obtain ⟨ps, ⟨sweep, t, total, net, -, -, unlatched, rfl⟩, -, effect⟩ :=
      succeeds_written kept success
    constructor
    · rintro ⟨c', stored', withdrawn⟩
      rw [unlatched c' stored'] at withdrawn
      cases withdrawn
    · rw [← effect, run_append, stored]
      exact ⟨{ c with organizerWithdrawn := true }, Function.update_self .., rfl⟩
  · cases h

/-- Of `withdraw` and `withdraw_revenue` at most one call ever succeeds for a configured
event, and the latch it sets is never cleared. -/
theorem settlement_one_shot (d : Deployment) (balances : Balances Address Address) (e : Symbol)
    (before after : List Step)
    (configured : ((run (World.next d) (deployed balances) before).getEventConfig e).isSome) :
    firings (World.next d) (SettlesEvent d e) (run (World.next d) (deployed balances) before)
        after ≤ 1 ∧
      ((run (World.next d) (deployed balances) before).OrganizerWithdrawn e →
        (run (World.next d) (deployed balances) (before ++ after)).OrganizerWithdrawn e) := by
  have kept := reachable_kept d balances before
  have stays : ∀ (w : World) step, w.book.Kept ∧ w.book.Withdrawn e →
      (w.next d step).book.Kept ∧ (w.next d step).book.Withdrawn e :=
    fun w step h => ⟨next_kept w step h.1, next_withdrawn step h.1 h.2⟩
  constructor
  · have inv : ∀ (w : World) step, w.book.Kept ∧ (w.book.config e).isSome →
        (w.next d step).book.Kept ∧ ((w.next d step).book.config e).isSome :=
      fun w step inv => ⟨next_kept w step inv.1, next_posting_invariant
        (fun _ _ _ inv sound => post_configured_event sound inv) step inv.1 inv.2⟩
    have sets : ∀ (w : World) step, w.book.Kept ∧ (w.book.config e).isSome →
        SettlesEvent d e w step → (w.next d step).book.Kept ∧ (w.next d step).book.Withdrawn e :=
      fun w step inv fires =>
        ⟨next_kept w step inv.1, (settlesEvent_sets inv.1 inv.2 fires).2⟩
    have blocks : ∀ (w : World) step, w.book.Kept ∧ w.book.Withdrawn e →
        ¬ SettlesEvent d e w step := by
      rintro w step ⟨kept, c, stored, withdrawn⟩ fires
      have configured : (w.book.config e).isSome := by rw [stored]; rfl
      exact (settlesEvent_sets kept configured fires).1 ⟨c, stored, withdrawn⟩
    exact firings_le_one inv sets stays blocks _ after ⟨kept, configured⟩
  · intro withdrawn
    rw [run_append]
    exact (run_invariant (fun w step h _ => stays w step h)
      (along_of_forall (fun _ _ => trivial) _ after) ⟨kept, withdrawn⟩).2

theorem settlement_one_shot_sample :
    firings (World.next Sample.deployment) (SettlesEvent Sample.deployment Sample.concert)
        (run (World.next Sample.deployment) (deployed Sample.noBalances) Sample.opening)
        [Sample.sale 2 1 Sample.bob Sample.concert 100,
          Sample.call 3 (.withdrawRevenue Sample.concert Sample.organizer)] ≤ 1 :=
  (settlement_one_shot Sample.deployment Sample.noBalances Sample.concert Sample.opening _
    (by decide)).1

end OrganizerWithdrawn

section AutoReleased

def Book.Released (b : Book) (e : Symbol) : Prop :=
  ∃ escrow, b.escrow e = some escrow ∧ escrow.autoReleased = true

def World.AutoReleased (w : World) (e : Symbol) : Prop :=
  ∃ escrow ∈ (w.get (.escrowMeta e) : Option EscrowMetadata), escrow.autoReleased = true

instance (w : World) (e : Symbol) : Decidable (w.AutoReleased e) :=
  inferInstanceAs (Decidable (∃ _ ∈ _, _))

/-- `set_event_end_time` is called for an event only before its auto-release. -/
def KeepsEscrow (e : Symbol) (_ : Env) (w : World) : Call → Prop
  | .setEventEndTime _ e' _ _ => e' = e → ¬ w.AutoReleased e
  | _ => True

instance (e : Symbol) (env : Env) (w : World) (c : Call) : Decidable (KeepsEscrow e env w c) := by
  apply @Call.casesOn (fun c => Decidable (KeepsEscrow e env w c)) c <;> intros <;>
    dsimp only [KeepsEscrow] <;> infer_instance

theorem post_released {self : Address} {b : Book} {posting : Posting}
    (kept : ∀ escrow, posting = .setEscrow e escrow → escrow.autoReleased = true)
    (h : b.Released e) : (b.post self posting).Released e := by
  cases posting with
  | setEscrow e' escrow =>
    by_cases he : e = e'
    · subst he
      exact ⟨escrow, Function.update_self .., kept escrow rfl⟩
    · obtain ⟨escrow', stored, released⟩ := h
      exact ⟨escrow', by simpa [post, he] using stored, released⟩
  | resale ticket t price fee royalty buyer seller =>
    have terms :=
      (recordResale_frame self b ticket t price (price - fee - royalty) buyer seller).2.1
    obtain ⟨escrow, stored, released⟩ := h
    exact ⟨escrow, (congrFun (congrArg Terms.escrow terms) e).trans stored, released⟩
  | _ => exact h

/-- Only two calls write the escrow record, and under `KeepsEscrow` both keep the release. -/
theorem writes_release {env : Env} {w : World} {c : Call} {ps : List Posting}
    (released : w.book.Released e) (meets : KeepsEscrow e env w c) (posts : Posts env w ps c)
    {escrow : EscrowMetadata} (mem : .setEscrow e escrow ∈ ps) : escrow.autoReleased = true := by
  have kind : Entry.setEscrow ∈ c.entries := posts.entries mem
  cases c with
  | setEventEndTime admin e' organizer endTime =>
    obtain rfl := posts
    obtain ⟨rfl, -⟩ : e = e' ∧ _ := by simpa using mem
    exact absurd released (meets rfl)
  | releaseIfExpired e' =>
    obtain ⟨sweep, drains, escrow', sweeps, -, -, isDrain, rfl⟩ := posts
    rw [List.append_assoc, List.mem_append, List.mem_append, List.mem_singleton] at mem
    obtain mem | mem | mem := mem
    · cases sweeps.entries mem
    · cases isDrain.entries mem
    · cases mem
      rfl
  | _ => simp [Call.entries] at kind

theorem run_released {w : World} {steps : List Step}
    (along : Along (World.next d) (Succeeding d (KeepsEscrow e)) w steps) (kept : w.book.Kept)
    (h : w.book.Released e) : (run (World.next d) w steps).book.Released e := by
  refine call_invariant (I := fun b => b.Released e)
    (Q := fun _ posting => ∀ escrow, posting = .setEscrow e escrow → escrow.autoReleased = true)
    (fun _ _ _ inv _ kept => post_released kept inv) (by simp) ?_ along kept h
  intro env w c ps _ _ released meets posts _
  refine along_of_mem ?_ _
  rintro posting mem - escrow rfl
  exact writes_release released meets posts mem

theorem release_sets {w : World} {invocation : Invocation} (kept : w.book.Kept)
    (h : (Call.releaseIfExpired e).succeeds ⟨d, invocation⟩ w = true) :
    ¬ w.book.Released e ∧ (w.next d (.call invocation (.releaseIfExpired e))).book.Released e := by
  obtain ⟨ps, ⟨sweep, drains, escrow, -, stored, unreleased, -, rfl⟩, -, effect⟩ :=
    succeeds_written kept h
  constructor
  · rintro ⟨escrow', stored', released⟩
    rw [stored] at stored'
    cases stored'
    rw [unreleased] at released
    cases released
  · rw [← effect, run_append]
    exact ⟨{ escrow with autoReleased := true }, Function.update_self .., rfl⟩

theorem refund_unreleased {w : World} {invocation : Invocation} {admin : Address} {id : ℕ}
    {amount : Option ℤ} {p : PaymentRecord} (kept : w.book.Kept)
    (stored : w.book.payment id = some p)
    (h : (Call.refund admin id amount).succeeds ⟨d, invocation⟩ w = true) :
    ¬ w.book.Released p.eventId := by
  obtain ⟨ps, ⟨p', payer, status, stored', latch, -⟩, -, -⟩ := succeeds_written kept h
  rw [stored] at stored'
  cases stored'
  rintro ⟨escrow, hescrow, released⟩
  simp [latched, hescrow, released] at latch

/-- After an auto-release, as long as `set_event_end_time` leaves the event alone: the
flag stays, and neither another release nor an admin refund of the event succeeds. -/
theorem auto_release_one_shot (d : Deployment) (balances : Balances Address Address) (e : Symbol)
    (before after : List Step) (invocation : Invocation)
    (released : (Call.releaseIfExpired e).succeeds ⟨d, invocation⟩
      (run (World.next d) (deployed balances) before) = true)
    (meets : Along (World.next d) (Succeeding d (KeepsEscrow e)) (deployed balances)
      (before ++ .call invocation (.releaseIfExpired e) :: after)) :
    let w := run (World.next d) (deployed balances)
      (before ++ .call invocation (.releaseIfExpired e) :: after)
    w.AutoReleased e ∧
      (∀ invocation', (Call.releaseIfExpired e).succeeds ⟨d, invocation'⟩ w = false) ∧
      ∀ invocation' admin id amount p, w.getPayment id = .ok p → p.eventId = e →
        (Call.refund admin id amount).succeeds ⟨d, invocation'⟩ w = false := by
  intro w
  have kept := reachable_kept d balances before
  have kept' : w.book.Kept := reachable_kept d balances _
  have released' : w.book.Released e := by
    have rest := (along_append.mp meets).2.2
    have first := (release_sets kept released).2
    have last := run_released rest (next_kept _ _ kept) first
    rwa [← run_cons, ← run_append] at last
  refine ⟨released', fun invocation' => ?_, fun invocation' admin id amount p hp event => ?_⟩
  · by_contra again
    exact (release_sets kept' (by simpa using again)).1 released'
  · by_contra refunded
    have stored : w.book.payment id = some p := okOr_eq_ok.mp hp
    exact refund_unreleased kept' stored (by simpa using refunded) (event ▸ released')

def Sample.ended : List Step :=
  Sample.opening ++ [Sample.sale 2 1 Sample.bob Sample.concert 100,
    Sample.sale 2 2 Sample.bob Sample.festival 100,
    Sample.call 3 (.setEventEndTime Sample.admin Sample.concert Sample.organizer 5)]

theorem auto_release_one_shot_sample :
    (run (World.next Sample.deployment) (deployed Sample.noBalances)
      (Sample.ended ++ Sample.call 10 (.releaseIfExpired Sample.concert) ::
        [Sample.sale 11 3 Sample.bob Sample.concert 50])).AutoReleased Sample.concert :=
  (auto_release_one_shot Sample.deployment Sample.noBalances Sample.concert Sample.ended _
    (Sample.invocation 10) (by decide) (by decide)).1

/-- Resetting the end time clears the flag: the event is released again, and a payment
that was paid out is refunded from another event's escrow. -/
theorem auto_release_repeats :
    let released := run (World.next Sample.deployment) (deployed Sample.noBalances)
      (Sample.ended ++ [Sample.call 10 (.releaseIfExpired Sample.concert)])
    let reset := run (World.next Sample.deployment) released
      [Sample.call 11 (.setEventEndTime Sample.admin Sample.concert Sample.organizer 5)]
    (Call.releaseIfExpired Sample.concert).succeeds ⟨Sample.deployment, Sample.invocation 10⟩
        (run (World.next Sample.deployment) (deployed Sample.noBalances) Sample.ended) = true ∧
      released.AutoReleased Sample.concert ∧ ¬ reset.AutoReleased Sample.concert ∧
      (Call.releaseIfExpired Sample.concert).succeeds ⟨Sample.deployment, Sample.invocation 12⟩
        reset = true ∧
      (Call.refund Sample.admin 1 none).succeeds ⟨Sample.deployment, Sample.invocation 12⟩
        reset = true := by
  decide

end AutoReleased

end Zicket.Payments
