import Zicket.Refinement.Transfers

/-! The two freezes: what a paused contract still does, and what is still paid out of an
event while it is postponed. -/

namespace Zicket.Payments

open Host Foundation Book

/-- While the contract is paused nothing leaves the escrow, and no payment or revenue changes. -/
def PauseHolds (d : Deployment) (w : World) (step : Step) : Prop :=
  w.isPaused = true →
    (∀ tr ∈ w.sent d step, tr.src ≠ d.currentContract) ∧
    (∀ id, (w.next d step).getPayment id = w.getPayment id) ∧
    ∀ e t, (w.next d step).getEventTokenRevenue e t = w.getEventTokenRevenue e t

/-- While an event is postponed none of its revenue is paid out. -/
def PostponementHolds (d : Deployment) (w : World) (step : Step) : Prop :=
  ∀ e, w.getEventStatus e = some .postponed → ∀ tr ∈ w.sent d step, tr.paysOut e = false

def Frozen (d : Deployment) (w : World) (step : Step) : Prop :=
  PauseHolds d w step ∧ PostponementHolds d w step

/-- The calls that do not look at the freezes are not made to a frozen contract or event. -/
def HeedsFreezes (env : Env) (w : World) : Call → Prop
  | .claimRefund _ _ => w.isPaused = false
  | .processDisputeTimeouts e => w.isPaused = true → ∀ k ∈ w.getEventDisputes e,
    ∀ dispute ∈ w.getDispute k, disputeExpired env dispute = false
  | .withdrawSplit _ e | .resolveFlaggedShare e _ .reassignToPrimary =>
    w.getEventStatus e = some .postponed → w.getSplitSettlement e = none
  | _ => True

def Call.skipsPause : Call → Bool
  | .initialise .. | .addSupportedToken .. | .setPaused .. | .extendWithdrawalDelay ..
  | .cancelEvent .. | .claimRefund .. | .setTicketContract .. | .processDisputeTimeouts .. => true
  | _ => false

variable {d : Deployment} {env : Env} {w w' : World} {c : Call} {e : Symbol} {step : Step}

section Paused

theorem unpaused_of_guard {α : Type} {rest : Unit → Attempt α} {a : α}
    (h : (requireNotPaused w >>= rest) = .ok a) : w.isPaused = false := by
  obtain ⟨_, unpaused, -⟩ := bind_eq_ok.mp h
  exact require_eq_ok.mp unpaused

theorem createPayment_unpaused {params : PaymentParams} {result : ℕ × World}
    (h : createPayment env params w = .ok result) : w.isPaused = false := by
  obtain ⟨-, -, h⟩ := bind_eq_ok.mp h
  exact unpaused_of_guard h

theorem exec_unpaused (checks : c.skipsPause = false) (h : c.exec env w = .ok w') :
    w.isPaused = false := by
  cases c with
  | initialise | addSupportedToken | setPaused | extendWithdrawalDelay | cancelEvent | claimRefund
  | setTicketContract | processDisputeTimeouts => cases checks
  | payForTicket | payForTicketWithCommitment | payForTicketWithOptions =>
    obtain ⟨result, paid, -⟩ := bind_eq_ok.mp h
    exact createPayment_unpaused paid
  | migrate =>
    obtain ⟨result, migrated, -⟩ := bind_eq_ok.mp h
    exact unpaused_of_guard migrated
  | _ => exact unpaused_of_guard h

def Book.Alike (b b' : Book) : Prop :=
  b'.payment = b.payment ∧ b'.revenue = b.revenue ∧ b'.transfers = b.transfers

theorem Book.Alike.pauseHolds (alike : w.book.Alike (w.next d step).book) :
    PauseHolds d w step := by
  obtain ⟨payment, revenue, log⟩ := alike
  have nothing : w.sent d step = [] := sent_eq log
  refine fun _ => ⟨by simp [nothing], fun id => ?_, fun e t => congrFun (congrFun revenue e) t⟩
  have stored : (w.next d step).get (.payment id) = w.get (.payment id) := congrFun payment id
  rw [World.getPayment, stored]
  rfl

theorem post_alike {self : Address} {b : Book} {posting : Posting}
    (calm : posting.entry ∈ [.start, .configure, .cancel, .outside]) :
    b.Alike (b.post self posting) := by
  cases posting with
  | start | configure | cancel | outside => exact ⟨rfl, rfl, rfl⟩
  | _ => simp [Posting.entry] at calm

theorem run_alike {self : Address} {ps : List Posting}
    (calm : ∀ posting ∈ ps, posting.entry ∈ [.start, .configure, .cancel, .outside]) (b : Book) :
    b.Alike (run (post self) b ps) := by
  have each : ∀ b' posting, b.Alike b' →
      posting.entry ∈ [Entry.start, .configure, .cancel, .outside] →
      b.Alike (b'.post self posting) := by
    intro b' posting alike calm
    obtain ⟨payment, revenue, log⟩ : b'.Alike (b'.post self posting) := post_alike calm
    exact ⟨payment.trans alike.1, revenue.trans alike.2.1, log.trans alike.2.2⟩
  exact run_invariant each (along_of_mem (fun posting mem _ => calm posting mem) b)
    ⟨rfl, rfl, rfl⟩

theorem Sweeps.returned {ps : List Posting} {p : PaymentRecord} (sweeps : Sweeps e ps)
    (self : Address) (b : Book) (mem : .unfreeze p ∈ ps) :
    ∃ q, (run (post self) b ps).payment p.paymentId = some q ∧ q.status = .held := by
  obtain ⟨before, after, rfl⟩ := List.mem_iff_append.mp mem
  have each : ∀ (b : Book) posting,
      (∃ q, b.payment p.paymentId = some q ∧ q.status = .held) →
      (∃ p', posting = Posting.unfreeze p' ∧ p'.eventId = e) →
      ∃ q, (b.post self posting).payment p.paymentId = some q ∧ q.status = .held := by
    rintro b _ ⟨q, stored, held⟩ ⟨p', rfl, -⟩
    by_cases same : p.paymentId = p'.paymentId
    · refine ⟨{ p' with status := .held }, ?_, rfl⟩
      rw [same]
      exact Function.update_self ..
    · exact ⟨q, (Function.update_of_ne same ..).trans stored, held⟩
  rw [run_append, run_cons]
  refine run_invariant each (along_of_mem (fun posting mem _ => ?_) _)
    ⟨{ p with status := .held }, Function.update_self .., rfl⟩
  exact sweeps posting (List.mem_append_right _ (List.mem_cons_of_mem _ mem))

/-- The sweep is quiet exactly when no listed dispute has timed out. -/
theorem processDisputeTimeouts_pauseHolds {invocation : Invocation} (kept : w.book.Kept)
    (h : processTimedOutDisputes ⟨d, invocation⟩ e w = .ok w') :
    PauseHolds d w (.call invocation (.processDisputeTimeouts e)) ↔
      HeedsFreezes ⟨d, invocation⟩ w (.processDisputeTimeouts e) := by
  have next : w.next d (.call invocation (.processDisputeTimeouts e)) = w' := by
    rw [World.next, Call.exec, h, commit_ok]
  obtain ⟨sweeps, -, effect⟩ := processTimedOutDisputes_returns kept h
  have recorded := kept.recorded
  constructor
  · intro holds paused k listed dispute hd
    by_contra waits
    have expired := Bool.not_eq_false _ ▸ waits
    obtain ⟨-, same, -⟩ := holds paused
    have hd : w.book.dispute k = some dispute := hd
    obtain ⟨-, -, p, hp, disputed, -⟩ := recorded.disputed k dispute hd
    have swept : .unfreeze p ∈ w.book.returns ⟨d, invocation⟩ (w.getEventDisputes e) := by
      refine List.mem_filterMap.mpr ⟨k, listed, ?_⟩
      rw [if_pos (any_expired hd expired), hp, Option.map_some]
    obtain ⟨q, stored, held⟩ := sweeps.returned d.currentContract w.book swept
    have after : w'.book.payment k = some q := by
      rw [← effect, ← (recorded.numbered k p hp).1]
      exact stored
    have unchanged := same k
    have before : w.getPayment k = .ok p := okOr_eq_ok.mpr hp
    rw [next, before] at unchanged
    have after' : w.book.payment k = w'.book.payment k :=
      hp.trans (okOr_eq_ok.mp unchanged).symm
    rw [hp, after] at after'
    cases after'
    rw [disputed] at held
    cases held
  · intro heeds paused
    have quiet : w.book.returns ⟨d, invocation⟩ (w.getEventDisputes e) = [] := by
      refine List.filterMap_eq_nil_iff.mpr fun k listed => ?_
      cases hd : w.book.dispute k with
      | none => rfl
      | some dispute => exact if_neg (any_waiting rfl (heeds paused k listed dispute hd))
    rw [quiet, run_nil] at effect
    refine Alike.pauseHolds ?_ paused
    rw [next, ← effect]
    exact ⟨rfl, rfl, rfl⟩

end Paused

section Postponed

theorem resolve_reassigns {recipient : Address}
    (h : resolveFlaggedShare env e recipient .reassignToPrimary w = .ok w') :
    reassignToPrimary env e recipient (w.getSplits e) w = .ok w' := by
  simp only [resolveFlaggedShare, bind_eq_ok] at h
  obtain ⟨-, -, -, -, -, -, -, -, -, -, -, -, h⟩ := h
  exact h

theorem paysTo_unpostponed {dst : Address} (heeds : HeedsFreezes env w c)
    (result : c.exec env w = .ok w') (pays : c.PaysTo w e dst) :
    w.getEventStatus e ≠ some .postponed := by
  intro postponed
  have unsettled {s : SplitSettlement} {w₁ : World} (fresh : w.getSplitSettlement e = none)
      (h : ensureSplitSettled env e w = .ok (s, w₁)) : False := by
    obtain ⟨config, -, timely⟩ := ensureSplitSettled_timely fresh h
    exact timely.unpostponed postponed
  cases c with
  | withdraw organizer e' =>
    obtain ⟨rfl, -⟩ := pays
    obtain ⟨config, -, -, timely⟩ := withdraw_timely result
    exact timely.unpostponed postponed
  | withdrawRevenue e' recipient =>
    obtain ⟨rfl, -⟩ := pays
    simp only [Call.exec, withdrawRevenue, bind_eq_ok, require_eq_ok] at result
    obtain ⟨-, -, -, -, -, -, -, -, -, standing, -⟩ := result
    exact standing postponed
  | withdrawToken organizer e' t =>
    obtain ⟨rfl, -⟩ := pays
    simp only [Call.exec, withdrawToken, bind_eq_ok, require_eq_ok] at result
    obtain ⟨-, -, -, -, -, -, -, completed, -⟩ := result
    rw [completed] at postponed
    cases postponed
  | withdrawAllTokens organizer e' =>
    obtain ⟨rfl, -⟩ := pays
    simp only [Call.exec, withdrawAllTokens, bind_eq_ok, require_eq_ok] at result
    obtain ⟨-, -, -, -, -, -, -, completed, -⟩ := result
    rw [completed] at postponed
    cases postponed
  | releaseIfExpired e' =>
    obtain ⟨rfl, -⟩ := pays
    simp only [Call.exec, releaseIfExpired, bind_eq_ok, require_eq_ok] at result
    obtain ⟨-, -, -, -, -, -, -, -, -, standing, -⟩ := result
    exact standing postponed
  | withdrawSplit recipient e' =>
    obtain ⟨rfl, -⟩ := pays
    simp only [Call.exec, withdrawSplit, bind_eq_ok] at result
    obtain ⟨-, -, -, -, -, -, -, -, -, -, -, -, ⟨s, w₁⟩, settled, -⟩ := result
    exact unsettled (heeds postponed) settled
  | resolveFlaggedShare e' recipient resolution =>
    cases resolution with
    | releaseToRecipient => cases pays
    | reassignToPrimary =>
      obtain ⟨rfl, -⟩ := pays
      have result := resolve_reassigns result
      simp only [reassignToPrimary, bind_eq_ok] at result
      obtain ⟨-, -, ⟨s, w₁⟩, settled, -⟩ := result
      exact unsettled (heeds postponed) settled
  | _ => cases pays

theorem postponementHolds_of_heeds (kept : w.book.Kept)
    (heeds : Succeeding d HeedsFreezes w step) : PostponementHolds d w step := by
  intro e postponed tr mem
  by_contra pays
  obtain ⟨invocation, c, w', rfl, result, paysTo⟩ := sent_paysTo kept mem (by simpa using pays)
  exact paysTo_unpostponed (heeds (succeeds_iff.mpr ⟨w', result⟩)) result paysTo postponed

theorem unsettled_of_share {invocation : Invocation} {settling : List Posting}
    {recipient dst : Address} {s : SplitSettlement} {share : ℤ} {time : ℕ}
    (effect : run (post d.currentContract) w.book
      (settling ++ [.share e recipient dst s share time]) =
        (w.next d (.call invocation c)).book)
    (holds : PostponementHolds d w (.call invocation c)) :
    w.getEventStatus e ≠ some .postponed := by
  intro postponed
  have paid := holds e postponed _ (mem_sent settling effect (List.mem_singleton_self _))
  simp [Transfer.paysOut] at paid

end Postponed

theorem call_frozen_iff {invocation : Invocation} (kept : w.book.Kept)
    (result : c.exec ⟨d, invocation⟩ w = .ok w') :
    Frozen d w (.call invocation c) ↔ HeedsFreezes ⟨d, invocation⟩ w c := by
  have next : w.next d (.call invocation c) = w' := by rw [World.next, result, commit_ok]
  have success : c.succeeds ⟨d, invocation⟩ w = true := succeeds_iff.mpr ⟨w', result⟩
  obtain ⟨ps, posts, -, effect⟩ := succeeds_written kept success
  have postponed (heeds : HeedsFreezes ⟨d, invocation⟩ w c) :
      PostponementHolds d w (.call invocation c) :=
    postponementHolds_of_heeds kept fun _ => heeds
  refine ⟨?_, fun heeds => ⟨?_, postponed heeds⟩⟩
  · rintro ⟨paused, holds⟩
    cases c with
    | claimRefund payer paymentId =>
      obtain ⟨p, -, -, rfl⟩ := posts
      by_contra unpaused
      have entry := mem_sent [] effect (List.mem_singleton_self _)
      exact (paused (by simpa [HeedsFreezes] using unpaused)).1 _ entry rfl
    | processDisputeTimeouts e => exact (processDisputeTimeouts_pauseHolds kept result).mp paused
    | withdrawSplit recipient e =>
      obtain ⟨-, settling, s, share, -, rfl⟩ := posts
      exact fun postponed => absurd postponed (unsettled_of_share effect holds)
    | resolveFlaggedShare e recipient resolution =>
      cases resolution with
      | releaseToRecipient => trivial
      | reassignToPrimary =>
        obtain ⟨-, settling, s, dst, share, -, -, rfl⟩ := posts
        exact fun postponed => absurd postponed (unsettled_of_share effect holds)
    | _ => trivial
  · by_cases checks : c.skipsPause = true
    · have calm (quiet : ∀ entry ∈ c.entries, entry ∈ [.start, .configure, .cancel, .outside]) :
          PauseHolds d w (.call invocation c) := by
        refine Alike.pauseHolds ?_
        rw [← effect]
        exact run_alike (fun posting mem => quiet _ (posts.entries mem)) _
      cases c with
      | claimRefund => exact fun paused => by simp [HeedsFreezes, paused] at heeds
      | processDisputeTimeouts e => exact (processDisputeTimeouts_pauseHolds kept result).mpr heeds
      | initialise | addSupportedToken | setPaused | extendWithdrawalDelay | cancelEvent
      | setTicketContract => exact calm (by simp [Call.entries])
      | _ => cases checks
    · intro paused
      rw [exec_unpaused (by simpa using checks) result] at paused
      cases paused

theorem frozen_iff (kept : w.book.Kept) : Frozen d w step ↔ Succeeding d HeedsFreezes w step := by
  have still (alike : w.book.Alike (w.next d step).book) : PauseHolds d w step := alike.pauseHolds
  obtain ⟨ps, wrote, -, effect⟩ := next_wrote (d := d) kept step
  cases step with
  | call invocation c =>
    cases result : c.exec ⟨d, invocation⟩ w with
    | ok w' =>
      have success : c.succeeds ⟨d, invocation⟩ w = true := succeeds_iff.mpr ⟨w', result⟩
      rw [call_frozen_iff kept result]
      exact ⟨fun heeds _ => heeds, fun heeds => heeds success⟩
    | error failure =>
      have failed : c.succeeds ⟨d, invocation⟩ w = false := by
        simp [Call.succeeds, result, Except.isOk, Except.toBool]
      have heeds : Succeeding d HeedsFreezes w (.call invocation c) :=
        fun success => by rw [failed] at success; cases success
      refine iff_of_true ⟨still ?_, postponementHolds_of_heeds kept heeds⟩ heeds
      rw [World.next, result]
      exact ⟨rfl, rfl, rfl⟩
  | mint | pay =>
    refine iff_of_true ⟨still ?_, postponementHolds_of_heeds kept trivial⟩ trivial
    obtain rfl := wrote
    rw [← effect]
    exact run_alike (by simp [Posting.entry]) _

/-- The freezes hold along a run exactly when no call that ignores them is made under one: a
refund claimed, or a timed-out dispute returned, while the contract is paused; or a share of a
settled split event paid while the event is postponed. -/
theorem freezes_hold_iff (d : Deployment) (balances : Balances Address Address)
    (steps : List Step) :
    Along (World.next d) (Frozen d) (deployed balances) steps ↔
      Along (World.next d) (Succeeding d HeedsFreezes) (deployed balances) steps :=
  along_congr (I := fun w => w.book.Kept) (fun w step kept => next_kept w step kept)
    (fun _ _ kept => frozen_iff kept) (deployed_kept balances)

def Sample.paused : List Step :=
  opening ++ [sale 2 1 bob concert 100, call 3 (.cancelEvent concert organizer),
    call 4 (.setPaused admin true)]

def Sample.postponed : List Step :=
  opening ++ [call 2 (.syncRevenueSplits eventContract concert [(organizer, 6000), (amy, 4000)]),
    sale 2 1 bob concert 100, call 10 (.setEventStatus admin concert .completed),
    call 11 (.withdrawSplit organizer concert), call 12 (.postponeEvent concert organizer 90)]

/-- A refund is claimed from the paused contract, and a share of the postponed event is paid. -/
theorem freezes_ignored :
    ¬ Along (World.next Sample.deployment) (Frozen Sample.deployment)
        (deployed Sample.noBalances)
        (Sample.paused ++ [Sample.call 5 (.claimRefund Sample.bob 1)]) ∧
      ¬ Along (World.next Sample.deployment) (Frozen Sample.deployment)
        (deployed Sample.noBalances)
        (Sample.postponed ++ [Sample.call 13 (.withdrawSplit Sample.amy Sample.concert)]) := by
  constructor
  · intro frozen
    obtain ⟨-, ⟨holds, -⟩, -⟩ := along_append.mp frozen
    have refunded : ∃ tr ∈ (run (World.next Sample.deployment) (deployed Sample.noBalances)
        Sample.paused).sent Sample.deployment (Sample.call 5 (.claimRefund Sample.bob 1)),
        tr.src = Sample.deployment.currentContract := by decide
    obtain ⟨tr, mem, src⟩ := refunded
    exact (holds (by decide)).1 tr mem src
  · intro frozen
    obtain ⟨-, ⟨-, holds⟩, -⟩ := along_append.mp frozen
    have paid : ∃ tr ∈ (run (World.next Sample.deployment) (deployed Sample.noBalances)
        Sample.postponed).sent Sample.deployment
          (Sample.call 13 (.withdrawSplit Sample.amy Sample.concert)),
        tr.paysOut Sample.concert = true := by decide
    obtain ⟨tr, mem, pays⟩ := paid
    rw [holds Sample.concert (by decide) tr mem] at pays
    cases pays

end Zicket.Payments
