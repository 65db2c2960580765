import Zicket.Escrow.Log
import Zicket.Refinement.Calls

/-! What a step sends: the transfers it adds to the log, and which calls pay out the revenue
of an event, to whom, and when the withdrawal rule allows it. -/

namespace Zicket.Payments

open Host Foundation Book

def Transfer.paysOut (e : Symbol) (tr : Transfer) : Bool :=
  tr.eventId = e && match tr.purpose with
    | .revenue | .splitShare _ => true
    | _ => false

def World.sent (d : Deployment) (w : World) (step : Step) : List Transfer :=
  let log := (w.next d step).transfers
  log.take (log.length - w.transfers.length)

def Call.PaysTo (w : World) (e : Symbol) (dst : Address) : Call → Prop
  | .withdraw _ e' => e' = e ∧ ∃ config ∈ w.getEventConfig e, config.organizer = dst
  | .withdrawRevenue e' recipient => e' = e ∧ recipient = dst
  | .withdrawToken organizer e' _ | .withdrawAllTokens organizer e' => e' = e ∧ organizer = dst
  | .releaseIfExpired e' =>
    e' = e ∧ ∃ escrow ∈ (w.get (.escrowMeta e) : Option EscrowMetadata), escrow.organizer = dst
  | .withdrawSplit recipient e' => e' = e ∧ recipient = dst
  | .resolveFlaggedShare e' _ .reassignToPrimary => e' = e ∧ w.book.primary e = some dst
  | _ => False

/-- The withdrawal rule: a completed event past its delay, or a cancelled one past the
dispute window. -/
def Timely (env : Env) (w : World) (e : Symbol) (config : EventConfig) : Prop :=
  (w.getEventStatus e = some .completed ∧ config.eventEndLedger + config.withdrawalDelayLedgers +
      config.adminDelayExtensionLedgers ≤ env.sequence) ∨
  (w.getEventStatus e = some .cancelled ∧
    ∃ cancelLedger ∈ config.cancelLedger, cancelLedger + minDisputeWindowLedgers ≤ env.sequence)

instance (env : Env) (w : World) (e : Symbol) (config : EventConfig) :
    Decidable (Timely env w e config) :=
  inferInstanceAs (Decidable ((_ ∧ _) ∨ (_ ∧ ∃ _ ∈ _, _)))

section Sent

variable {d : Deployment} {w : World} {step : Step} {new : List Transfer} {tr : Transfer}

theorem sent_eq (h : (w.next d step).transfers = new ++ w.transfers) : w.sent d step = new := by
  simp [World.sent, h]

theorem sent_of_error {invocation : Invocation} {c : Call} {e : Failure PaymentError}
    (failed : c.exec ⟨d, invocation⟩ w = .error e) : w.sent d (.call invocation c) = [] := by
  refine sent_eq ?_
  rw [World.next, failed]
  rfl

theorem run_transfers (self : Address) (b : Book) (ps : List Posting) :
    ∃ new, (run (post self) b ps).transfers = new ++ b.transfers ∧
      ∀ tr ∈ new, ∃ posting ∈ ps, ∃ b', tr ∈ added self b' posting := by
  induction ps generalizing b with
  | nil => exact ⟨[], rfl, by simp⟩
  | cons posting ps ih =>
    obtain ⟨later, log, from_later⟩ := ih (b.post self posting)
    refine ⟨later ++ b.added self posting, ?_, fun tr mem => ?_⟩
    · rw [run_cons, log, post_transfers, List.append_assoc]
    · obtain mem | mem := List.mem_append.mp mem
      · obtain ⟨posting', mem', entry⟩ := from_later tr mem
        exact ⟨posting', List.mem_cons_of_mem _ mem', entry⟩
      · exact ⟨posting, List.mem_cons_self .., b, mem⟩

/-- What a step sends, its postings log. -/
theorem next_sent (kept : w.book.Kept) (step : Step) :
    ∃ ps, Wrote d w ps step ∧
      Along (post d.currentContract) (Sound d.currentContract) w.book ps ∧
      run (post d.currentContract) w.book ps = (w.next d step).book ∧
      ∀ tr ∈ w.sent d step, ∃ posting ∈ ps, ∃ b, tr ∈ added d.currentContract b posting := by
  obtain ⟨ps, wrote, sound, effect⟩ := next_wrote kept step
  obtain ⟨new, log, entries⟩ := run_transfers d.currentContract w.book ps
  have log : (w.next d step).transfers = new ++ w.transfers := by
    have same : (w.next d step).transfers = (run (post d.currentContract) w.book ps).transfers :=
      congrArg (·.transfers) effect.symm
    exact same.trans log
  rw [sent_eq log]
  exact ⟨ps, wrote, sound, effect, entries⟩

theorem mem_sent (before : List Posting) {after : List Posting} {posting : Posting}
    (effect : run (post d.currentContract) w.book (before ++ posting :: after) =
      (w.next d step).book)
    (entry : tr ∈ (run (post d.currentContract) w.book before).added d.currentContract posting) :
    tr ∈ w.sent d step := by
  obtain ⟨earlier, log, -⟩ := run_transfers d.currentContract w.book before
  rw [run_append, run_cons] at effect
  obtain ⟨later, log', -⟩ := run_transfers d.currentContract
    (post d.currentContract (run (post d.currentContract) w.book before) posting) after
  rw [effect, post_transfers, log, ← List.append_assoc, ← List.append_assoc] at log'
  rw [sent_eq log']
  exact List.mem_append_left _ (List.mem_append_right _ entry)

end Sent

section PaysTo

variable {env : Env} {w w' : World} {e : Symbol} {tr : Transfer}

theorem added_paysOut {self : Address} {b : Book} {posting : Posting}
    (mem : tr ∈ b.added self posting) (pays : tr.paysOut e = true) :
    (∃ t pool total net left time, posting = .payout e t pool total net left tr.dst time) ∨
      ∃ recipient s amount time, posting = .share e recipient tr.dst s amount time := by
  cases posting with
  | payout e' t pool total net left dst time =>
    obtain rfl := List.mem_singleton.mp mem
    obtain rfl : e' = e := by simpa [Transfer.paysOut] using pays
    exact .inl ⟨t, pool, total, net, left, time, rfl⟩
  | share e' recipient dst s amount time =>
    obtain rfl := List.mem_singleton.mp mem
    obtain rfl : e' = e := by simpa [Transfer.paysOut] using pays
    exact .inr ⟨recipient, s, amount, time, rfl⟩
  | resale ticket t price fee royalty buyer seller =>
    obtain ⟨kind, -⟩ | ⟨kind, -⟩ := mem_resaleTransfers mem <;> simp [Transfer.paysOut, kind] at pays
  | sale | refund | approve | sweep =>
    obtain rfl := List.mem_singleton.mp mem
    simp [Transfer.paysOut, paymentTransfer, refundTransfer] at pays
  | _ => cases mem

theorem Posts.payout_paysTo {c : Call} {ps : List Posting} (posts : Posts env w ps c)
    {t dst : Address} {pool : Option ℕ} {total net left : ℤ} {time : ℕ}
    (mem : .payout e t pool total net left dst time ∈ ps) : c.PaysTo w e dst := by
  have kind : Entry.payout ∈ c.entries := posts.entries mem
  cases c with
  | withdraw organizer e' =>
    obtain ⟨sweep, c, total', net', left', sweeps, stored, -, rfl⟩ := posts
    have last : .payout e t pool total net left dst time ∉ sweep :=
      fun mem => by cases sweeps.entries mem
    simp only [List.mem_append, last, List.mem_cons, List.not_mem_nil, Posting.payout.injEq,
      reduceCtorEq, false_or, or_false] at mem
    obtain ⟨rfl, -, -, -, -, -, rfl, -⟩ := mem
    exact ⟨rfl, c, stored, rfl⟩
  | withdrawRevenue e' recipient =>
    obtain ⟨sweep, t', total', net', sweeps, -, -, rfl⟩ := posts
    have last : .payout e t pool total net left dst time ∉ sweep :=
      fun mem => by cases sweeps.entries mem
    have latch : .payout e t pool total net left dst time ∉ latchPostings e' (w.book.config e') :=
      fun mem => by cases latchPostings_entries mem
    simp only [List.mem_append, last, latch, List.mem_cons, Posting.payout.injEq, false_or,
      or_false] at mem
    exact ⟨mem.1.symm, mem.2.2.2.2.2.2.1.symm⟩
  | withdrawToken organizer e' t' =>
    obtain ⟨sweep, total', sweeps, rfl⟩ := posts
    have last : .payout e t pool total net left dst time ∉ sweep :=
      fun mem => by cases sweeps.entries mem
    simp only [List.mem_append, last, List.mem_cons, List.not_mem_nil, Posting.payout.injEq,
      false_or, or_false] at mem
    exact ⟨mem.1.symm, mem.2.2.2.2.2.2.1.symm⟩
  | withdrawAllTokens organizer e' =>
    obtain ⟨sweep, drains, sweeps, isDrain, rfl⟩ := posts
    obtain mem | mem := List.mem_append.mp mem
    · cases sweeps.entries mem
    · obtain ⟨t', total', same⟩ := isDrain _ mem
      cases same
      exact ⟨rfl, rfl⟩
  | releaseIfExpired e' =>
    obtain ⟨sweep, drains, escrow, sweeps, stored, -, isDrain, rfl⟩ := posts
    rw [List.mem_append, List.mem_append, List.mem_singleton] at mem
    obtain (mem | mem) | mem := mem
    · cases sweeps.entries mem
    · obtain ⟨t', total', same⟩ := isDrain _ mem
      cases same
      exact ⟨rfl, escrow, stored, rfl⟩
    · cases mem
  | _ => simp [Call.entries] at kind

theorem Posts.share_paysTo {c : Call} {ps : List Posting} (posts : Posts env w ps c)
    {recipient dst : Address} {s : SplitSettlement} {amount : ℤ} {time : ℕ}
    (mem : .share e recipient dst s amount time ∈ ps) : c.PaysTo w e dst := by
  have kind : Entry.share ∈ c.entries := posts.entries mem
  have outside {settling : List Posting} {e' : Symbol} (settles : Settles w.book e' settling) :
      .share e recipient dst s amount time ∉ settling :=
    fun mem => by obtain kind | kind := settles.entries mem <;> cases kind
  cases c with
  | withdrawSplit recipient' e' =>
    obtain ⟨-, settling, s', share, settles, rfl⟩ := posts
    simp only [List.mem_append, outside settles, List.mem_cons, List.not_mem_nil,
      Posting.share.injEq, false_or, or_false] at mem
    exact ⟨mem.1.symm, mem.2.2.1.symm⟩
  | resolveFlaggedShare e' recipient' resolution =>
    cases resolution with
    | releaseToRecipient =>
      obtain rfl := posts
      simp at mem
    | reassignToPrimary =>
      obtain ⟨-, settling, s', dst', share, first, settles, rfl⟩ := posts
      simp only [List.mem_append, outside settles, List.mem_cons, List.not_mem_nil,
        Posting.share.injEq, false_or, or_false] at mem
      obtain ⟨rfl, -, rfl, -⟩ := mem
      exact ⟨rfl, first⟩
  | _ => simp [Call.entries] at kind

/-- Only a call that succeeds pays out revenue, and it is one of the seven payouts. -/
theorem sent_paysTo {d : Deployment} {step : Step} (kept : w.book.Kept)
    (mem : tr ∈ w.sent d step) (pays : tr.paysOut e = true) :
    ∃ invocation c w', step = .call invocation c ∧ c.exec ⟨d, invocation⟩ w = .ok w' ∧
      c.PaysTo w e tr.dst := by
  obtain ⟨ps, wrote, -, -, entries⟩ := next_sent kept step
  obtain ⟨posting, written, b, entry⟩ := entries tr mem
  have revenue := added_paysOut entry pays
  cases step with
  | call invocation c =>
    obtain ⟨w', result, posts⟩ | ⟨-, rfl⟩ := wrote
    · refine ⟨invocation, c, w', rfl, result, ?_⟩
      obtain ⟨t, pool, total, net, left, time, rfl⟩ | ⟨recipient, s, amount, time, rfl⟩ := revenue
      · exact posts.payout_paysTo written
      · exact posts.share_paysTo written
    · cases written
  | mint | pay =>
    obtain rfl := wrote
    obtain rfl := List.mem_singleton.mp written
    cases entry

end PaysTo

section Timely

variable {env : Env} {w w' : World} {e : Symbol} {config : EventConfig}

theorem Timely.unpostponed (timely : Timely env w e config) :
    w.getEventStatus e ≠ some .postponed := by
  obtain ⟨status, -⟩ | ⟨status, -⟩ := timely <;> simp [status]

theorem withdrawableRatio_timely {ratio : ℕ} (h : withdrawableRatio env w e config = .ok ratio) :
    Timely env w e config := by
  unfold withdrawableRatio at h
  split at h
  · rename_i completed
    simp only [bind_eq_ok, pure_eq_ok, require_eq_ok, u32_eq_ok] at h
    obtain ⟨_, ⟨-, rfl⟩, _, ⟨-, rfl⟩, -, past, -⟩ := h
    exact .inl ⟨completed, past⟩
  · rename_i cancelled
    simp only [bind_eq_ok, pure_eq_ok, require_eq_ok, okOr_eq_ok, u32_eq_ok] at h
    obtain ⟨cancelLedger, stored, _, ⟨-, rfl⟩, -, past, -⟩ := h
    exact .inr ⟨cancelled, cancelLedger, stored, past⟩
  · simp at h

theorem withdraw_timely {organizer : Address} (h : withdraw env organizer e w = .ok w') :
    ∃ config, w.getEventConfig e = some config ∧ config.organizer = organizer ∧
      Timely env w e config := by
  simp only [withdraw, bind_eq_ok, require_eq_ok, okOr_eq_ok, World.getEventOrganizer] at h
  obtain ⟨-, -, -, -, -, -, _, hOrganizer, -, rfl, config, stored, -, -, ratio, hratio, -⟩ := h
  rw [stored] at hOrganizer
  cases hOrganizer
  exact ⟨config, stored, rfl, withdrawableRatio_timely hratio⟩

/-- The first settlement of a split event is under the withdrawal rule, later payouts are not. -/
theorem ensureSplitSettled_timely {s : SplitSettlement} (unsettled : w.getSplitSettlement e = none)
    (h : ensureSplitSettled env e w = .ok (s, w')) :
    ∃ config, w.getEventConfig e = some config ∧ Timely env w e config := by
  rw [ensureSplitSettled, unsettled] at h
  simp only [bind_eq_ok, okOr_eq_ok] at h
  obtain ⟨config, stored, ratio, hratio, -⟩ := h
  exact ⟨config, stored, withdrawableRatio_timely hratio⟩

end Timely

end Zicket.Payments
