import Zicket.Privacy.Footprint
import Zicket.Refinement.Transfers

/-! Who gets an event's revenue without the admin, and when. Of the payouts only `withdraw` and
the first settlement of a split event apply the withdrawal rule. -/

namespace Zicket.Payments

open Host Foundation Book

def AdminSigns (env : Env) (w : World) : Prop :=
  ∃ admin ∈ (w.get .admin : Option Address), env.authorized admin = true

/-- Revenue of a configured event that is paid out without the admin goes to the stored organizer
or to a split recipient, under the withdrawal rule. -/
def PaidDuly (d : Deployment) (w : World) : Step → Prop
  | .call invocation c => ¬ AdminSigns ⟨d, invocation⟩ w → ∀ e, ∀ config ∈ w.getEventConfig e,
    ∀ tr ∈ w.sent d (.call invocation c), tr.paysOut e = true →
      (tr.dst = config.organizer ∨ tr.dst ∈ (w.getSplits e).map (·.recipient)) ∧
      Timely ⟨d, invocation⟩ w e config
  -- nothing else is sent by the contract
  | step => w.sent d step = []

/-- What the timed-out disputes of the event give back to its revenue in `t`. -/
def World.timedOut (env : Env) (w : World) (e : Symbol) (t : Address) : ℤ :=
  tally (fun k =>
    match w.getDispute k with
    | none => 0
    | some dispute =>
      match w.get (.payment dispute.paymentId) with
      | none => 0
      | some payment =>
        if disputeExpired env dispute = true ∧ payment.token = t then payment.amount else 0)
    (w.getEventDisputes e)

def World.Releasable (env : Env) (w : World) (e : Symbol) : Prop :=
  ∃ t ∈ w.getEventTokens e, 0 < w.getEventTokenRevenue e t + w.timedOut env e t

/-- The payouts that do not apply the rule themselves are called as the rule has it: by the
organizer, with the organizer in the escrow record, at a time the rule allows. -/
def DrawsDuly (env : Env) (w : World) : Call → Prop
  | .withdrawToken organizer e _ | .withdrawAllTokens organizer e => ¬ AdminSigns env w →
    ∀ config ∈ w.getEventConfig e, organizer = config.organizer ∧ Timely env w e config
  | .releaseIfExpired e => ¬ AdminSigns env w → w.Releasable env e →
    ∀ config ∈ w.getEventConfig e, ∀ escrow ∈ (w.get (.escrowMeta e) : Option EscrowMetadata),
      escrow.organizer = config.organizer ∧ Timely env w e config
  | .withdrawSplit _ e => ¬ AdminSigns env w → (w.getSplitSettlement e).isSome →
    ∀ config ∈ w.getEventConfig e, Timely env w e config
  | _ => True

variable {d : Deployment} {env : Env} {w w' : World} {c : Call} {e : Symbol} {t : Address}
  {tr : Transfer}

section Sweep

theorem Sweeps.revenue {ps : List Posting} (sweeps : Sweeps e ps) (self : Address) (b : Book)
    (t : Address) :
    (run (post self) b ps).revenue e t = b.revenue e t + tally (fun posting =>
      match posting with
      | .unfreeze p => if p.token = t then p.amount else 0
      | _ => 0) ps := by
  induction ps generalizing b with
  | nil => exact (add_zero _).symm
  | cons posting ps ih =>
    obtain ⟨p, rfl, rfl⟩ := sweeps posting (List.mem_cons_self ..)
    have rest := ih (fun posting mem => sweeps posting (List.mem_cons_of_mem _ mem))
      (b.post self (.unfreeze p))
    rw [run_cons, rest, tally_cons, ← add_assoc]
    congr 1
    change put b.revenue p.eventId p.token (b.revenue p.eventId p.token + p.amount) p.eventId t = _
    rw [put_apply]
    by_cases same : t = p.token
    · simp [same]
    · simp [same, Ne.symm same]

theorem tally_filterMap {α β : Type} (f : β → ℤ) (g : α → Option β) (l : List α) :
    tally f (l.filterMap g) = tally (fun a => (g a).elim 0 f) l := by
  induction l with
  | nil => rfl
  | cons a l ih => cases found : g a <;> simp [found, ih]

theorem processTimedOutDisputes_revenue (kept : w.book.Kept)
    (h : processTimedOutDisputes env e w = .ok w') (t : Address) :
    w'.getEventTokenRevenue e t = w.getEventTokenRevenue e t + w.timedOut env e t := by
  obtain ⟨sweeps, -, effect⟩ := processTimedOutDisputes_returns kept h
  have revenue := sweeps.revenue env.currentContract w.book t
  rw [effect] at revenue
  refine revenue.trans (congrArg (w.getEventTokenRevenue e t + ·) ?_)
  rw [returns, tally_filterMap]
  refine tally_congr fun k listed => ?_
  obtain ⟨dispute, hd, -⟩ := (kept.recorded.listed e k).mp listed
  obtain ⟨-, payment, p, hp, -⟩ := kept.recorded.disputed k dispute hd
  have hd' : w.getDispute k = some dispute := hd
  have hp' : w.get (.payment dispute.paymentId) = some p := by
    rw [payment]
    exact hp
  rw [hp, hd']
  simp only [hp', Option.map_some]
  cases expired : disputeExpired env dispute with
  | true =>
    rw [if_pos (any_expired hd expired)]
    simp
  | false =>
    rw [if_neg (any_waiting hd expired)]
    simp

theorem sweep_revenue (kept : w.book.Kept) (h : validateRevenueInvariant env e w = .ok w') :
    w'.getEventTokenRevenue e t = w.getEventTokenRevenue e t + w.timedOut env e t := by
  simp only [validateRevenueInvariant, bind_eq_ok, pure_eq_ok] at h
  obtain ⟨w₁, swept, -, -, rfl⟩ := h
  exact processTimedOutDisputes_revenue kept swept t

def DataKey.IsTokenList : DataKey → Bool
  | .eventTokenIndex _ _ | .eventTokenCount _ => true
  | _ => false

theorem World.Leaves.eventTokens (leaves : w.Leaves DataKey.IsTokenList w') :
    w'.getEventTokens e = w.getEventTokens e := by
  have count : w'.get (.eventTokenCount e) = w.get (.eventTokenCount e) := leaves _ rfl
  have index (i : ℕ) : w'.get (.eventTokenIndex e i) = w.get (.eventTokenIndex e i) := leaves _ rfl
  simp only [World.getEventTokens, World.getEventTokenCount, count, index]

theorem sweep_eventTokens (h : validateRevenueInvariant env e w = .ok w') :
    w'.getEventTokens e = w.getEventTokens e := by
  have free : ∀ k : DataKey, k.IsSwept = true → k.IsTokenList = false := by
    intro k swept
    cases k <;> first | rfl | cases swept
  have leaves : w.Leaves DataKey.IsTokenList w' := validateRevenueInvariant_leaves w free w' h
  exact leaves.eventTokens

theorem sweep_transfers (kept : w.book.Kept) (h : validateRevenueInvariant env e w = .ok w') :
    w'.transfers = w.transfers := by
  obtain ⟨ps, sweeps, -, effect⟩ := validateRevenueInvariant_swept kept h
  have wallet : (run (post env.currentContract) w.book ps).toWallet = w.book.toWallet :=
    (sweeps.frame w.book).2.2.1
  rw [effect] at wallet
  exact congrArg Wallet.transfers wallet

end Sweep

section Loops

variable {organizer : Address}

theorem drainToken_transfers (h : drainToken env w e t organizer = .ok w') :
    ∃ tr, w'.transfers = tr :: w.transfers ∧ tr.paysOut e = true ∧ tr.dst = organizer := by
  have log : w'.transfers = w'.book.transfers := rfl
  rw [drainToken_book h, post_transfers] at log
  exact ⟨_, log, by simp [Transfer.paysOut], rfl⟩

/-- The release pays the organizer, and pays nothing only if no token has revenue. -/
theorem releaseTokens_transfers (tokens : List Address) :
    ∀ {total total' : ℤ} {w w' : World},
      releaseTokens env e organizer tokens total w = .ok (total', w') →
      ∃ new, w'.transfers = new ++ w.transfers ∧
        (∀ tr ∈ new, tr.paysOut e = true ∧ tr.dst = organizer) ∧
        (new = [] ↔ ∀ t ∈ tokens, w.getEventTokenRevenue e t ≤ 0) := by
  induction tokens with
  | nil =>
    intro total total' w w' h
    cases h
    exact ⟨[], rfl, by simp, by simp⟩
  | cons t rest ih =>
    intro total total' w w' h
    rw [releaseTokens] at h
    split at h <;> rename_i available
    · simp only [bind_eq_ok] at h
      obtain ⟨w₁, h₁, _, -, h₂⟩ := h
      obtain ⟨tr, log, pays⟩ := drainToken_transfers h₁
      obtain ⟨new, log', all, -⟩ := ih h₂
      refine ⟨new ++ [tr], ?_, ?_, ?_⟩
      · rw [log', log, List.append_assoc, List.singleton_append]
      · intro tr' mem
        obtain mem | mem := List.mem_append.mp mem
        · exact all tr' mem
        · exact List.mem_singleton.mp mem ▸ pays
      · exact iff_of_false (by simp) fun none => absurd (none t (List.mem_cons_self ..)) (by omega)
    · obtain ⟨new, log, all, nothing⟩ := ih h
      refine ⟨new, log, all, nothing.trans ?_⟩
      rw [List.forall_mem_cons]
      exact (and_iff_right (by omega)).symm

theorem drainTokens_transfers (tokens : List Address) :
    ∀ {found found' : Bool} {w w' : World},
      drainTokens env e organizer tokens found w = .ok (found', w') →
      ∃ new, w'.transfers = new ++ w.transfers ∧
        (∀ tr ∈ new, tr.paysOut e = true ∧ tr.dst = organizer) ∧
        (found = false → found' = true → new ≠ []) := by
  induction tokens with
  | nil =>
    intro found found' w w' h
    cases h
    exact ⟨[], rfl, by simp, fun before after => by rw [before] at after; cases after⟩
  | cons t rest ih =>
    intro found found' w w' h
    rw [drainTokens] at h
    split at h
    · simp only [bind_eq_ok] at h
      obtain ⟨w₁, h₁, h₂⟩ := h
      obtain ⟨tr, log, pays⟩ := drainToken_transfers h₁
      obtain ⟨new, log', all, -⟩ := ih h₂
      have emitted : (emitWithdrawn env w₁ e organizer (w.getEventTokenRevenue e t) t).transfers =
          w₁.transfers := rfl
      refine ⟨new ++ [tr], ?_, ?_, fun _ _ => by simp⟩
      · rw [log', emitted, log, List.append_assoc, List.singleton_append]
      · intro tr' mem
        obtain mem | mem := List.mem_append.mp mem
        · exact all tr' mem
        · exact List.mem_singleton.mp mem ▸ pays
    · exact ih h

theorem releaseIfExpired_transfers (kept : w.book.Kept) (h : releaseIfExpired env e w = .ok w') :
    ∃ escrow, w.get (.escrowMeta e) = some escrow ∧
      ∃ new, w'.transfers = new ++ w.transfers ∧
        (∀ tr ∈ new, tr.paysOut e = true ∧ tr.dst = escrow.organizer) ∧
        (new = [] ↔ ¬ w.Releasable env e) := by
  simp only [releaseIfExpired, bind_eq_ok, pure_eq_ok, okOr_eq_ok, World.getEscrowMeta] at h
  obtain ⟨-, -, -, -, escrow, stored, -, -, -, -, -, -, -, -, w₁, h₁, ⟨total, w₂⟩, h₂, rfl⟩ := h
  obtain ⟨new, log, all, nothing⟩ := releaseTokens_transfers _ h₂
  refine ⟨escrow, stored, new, ?_, all, nothing.trans ?_⟩
  · rw [← sweep_transfers kept h₁, ← log]
    rfl
  · simp only [World.Releasable, not_exists, not_and, not_lt, sweep_eventTokens h₁,
      sweep_revenue kept h₁]

theorem withdrawToken_transfers (kept : w.book.Kept)
    (h : withdrawToken env organizer e t w = .ok w') :
    ∃ tr, w'.transfers = [tr] ++ w.transfers ∧ tr.paysOut e = true ∧ tr.dst = organizer := by
  simp only [withdrawToken, bind_eq_ok, pure_eq_ok] at h
  obtain ⟨-, -, -, -, -, -, -, -, w₁, h₁, -, -, w₂, h₂, rfl⟩ := h
  obtain ⟨tr, log, pays⟩ := drainToken_transfers h₂
  refine ⟨tr, ?_, pays⟩
  rw [← sweep_transfers kept h₁]
  exact log

theorem withdrawAllTokens_transfers (kept : w.book.Kept)
    (h : withdrawAllTokens env organizer e w = .ok w') :
    ∃ new, w'.transfers = new ++ w.transfers ∧ new ≠ [] ∧
      ∀ tr ∈ new, tr.paysOut e = true ∧ tr.dst = organizer := by
  simp only [withdrawAllTokens, bind_eq_ok, pure_eq_ok, require_eq_ok] at h
  obtain ⟨-, -, -, -, -, -, -, -, w₁, h₁, ⟨found, w₂⟩, h₂, -, paid, h₃⟩ := h
  cases h₃
  obtain ⟨new, log, all, nonempty⟩ := drainTokens_transfers _ h₂
  exact ⟨new, by rw [log, sweep_transfers kept h₁], nonempty rfl paid, all⟩

end Loops

section Recipients

theorem withdrawToken_whole {organizer : Address} (h : withdrawToken env organizer e t w = .ok w') :
    w.book.splits e = none := by
  obtain ⟨-, -, h⟩ := bind_eq_ok.mp h
  obtain ⟨-, -, h⟩ := bind_eq_ok.mp h
  obtain ⟨_, whole, -⟩ := bind_eq_ok.mp h
  exact ensureNoSplits_eq_ok whole

theorem withdrawAllTokens_whole {organizer : Address}
    (h : withdrawAllTokens env organizer e w = .ok w') : w.book.splits e = none := by
  obtain ⟨-, -, h⟩ := bind_eq_ok.mp h
  obtain ⟨-, -, h⟩ := bind_eq_ok.mp h
  obtain ⟨_, whole, -⟩ := bind_eq_ok.mp h
  exact ensureNoSplits_eq_ok whole

theorem releaseIfExpired_whole (h : releaseIfExpired env e w = .ok w') :
    w.book.splits e = none := by
  obtain ⟨-, -, h⟩ := bind_eq_ok.mp h
  obtain ⟨_, whole, -⟩ := bind_eq_ok.mp h
  exact ensureNoSplits_eq_ok whole

theorem PaidDuly.whole {invocation : Invocation} (duly : PaidDuly d w (.call invocation c))
    (whole : w.book.splits e = none) (unsigned : ¬ AdminSigns ⟨d, invocation⟩ w)
    (mem : tr ∈ w.sent d (.call invocation c)) (pays : tr.paysOut e = true)
    {config : EventConfig} (stored : w.getEventConfig e = some config) :
    tr.dst = config.organizer ∧ Timely ⟨d, invocation⟩ w e config := by
  obtain ⟨dst, timely⟩ := duly unsigned e config stored tr mem pays
  have none : w.getSplits e = [] := by
    have empty : (w.book.splits e).getD [] = [] := by rw [whole]; rfl
    exact empty
  rw [none, List.map_nil] at dst
  exact ⟨dst.resolve_right List.not_mem_nil, timely⟩

theorem withdrawSplit_listed {recipient : Address} (h : withdrawSplit env recipient e w = .ok w') :
    recipient ∈ (w.getSplits e).map (·.recipient) := by
  simp only [withdrawSplit, bind_eq_ok, require_eq_ok] at h
  obtain ⟨-, -, -, -, -, -, -, listed, -⟩ := h
  rw [findSplitBps, Common.findRecipientBasisPoints, ne_eq, Option.map_eq_none_iff,
    List.find?_eq_none, splitPairs] at listed
  push Not at listed
  obtain ⟨pair, mem, same⟩ := listed
  obtain ⟨split, member, rfl⟩ := List.mem_map.mp mem
  exact List.mem_map.mpr ⟨split, member, by simpa using same⟩

theorem withdrawRevenue_signed {recipient : Address}
    (h : withdrawRevenue env e recipient w = .ok w') : AdminSigns env w := by
  simp only [withdrawRevenue, bind_eq_ok, requireAuth_eq_ok] at h
  obtain ⟨-, -, admin, stored, -, signed, -⟩ := h
  exact ⟨admin, okOr_eq_ok.mp stored, signed⟩

theorem resolveFlaggedShare_signed {recipient : Address} {resolution : FlagResolution}
    (h : resolveFlaggedShare env e recipient resolution w = .ok w') : AdminSigns env w := by
  simp only [resolveFlaggedShare, bind_eq_ok, requireAuth_eq_ok] at h
  obtain ⟨-, -, admin, stored, -, signed, -⟩ := h
  exact ⟨admin, okOr_eq_ok.mp stored, signed⟩

end Recipients

section Steps

variable {invocation : Invocation}

/-- Each payout without the admin's authorization is of one of five kinds. -/
theorem duly_of_draws (kept : w.book.Kept) (draws : DrawsDuly ⟨d, invocation⟩ w c) :
    PaidDuly d w (.call invocation c) := by
  intro unsigned e config stored tr mem pays
  obtain ⟨_, c, w', ⟨⟩, result, paysTo⟩ := sent_paysTo kept mem pays
  have next : w.next d (.call invocation c) = w' := by rw [World.next, result, commit_ok]
  cases c with
  | withdraw organizer e' =>
    obtain ⟨rfl, config', stored', dst⟩ := paysTo
    obtain ⟨config'', stored'', -, timely⟩ := withdraw_timely result
    rw [stored] at stored' stored''
    cases stored'
    cases stored''
    exact ⟨.inl dst.symm, timely⟩
  | withdrawRevenue e' recipient => exact absurd (withdrawRevenue_signed result) unsigned
  | withdrawToken organizer e' t | withdrawAllTokens organizer e' =>
    obtain ⟨rfl, dst⟩ := paysTo
    obtain ⟨organizes, timely⟩ := draws unsigned config stored
    exact ⟨.inl (dst.symm.trans organizes), timely⟩
  | releaseIfExpired e' =>
    obtain ⟨rfl, escrow, hescrow, dst⟩ := paysTo
    obtain ⟨_, -, new, log, -, nothing⟩ := releaseIfExpired_transfers kept result
    rw [sent_eq (next ▸ log)] at mem
    have releasable : w.Releasable ⟨d, invocation⟩ e' := by
      by_contra none
      rw [nothing.mpr none] at mem
      cases mem
    obtain ⟨organizes, timely⟩ := draws unsigned releasable config stored escrow hescrow
    exact ⟨.inl (dst.symm.trans organizes), timely⟩
  | withdrawSplit recipient e' =>
    obtain ⟨rfl, rfl⟩ := paysTo
    refine ⟨.inr (withdrawSplit_listed result), ?_⟩
    cases settled : w.getSplitSettlement e' with
    | some s => exact draws unsigned (by rw [settled]; rfl) config stored
    | none =>
      simp only [Call.exec, withdrawSplit, bind_eq_ok] at result
      obtain ⟨-, -, -, -, -, -, -, -, -, -, -, -, ⟨s, w₁⟩, settles, -⟩ := result
      obtain ⟨config', stored', timely⟩ := ensureSplitSettled_timely settled settles
      rw [stored] at stored'
      cases stored'
      exact timely
  | resolveFlaggedShare e' recipient resolution =>
    exact absurd (resolveFlaggedShare_signed result) unsigned
  | _ => cases paysTo

theorem draws_of_duly (kept : w.book.Kept) (result : c.exec ⟨d, invocation⟩ w = .ok w')
    (duly : PaidDuly d w (.call invocation c)) : DrawsDuly ⟨d, invocation⟩ w c := by
  have next : w.next d (.call invocation c) = w' := by rw [World.next, result, commit_ok]
  cases c with
  | withdrawToken organizer e t =>
    intro unsigned config stored
    obtain ⟨tr, log, pays, dst⟩ := withdrawToken_transfers kept result
    have mem : tr ∈ w.sent d (.call invocation (.withdrawToken organizer e t)) := by
      rw [sent_eq (next ▸ log)]
      exact List.mem_singleton_self tr
    obtain ⟨organizes, timely⟩ :=
      duly.whole (withdrawToken_whole result) unsigned mem pays stored
    exact ⟨dst.symm.trans organizes, timely⟩
  | withdrawAllTokens organizer e =>
    intro unsigned config stored
    obtain ⟨new, log, nonempty, all⟩ := withdrawAllTokens_transfers kept result
    obtain ⟨tr, mem⟩ := List.exists_mem_of_ne_nil new nonempty
    obtain ⟨pays, dst⟩ := all tr mem
    obtain ⟨organizes, timely⟩ := duly.whole (withdrawAllTokens_whole result) unsigned
      (by rwa [sent_eq (next ▸ log)]) pays stored
    exact ⟨dst.symm.trans organizes, timely⟩
  | releaseIfExpired e =>
    intro unsigned releasable config stored escrow hescrow
    obtain ⟨_, hescrow', new, log, all, nothing⟩ := releaseIfExpired_transfers kept result
    rw [hescrow] at hescrow'
    cases hescrow'
    have nonempty : new ≠ [] := fun empty => nothing.mp empty releasable
    obtain ⟨tr, mem⟩ := List.exists_mem_of_ne_nil new nonempty
    obtain ⟨pays, dst⟩ := all tr mem
    obtain ⟨organizes, timely⟩ := duly.whole (releaseIfExpired_whole result) unsigned
      (by rwa [sent_eq (next ▸ log)]) pays stored
    exact ⟨dst.symm.trans organizes, timely⟩
  | withdrawSplit recipient e =>
    intro unsigned _ config stored
    obtain ⟨ps, ⟨-, settling, s, share, -, rfl⟩, -, effect⟩ :=
      succeeds_written kept (succeeds_iff.mpr ⟨w', result⟩)
    have mem := mem_sent settling effect (List.mem_singleton_self _)
    exact (duly unsigned e config stored _ mem (by simp [Transfer.paysOut])).2
  | _ => trivial

theorem paidDuly_iff {step : Step} (kept : w.book.Kept) :
    PaidDuly d w step ↔ Succeeding d DrawsDuly w step := by
  cases step with
  | call invocation c =>
    cases result : c.exec ⟨d, invocation⟩ w with
    | ok w' =>
      have success : c.succeeds ⟨d, invocation⟩ w = true := succeeds_iff.mpr ⟨w', result⟩
      exact ⟨fun duly _ => draws_of_duly kept result duly,
        fun draws => duly_of_draws kept (draws success)⟩
    | error failure =>
      refine iff_of_true (fun _ e config _ tr mem => ?_) fun success => ?_
      · rw [sent_of_error result] at mem
        cases mem
      · obtain ⟨w', succeeded⟩ := succeeds_iff.mp success
        rw [result] at succeeded
        cases succeeded
  | mint token dst amount =>
    refine iff_of_true (sent_eq ?_) trivial
    rw [World.next]
    split <;> rfl
  | pay token src dst amount =>
    refine iff_of_true (sent_eq ?_) trivial
    obtain ⟨balances, -, effect⟩ := payOutside_sound d w token src dst amount
    rw [World.next, effect]
    rfl

end Steps

/-- Along a run, revenue that leaves without the admin goes to the organizer or a split recipient
under the withdrawal rule exactly when the payouts that do not apply the rule are called as the
rule has it. -/
theorem withdrawals_duly_iff (d : Deployment) (balances : Balances Address Address)
    (steps : List Step) :
    Along (World.next d) (PaidDuly d) (deployed balances) steps ↔
      Along (World.next d) (Succeeding d DrawsDuly) (deployed balances) steps :=
  along_congr (I := fun w => w.book.Kept) (fun w step kept => next_kept w step kept)
    (fun _ _ kept => paidDuly_iff kept) (deployed_kept balances)

def Sample.completed : List Step :=
  opening ++ [sale 2 1 bob concert 100, call 3 (.setEventStatus admin concert .completed)]

def Sample.theft : Step :=
  .call { invocation 4 with authorized := fun a => a = amy } (.withdrawToken amy concert token)

/-- She is paid, and before the event's end. -/
theorem withdrawal_unduly :
    ¬ Along (World.next Sample.deployment) (PaidDuly Sample.deployment)
      (deployed Sample.noBalances) (Sample.completed ++ [Sample.theft]) := by
  intro along
  obtain ⟨-, duly, -⟩ := along_append.mp along
  let w := run (World.next Sample.deployment) (deployed Sample.noBalances) Sample.completed
  have paid : ∃ config ∈ w.getEventConfig Sample.concert,
      ∃ tr ∈ w.sent Sample.deployment Sample.theft, tr.paysOut Sample.concert = true ∧
        ¬ (tr.dst = config.organizer ∨ tr.dst ∈ (w.getSplits Sample.concert).map (·.recipient)) := by
    decide
  obtain ⟨config, stored, tr, mem, pays, elsewhere⟩ := paid
  have unsigned : ¬ ∃ admin ∈ (w.get .admin : Option Address), admin = Sample.amy := by decide
  refine elsewhere (duly ?_ Sample.concert config stored tr mem pays).1
  rintro ⟨admin, stored, signs⟩
  exact unsigned ⟨admin, stored, by simpa using signs⟩

end Zicket.Payments
