import Zicket.Escrow.Revenue
import Zicket.Refinement.Transfers
import Zicket.Results.Splits

/-! Whether the revenue of a completed event can still be paid out. -/

namespace Zicket.Payments

open Host Foundation Book

variable {d : Deployment} {env : Env} {w w' : World} {c : Call} {e : Symbol} {t : Address}
  {self : Address} {b : Book} {posting : Posting} {ps : List Posting}

def Call.returns : Call → Bool
  | .refund .. | .claimRefund .. | .requestPostponementRefund .. | .raiseDispute ..
  | .approveRefund .. => true
  | _ => false

def Posting.Draws (e : Symbol) (t : Address) : Posting → Prop
  | .payout e' t' .. | .settle e' t' .. => e = e' ∧ t = t'
  | _ => False

/-- The event is completed and its revenue unlocked at the ledger; nothing holds it back. -/
structure World.Unlocked (w : World) (e : Symbol) (sequence : ℕ) : Prop where
  unpaused : w.isPaused = false
  completed : w.getEventStatus e = some .completed
  undisputed : w.getEventDisputes e = []
  unlocked : ∃ config ∈ w.getEventConfig e,
    let unlock := config.eventEndLedger + config.withdrawalDelayLedgers +
      config.adminDelayExtensionLedgers
    unlock < 2 ^ 32 ∧ unlock ≤ sequence

/-- The balances of the contract cover what the counters of the event expect. -/
def World.Balanced (w : World) (contract : Address) (e : Symbol) : Prop :=
  ∀ t ∈ w.getEventTokens e,
    let unrefunded := w.getTotalTokenVolume e t - w.getTotalTokenRefunds e t
    let expected := unrefunded - w.getTotalTokenWithdrawn e t
    InI128 unrefunded ∧ InI128 expected ∧ expected ≤ w.balances t contract

instance (w : World) (contract : Address) (e : Symbol) : Decidable (w.Balanced contract e) :=
  inferInstanceAs (Decidable (∀ t ∈ _, _ ∧ _ ∧ _))

/-- The event has no split, or one that is still to be settled in this token, with something left
for the recipients. -/
def World.Payee (w : World) (e : Symbol) (t : Address) : Prop :=
  w.hasSplits e = false ∨
    (w.getSplitSettlement e = none ∧ w.getEventPayoutToken e = .ok t ∧
      bpsOf (w.getEventTokenRevenue e t) w.getPlatformFeeBps < w.getEventTokenRevenue e t)

def Fits (counter amount : ℤ) : Prop := InI128 counter ∧ InI128 (counter + amount)

instance (counter amount : ℤ) : Decidable (Fits counter amount) :=
  inferInstanceAs (Decidable (_ ∧ _))

/-- A payout of the revenue of the event in the token overflows no counter. -/
structure World.Room (w : World) (e : Symbol) (t : Address) : Prop where
  revenue : ∃ rest, (w.setEventTokenRevenue e t 0).getEventRevenue e = .ok rest ∧
    InI128 (rest + -w.getEventTokenRevenue e t)
  withdrawn : Fits (w.getTotalWithdrawn e) (w.getEventTokenRevenue e t)
  tokenWithdrawn : Fits (w.getTotalTokenWithdrawn e t) (w.getEventTokenRevenue e t)
  records : w.getWithdrawalCount e + 1 < 2 ^ 32
  split : w.hasSplits e = true → InI128 (w.getEventTokenRevenue e t * 10000) ∧
    Fits (w.getPlatformRevenue e) (w.getEventTokenRevenue e t)

/-- Some call, suitably authorized, pays the revenue of the event in the token out. -/
def World.Payable (w : World) (d : Deployment) (sequence timestamp : ℕ) (e : Symbol)
    (t : Address) : Prop :=
  ∃ (invocation : Invocation) (c : Call), invocation.sequence = sequence ∧
    invocation.timestamp = timestamp ∧ c.returns = false ∧
    c.succeeds ⟨d, invocation⟩ w = true ∧
    (w.next d (.call invocation c)).getEventTokenRevenue e t = 0 ∧
    ∃ tr ∈ w.sent d (.call invocation c), tr.eventId = e ∧ tr.token = t ∧
      tr.src = d.currentContract ∧ 0 < tr.amount

section Drawing

/-- Refunds and disputes aside, revenue is lost only where a posting draws on it. -/
theorem post_revenue_le (kept : b.Kept) (sound : Sound self b posting)
    (paid : posting.entry ∉ [.refund, .freeze]) (undrawn : ¬ posting.Draws e t) :
    b.revenue e t ≤ (b.post self posting).revenue e t := by
  rw [post_revenue]
  refine le_add_of_nonneg_right ?_
  cases posting with
  | sale p => exact inToken_nonneg sound.positive.le e t
  | unfreeze p => exact inToken_nonneg (kept.recorded.inRange _ p sound.stored).positive.le e t
  | refund | freeze => simp [Posting.entry] at paid
  | payout | settle => exact (if_neg undrawn).ge
  | resale ticket t' price fee royalty =>
    obtain ⟨config, -, -, share⟩ := sound.config
    have royalties : 0 ≤ royalty := share ▸ bpsOf_nonneg sound.positive.le _
    change 0 ≤ if e = ticket.eventId ∧ t = t' then royalty else 0
    split
    · exact royalties
    · exact le_rfl
  | _ => exact le_rfl

theorem run_revenue_le (kept : b.Kept) (sound : Along (post self) (Sound self) b ps)
    (paid : ∀ posting ∈ ps, posting.entry ∉ [.refund, .freeze])
    (undrawn : ∀ posting ∈ ps, ¬ posting.Draws e t) :
    b.revenue e t ≤ (run (post self) b ps).revenue e t := by
  induction ps generalizing b with
  | nil => exact le_rfl
  | cons posting ps ih =>
    have first : b.revenue e t ≤ (b.post self posting).revenue e t :=
      post_revenue_le kept sound.1 (paid _ List.mem_cons_self) (undrawn _ List.mem_cons_self)
    have rest := ih (post_kept kept sound.1) sound.2
      (fun posting mem => paid posting (List.mem_cons_of_mem _ mem))
      (fun posting mem => undrawn posting (List.mem_cons_of_mem _ mem))
    exact first.trans rest

theorem exec_draws (kept : w.book.Kept) (h : c.exec env w = .ok w') (keeps : c.returns = false)
    (taken : w'.getEventTokenRevenue e t < w.getEventTokenRevenue e t) :
    ∃ ps, Posts env w ps c ∧
      Along (post env.currentContract) (Sound env.currentContract) w.book ps ∧
      ∃ posting ∈ ps, posting.Draws e t := by
  obtain ⟨ps, posts, sound, effect⟩ := exec_written kept h
  refine ⟨ps, posts, sound, ?_⟩
  by_contra undrawn
  refine absurd taken (not_lt.mpr ?_)
  have paid (posting : Posting) (mem : posting ∈ ps) : posting.entry ∉ [.refund, .freeze] := by
    have kind := posts.entries mem
    intro returned
    obtain same | same : posting.entry = .refund ∨ posting.entry = .freeze := by
      simpa using returned
    all_goals
      rw [same] at kind
      cases c <;> simp [Call.entries, Call.returns] at kind keeps
  have rises : w.book.revenue e t ≤ w'.book.revenue e t := by
    rw [← effect]
    exact run_revenue_le kept sound paid fun posting mem draws => undrawn ⟨posting, mem, draws⟩
  exact rises

theorem Sweeps.undrawn (sweeps : Sweeps e ps) {e' : Symbol} (mem : posting ∈ ps) :
    ¬ posting.Draws e' t := by
  obtain ⟨p, rfl, -⟩ := sweeps posting mem
  exact id

theorem Sweeps.eq_nil (sweeps : Sweeps e ps) (kept : b.Kept) (undisputed : b.disputes e = [])
    (sound : Along (post self) (Sound self) b ps) : ps = [] := by
  cases ps with
  | nil => rfl
  | cons posting ps =>
    obtain ⟨p, rfl, here⟩ := sweeps posting List.mem_cons_self
    have listed := kept.recorded.mem_disputes sound.1.stored sound.1.disputed
    rw [here, undisputed] at listed
    cases listed

theorem ensureSplitSettled_validated {s : SplitSettlement}
    (h : ensureSplitSettled env e w = .ok (s, w')) (unsettled : w.getSplitSettlement e = none) :
    ∃ w₁, validateRevenueInvariant env e w = .ok w₁ := by
  unfold ensureSplitSettled at h
  rw [unsettled] at h
  simp only [bind_eq_ok] at h
  obtain ⟨-, -, -, -, w₁, validated, -⟩ := h
  exact ⟨w₁, validated⟩

theorem payout_validated {dst : Address} (h : c.exec env w = .ok w') (pays : c.PaysTo w e dst)
    (kind : .payout ∈ c.entries) :
    w.hasSplits e = false ∧ ∃ w₁, validateRevenueInvariant env e w = .ok w₁ := by
  cases c with
  | withdraw organizer e' =>
    obtain ⟨rfl, -⟩ := pays
    simp only [Call.exec, withdraw, bind_eq_ok, ensureNoSplits, require_eq_ok] at h
    obtain ⟨-, -, -, -, -, whole, -, -, -, -, -, -, -, -, -, -, w₁, validated, -⟩ := h
    exact ⟨whole, w₁, validated⟩
  | withdrawRevenue e' recipient =>
    obtain ⟨rfl, -⟩ := pays
    simp only [Call.exec, withdrawRevenue, bind_eq_ok, ensureNoSplits, require_eq_ok] at h
    obtain ⟨-, -, -, -, -, -, -, whole, -, -, -, -, w₁, validated, -⟩ := h
    exact ⟨whole, w₁, validated⟩
  | withdrawToken organizer e' t' =>
    obtain ⟨rfl, -⟩ := pays
    simp only [Call.exec, withdrawToken, bind_eq_ok, ensureNoSplits, require_eq_ok] at h
    obtain ⟨-, -, -, -, -, whole, -, -, w₁, validated, -⟩ := h
    exact ⟨whole, w₁, validated⟩
  | withdrawAllTokens organizer e' =>
    obtain ⟨rfl, -⟩ := pays
    simp only [Call.exec, withdrawAllTokens, bind_eq_ok, ensureNoSplits, require_eq_ok] at h
    obtain ⟨-, -, -, -, -, whole, -, -, w₁, validated, -⟩ := h
    exact ⟨whole, w₁, validated⟩
  | releaseIfExpired e' =>
    obtain ⟨rfl, -⟩ := pays
    simp only [Call.exec, releaseIfExpired, bind_eq_ok, ensureNoSplits, require_eq_ok] at h
    obtain ⟨-, -, -, whole, -, -, -, -, -, -, -, -, -, -, w₁, validated, -⟩ := h
    exact ⟨whole, w₁, validated⟩
  | _ => simp [Call.entries] at kind

theorem mem_settles {last : Posting} {settling : List Posting} {e' : Symbol}
    (settles : Settles b e' settling) (mem : posting ∈ settling ++ [last])
    (kind : posting.entry = .settle) (other : last.entry = .share) (draws : posting.Draws e t) :
    e' = e ∧ b.settlement e = none ∧ ∃ sweep total net left, Sweeps e sweep ∧
      settling = sweep ++ [.settle e t (b.pool e) total net left] := by
  have inside : posting ∈ settling := by
    obtain mem | mem := List.mem_append.mp mem
    · exact mem
    · rw [List.mem_singleton.mp mem, other] at kind
      cases kind
  obtain ⟨-, rfl⟩ | ⟨unsettled, sweep, config, total, net, left, sweeps, -, rfl⟩ := settles
  · cases inside
  · obtain swept | mem := List.mem_append.mp inside
    · exact absurd draws (sweeps.undrawn swept)
    · obtain rfl := List.mem_singleton.mp mem
      obtain ⟨rfl, rfl⟩ := draws
      exact ⟨rfl, unsettled, sweep, total, net, left, sweeps, rfl⟩

theorem settle_validated (h : c.exec env w = .ok w') (posts : Posts env w ps c)
    (mem : posting ∈ ps) (kind : posting.entry = .settle) (draws : posting.Draws e t) :
    (∃ w₁, validateRevenueInvariant env e w = .ok w₁) ∧ w.getSplitSettlement e = none ∧
      ∃ sweep total net left last, Sweeps e sweep ∧
        ps = sweep ++ .settle e t (w.book.pool e) total net left :: last := by
  have listed := posts.entries mem
  rw [kind] at listed
  cases c with
  | withdrawSplit recipient e' =>
    obtain ⟨-, settling, s, share, settles, rfl⟩ := posts
    obtain ⟨rfl, unsettled, sweep, total, net, left, sweeps, rfl⟩ :=
      mem_settles settles mem kind rfl draws
    simp only [Call.exec, withdrawSplit, bind_eq_ok] at h
    obtain ⟨-, -, -, -, -, -, -, -, -, -, -, -, ⟨s', w₁⟩, settled, -⟩ := h
    exact ⟨ensureSplitSettled_validated settled unsettled, unsettled, sweep, total, net, left, _,
      sweeps, List.append_assoc ..⟩
  | resolveFlaggedShare e' recipient resolution =>
    cases resolution with
    | releaseToRecipient =>
      obtain rfl := posts
      rw [List.mem_singleton.mp mem] at kind
      cases kind
    | reassignToPrimary =>
      obtain ⟨-, settling, s, dst, share, -, settles, rfl⟩ := posts
      obtain ⟨rfl, unsettled, sweep, total, net, left, sweeps, rfl⟩ :=
        mem_settles settles mem kind rfl draws
      simp only [Call.exec, resolveFlaggedShare, reassignToPrimary, bind_eq_ok] at h
      obtain ⟨-, -, -, -, -, -, -, -, -, -, -, -, -, -, ⟨s', w₁⟩, settled, -⟩ := h
      exact ⟨ensureSplitSettled_validated settled unsettled, unsettled, sweep, total, net, left, _,
        sweeps, List.append_assoc ..⟩
  | _ => simp [Call.entries] at listed

theorem validateRevenueInvariant_ok (undisputed : w.getEventDisputes e = []) :
    validateRevenueInvariant env e w = .ok w' ↔ w.Balanced env.currentContract e ∧ w' = w := by
  have unswept : processTimedOutDisputes env e w = .ok w := by
    simp [processTimedOutDisputes, undisputed, sweepDisputes, bind, Except.bind, pure, Except.pure]
  simp only [validateRevenueInvariant, unswept, bind_eq_ok, pure_eq_ok, forM_eq_ok,
    checkTokenBalance, i128_eq_ok, require_eq_ok, Except.ok.injEq]
  constructor
  · rintro ⟨_, rfl, _, checks, rfl⟩
    refine ⟨fun t mem => ?_, rfl⟩
    obtain ⟨_, ⟨unrefunded, rfl⟩, _, ⟨expected, rfl⟩, covered⟩ := checks t mem
    exact ⟨unrefunded, expected, covered⟩
  · rintro ⟨balanced, rfl⟩
    refine ⟨_, rfl, (), fun t mem => ?_, rfl⟩
    obtain ⟨unrefunded, expected, covered⟩ := balanced t mem
    exact ⟨_, ⟨unrefunded, rfl⟩, _, ⟨expected, rfl⟩, covered⟩

theorem World.Unlocked.pool {sequence : ℕ} (unlocked : w.Unlocked e sequence) :
    w.book.pool e = none := by
  refine if_neg fun cancelled => ?_
  have status : some EventStatus.completed = some .cancelled :=
    unlocked.completed.symm.trans cancelled
  cases status

/-- Refunds and disputes aside, what takes revenue of an undisputed completed event finds its
balances covered, and somebody to pay. -/
theorem taken_cases {sequence : ℕ} (kept : w.book.Kept) (unlocked : w.Unlocked e sequence)
    (h : c.exec env w = .ok w') (keeps : c.returns = false)
    (taken : w'.getEventTokenRevenue e t < w.getEventTokenRevenue e t) :
    w.Balanced env.currentContract e ∧ w.Payee e t := by
  obtain ⟨ps, posts, sound, posting, mem, draws⟩ := exec_draws kept h keeps taken
  have balanced {w₁ : World} (validated : validateRevenueInvariant env e w = .ok w₁) :
      w.Balanced env.currentContract e :=
    ((validateRevenueInvariant_ok unlocked.undisputed).mp validated).1
  cases posting with
  | payout e' t' pool total net left dst time =>
    obtain ⟨rfl, rfl⟩ := draws
    have pays := posts.payout_paysTo mem
    obtain ⟨whole, w₁, validated⟩ := payout_validated h pays (posts.entries mem)
    exact ⟨balanced validated, .inl whole⟩
  | settle e' t' pool total net left =>
    obtain ⟨⟨w₁, validated⟩, unsettled, sweep, total, net, left, last, sweeps, rfl⟩ :=
      settle_validated h posts mem rfl draws
    obtain ⟨swept, settle, -⟩ := along_append.mp sound
    obtain rfl := sweeps.eq_nil kept unlocked.undisputed swept
    have settle : w.book.SettleSound e t (w.book.pool e) total net left := settle
    have takes := settle.takes
    rw [unlocked.pool] at takes
    obtain ⟨revenue, -⟩ := takes
    obtain ⟨config, stored, -⟩ := unlocked.unlocked
    have token : some config.payoutToken = some t :=
      (kept.configured.accepted e config stored).symm.trans settle.accepted
    refine ⟨balanced validated, .inr ⟨unsettled, okOr_eq_ok.mpr ?_, ?_⟩⟩
    · rw [← token]
      exact congrArg (Option.map (·.payoutToken)) stored
    · have distributable := settle.distributable
      rw [settle.net, revenue] at distributable
      exact sub_pos.mp distributable
  | _ => exact draws.elim

theorem payable_cases {sequence timestamp : ℕ} (kept : w.book.Kept)
    (unlocked : w.Unlocked e sequence) (positive : 0 < w.getEventTokenRevenue e t)
    (payable : w.Payable d sequence timestamp e t) :
    w.Balanced d.currentContract e ∧ w.Payee e t := by
  obtain ⟨invocation, c, -, -, keeps, success, emptied, -⟩ := payable
  obtain ⟨w', result⟩ := succeeds_iff.mp success
  rw [World.next, result, commit_ok] at emptied
  exact taken_cases kept unlocked result keeps (emptied ▸ positive)

end Drawing

section Paying

variable {recipient : Address} {x : ℤ}

theorem Fits.le {counter amount : ℤ} (fits : Fits counter amount) (nonneg : 0 ≤ x)
    (le : x ≤ amount) : InI128 (counter + x) := by
  obtain ⟨⟨low, -⟩, -, high⟩ := fits
  exact ⟨by omega, by omega⟩

theorem drainToken_ok (recipient : Address) (room : w.Room e t)
    (positive : 0 < w.getEventTokenRevenue e t)
    (covered : w.getEventTokenRevenue e t ≤ w.balances t env.currentContract) :
    ∃ w', drainToken env w e t recipient = .ok w' := by
  obtain ⟨rest, summed, inside⟩ := room.revenue
  let tr : Transfer :=
    { token := t, src := env.currentContract, dst := recipient,
      amount := w.getEventTokenRevenue e t, eventId := e, purpose := .revenue }
  obtain ⟨balances, sent⟩ := transfer_ok tr positive.le covered
  let paid : World := { w with balances, transfers := tr :: w.transfers }
  have shifted := shiftEventRevenue_ok (w := paid.setEventTokenRevenue e t 0) summed inside
  have withdrawn : InI128 (((paid.setEventTokenRevenue e t 0).setEventRevenue e
      (rest + -w.getEventTokenRevenue e t)).getTotalWithdrawn e + w.getEventTokenRevenue e t) :=
    room.withdrawn.2
  obtain ⟨w', booked⟩ := bookWithdrawal_ok env recipient withdrawn room.tokenWithdrawn.2 room.records
  refine ⟨w', ?_⟩
  simp only [drainToken, bind_eq_ok]
  exact ⟨_, sent, _, shifted, booked⟩

theorem withdrawToken_ok {organizer : Address} (unlocked : w.Unlocked e env.sequence)
    (whole : w.hasSplits e = false) (balanced : w.Balanced env.currentContract e)
    (room : w.Room e t) (positive : 0 < w.getEventTokenRevenue e t)
    (covered : w.getEventTokenRevenue e t ≤ w.balances t env.currentContract)
    (signed : env.authorized organizer = true) :
    ∃ w', withdrawToken env organizer e t w = .ok w' := by
  obtain ⟨w', drained⟩ := drainToken_ok organizer room positive covered
  simp only [withdrawToken, requireNotPaused, ensureNoSplits, bind_eq_ok, pure_eq_ok,
    require_eq_ok, requireAuth_eq_ok]
  exact ⟨_, (), unlocked.unpaused, (), signed, (), whole, (), unlocked.completed, w,
    (validateRevenueInvariant_ok unlocked.undisputed).mpr ⟨balanced, rfl⟩, (), positive, w',
    drained, rfl⟩

theorem basisPointsOf_ok {rate : ℕ} (nonneg : 0 ≤ x) (le : rate ≤ 10000)
    (fits : InI128 (x * 10000)) : basisPointsOf x rate = .ok (bpsOf x rate) := by
  have product : x * rate ≤ x * 10000 := by gcongr; exact_mod_cast le
  have positive : 0 ≤ x * rate := mul_nonneg nonneg (Int.natCast_nonneg rate)
  have inside : InI128 (x * rate) := ⟨by omega, product.trans_lt fits.2⟩
  simp only [basisPointsOf, bind_eq_ok, i128_eq_ok, pure_eq_ok]
  exact ⟨_, ⟨inside, rfl⟩, rfl⟩

theorem withdrawableRatio_ok {config : EventConfig} (unlocked : w.Unlocked e env.sequence)
    (stored : w.getEventConfig e = some config) : withdrawableRatio env w e config = .ok 10000 := by
  obtain ⟨config', stored', fits, past⟩ := unlocked.unlocked
  rw [stored] at stored'
  cases stored'
  unfold withdrawableRatio
  rw [unlocked.completed]
  simp only [bind_eq_ok, u32_eq_ok, require_eq_ok, pure_eq_ok]
  exact ⟨_, ⟨by omega, rfl⟩, _, ⟨fits, rfl⟩, (), past, trivial⟩

theorem collectPlatformFee_ok {fee : ℤ} (env : Env) (net : ℤ) (t : Address)
    (room : InI128 (w.getPlatformRevenue e + fee)) :
    ∃ w', collectPlatformFee env w e fee net t = .ok w' ∧ w'.balances = w.balances ∧
      ∀ k, k ≠ .platformRevenue e → w'.get k = w.get k := by
  unfold collectPlatformFee World.addPlatformRevenue
  split
  · simp only [bind_eq_ok, pure_eq_ok, i128_eq_ok]
    refine ⟨_, ⟨_, ⟨_, ⟨room, rfl⟩, rfl⟩, rfl⟩, rfl, fun k other => ?_⟩
    exact Store.get_set_of_ne _ _ other
  · exact ⟨w, rfl, rfl, fun _ _ => rfl⟩

/-- A split is settled with the whole revenue less the fee; the counters of withdrawals stay. -/
theorem ensureSplitSettled_ok {r fee : ℤ} (kept : w.book.Kept)
    (unlocked : w.Unlocked e env.sequence) (split : w.hasSplits e = true)
    (unsettled : w.getSplitSettlement e = none) (token : w.getEventPayoutToken e = .ok t)
    (balanced : w.Balanced env.currentContract e) (room : w.Room e t)
    (revenue : w.getEventTokenRevenue e t = r) (charged : bpsOf r w.getPlatformFeeBps = fee)
    (positive : 0 < r) (left : fee < r) :
    ∃ w', ensureSplitSettled env e w = .ok (⟨t, r - fee⟩, w') ∧ w'.balances = w.balances ∧
      w'.getTotalWithdrawn e = w.getTotalWithdrawn e ∧
      w'.getTotalTokenWithdrawn e t = w.getTotalTokenWithdrawn e t ∧
      w'.getWithdrawalCount e = w.getWithdrawalCount e := by
  obtain ⟨config, stored, -⟩ := unlocked.unlocked
  obtain ⟨scaled, platform⟩ := room.split split
  obtain ⟨rest, summed, inside⟩ := room.revenue
  rw [revenue] at scaled platform inside
  have rate : w.getPlatformFeeBps ≤ 10000 := kept.configured.fee
  have nonneg : 0 ≤ fee := charged ▸ bpsOf_nonneg positive.le _
  let settled := (w.setEventTokenRevenue e t 0).setEventRevenue e (rest + -r)
  have shifted : (w.setEventTokenRevenue e t 0).shiftEventRevenue e (-r) = .ok settled :=
    shiftEventRevenue_ok summed inside
  have afford : InI128 (settled.getPlatformRevenue e + fee) := platform.le nonneg left.le
  obtain ⟨w', collected, balances, same⟩ := collectPlatformFee_ok env (r - fee) t afford
  have total : amountToWithdraw w e t 10000 = .ok r := by
    unfold amountToWithdraw
    rw [if_neg (by rw [unlocked.completed]; simp), revenue,
      basisPointsOf_ok positive.le le_rfl scaled, bpsOf_full]
  have takes : basisPointsOf r w.getPlatformFeeBps = .ok fee :=
    charged ▸ basisPointsOf_ok positive.le rate scaled
  have net : InI128 (r - fee) := by
    have bound := scaled.2
    exact ⟨by omega, by omega⟩
  refine ⟨w'.setSplitSettlement e ⟨t, r - fee⟩, ?_, balances, ?_, ?_, ?_⟩
  · unfold ensureSplitSettled
    rw [unsettled]
    simp only [bind_eq_ok, okOr_eq_ok, require_eq_ok, pure_eq_ok, i128_eq_ok]
    exact ⟨config, stored, 10000, withdrawableRatio_ok unlocked stored, w,
      (validateRevenueInvariant_ok unlocked.undisputed).mpr ⟨balanced, rfl⟩, (),
      unlocked.undisputed, t, token, (), .inr (revenue ▸ positive), r, total, (), positive, fee,
      takes, r - fee, ⟨net, rfl⟩, (), sub_pos.mpr left, 0, rfl, settled, shifted, w', collected,
      rfl⟩
  · exact congrArg (Option.getD · 0) (same (.totalWithdrawn e) (by simp))
  · exact congrArg (Option.getD · 0) (same (.totalTokenWithdrawn e t) (by simp))
  · exact congrArg (Option.getD · 0) (same (.withdrawalCount e) (by simp))

theorem primary_share {primary : RevenueSplit} {others : List RevenueSplit}
    (valid : ValidSplits (primary :: others)) (positive : 0 < x) :
    0 < splitShare (primary :: others) primary.recipient x ∧
      splitShare (primary :: others) primary.recipient x ≤ x := by
  have whole := valid.total
  rw [List.map_cons, List.sum_cons] at whole
  have own := valid.positive primary List.mem_cons_self
  have floors : ((others.map (·.basisPoints)).map (bpsOf x)).sum ≤
      bpsOf x (others.map (·.basisPoints)).sum := sum_bpsOf_le positive.le _
  have less : bpsOf x (others.map (·.basisPoints)).sum < x := bpsOf_lt positive (by omega)
  have nonneg : 0 ≤ (others.map fun split => bpsOf x split.basisPoints).sum :=
    tally_nonneg fun split _ => bpsOf_nonneg positive.le _
  rw [List.map_map] at floors
  rw [splitShare, if_pos rfl]
  exact ⟨sub_pos.mpr (floors.trans_lt less), sub_le_self _ nonneg⟩

theorem withdrawSplit_ok {r fee : ℤ} (kept : w.book.Kept)
    (shared : Shared env.currentContract w.book) (unlocked : w.Unlocked e env.sequence)
    (split : w.hasSplits e = true) (unsettled : w.getSplitSettlement e = none)
    (token : w.getEventPayoutToken e = .ok t) (balanced : w.Balanced env.currentContract e)
    (room : w.Room e t) (revenue : w.getEventTokenRevenue e t = r)
    (charged : bpsOf r w.getPlatformFeeBps = fee) (positive : 0 < r) (left : fee < r)
    (covered : r ≤ w.balances t env.currentContract) (signed : ∀ a, env.authorized a = true) :
    ∃ primary w', withdrawSplit env primary e w = .ok w' := by
  obtain ⟨splits, stored⟩ : ∃ splits, w.book.splits e = some splits :=
    Option.isSome_iff_exists.mp split
  have valid := shared.valid e splits stored
  obtain ⟨primary, others, rfl⟩ := List.exists_cons_of_ne_nil valid.nonempty
  have listed : w.getSplits e = primary :: others := congrArg (Option.getD · []) stored
  have first : w.book.primary e = some primary.recipient := by
    rw [Book.primary, stored]
    rfl
  have unflagged : w.isSplitFlagged e primary.recipient = false := by
    by_contra flagged
    have flagged : w.isSplitFlagged e primary.recipient = true := by simpa using flagged
    exact (shared.flagged e primary.recipient flagged).2.2 first
  have unpaid : w.getSplitWithdrawn e primary.recipient ≤ 0 := by
    by_contra paid
    have settled := (shared.listed e primary.recipient (not_le.mp paid)).1
    have none : w.book.settlement e = none := unsettled
    rw [none] at settled
    cases settled
  obtain ⟨w₁, settled, balances, withdrawn, tokenWithdrawn, records⟩ := ensureSplitSettled_ok kept
    unlocked split unsettled token balanced room revenue charged positive left
  have nonneg : 0 ≤ fee := charged ▸ bpsOf_nonneg positive.le _
  obtain ⟨scaled, -⟩ := room.split split
  have fits : (r - fee) * 10000 < 2 ^ 127 := by
    have bound := scaled.2
    rw [revenue] at bound
    omega
  let share := splitShare (primary :: others) primary.recipient (r - fee)
  obtain ⟨share_pos, share_le⟩ : 0 < share ∧ share ≤ r - fee :=
    primary_share valid (sub_pos.mpr left)
  have computed : recipientShare (primary :: others) primary.recipient (r - fee) = .ok share :=
    recipientShare_ok valid (by omega) fits _
  let tr : Transfer :=
    { token := t, src := env.currentContract, dst := primary.recipient, amount := share,
      eventId := e, purpose := .splitShare primary.recipient }
  obtain ⟨balances', sent⟩ := transfer_ok (w := w₁) tr share_pos.le
    (by rw [balances]; exact (share_le.trans (by omega)).trans covered)
  let paid : World := { w₁ with balances := balances', transfers := tr :: w₁.transfers }
  let marked := paid.setSplitWithdrawn e primary.recipient share
  have within : share ≤ w.getEventTokenRevenue e t := by
    rw [revenue]
    exact share_le.trans (sub_le_self r nonneg)
  have total : InI128 (marked.getTotalWithdrawn e + share) := by
    have same : marked.getTotalWithdrawn e = w.getTotalWithdrawn e := withdrawn
    rw [same]
    exact room.withdrawn.le share_pos.le within
  have ofToken : InI128 (marked.getTotalTokenWithdrawn e t + share) := by
    have same : marked.getTotalTokenWithdrawn e t = w.getTotalTokenWithdrawn e t := tokenWithdrawn
    rw [same]
    exact room.tokenWithdrawn.le share_pos.le within
  have counted : marked.getWithdrawalCount e + 1 < 2 ^ 32 := by
    have same : marked.getWithdrawalCount e = w.getWithdrawalCount e := records
    rw [same]
    exact room.records
  obtain ⟨w', booked⟩ := bookWithdrawal_ok env primary.recipient total ofToken counted
  refine ⟨primary.recipient, emitWithdrawn env w' e primary.recipient share t, ?_⟩
  simp only [withdrawSplit, requireNotPaused, bind_eq_ok, require_eq_ok, requireAuth_eq_ok,
    pure_eq_ok]
  rw [listed]
  exact ⟨(), unlocked.unpaused, (), signed _, (), by simp, (), by simp [findSplitBps_eq], (),
    unflagged, (), unpaid, (_, w₁), settled, share, computed, (), share_pos, paid, sent, w', booked,
    rfl⟩

theorem withdrawToken_pays {invocation : Invocation} {organizer : Address} (kept : w.book.Kept)
    (undisputed : w.getEventDisputes e = [])
    (success : (Call.withdrawToken organizer e t).succeeds ⟨d, invocation⟩ w = true) :
    (w.next d (.call invocation (.withdrawToken organizer e t))).getEventTokenRevenue e t = 0 ∧
      ∃ tr ∈ w.sent d (.call invocation (.withdrawToken organizer e t)), tr.eventId = e ∧
        tr.token = t ∧ tr.src = d.currentContract ∧ 0 < tr.amount := by
  obtain ⟨ps, ⟨sweep, total, sweeps, rfl⟩, sound, effect⟩ := succeeds_written kept success
  obtain ⟨swept, payout, -⟩ := along_append.mp sound
  obtain rfl := sweeps.eq_nil kept undisputed swept
  constructor
  · have emptied : (w.next d (.call invocation (.withdrawToken organizer e t))).book.revenue e t =
        0 := by
      rw [← effect]
      exact put_self ..
    exact emptied
  · exact ⟨_, mem_sent [] effect (List.mem_singleton.mpr rfl), rfl, rfl, rfl, payout.positive⟩

theorem withdrawSplit_pays {invocation : Invocation} {recipient : Address} {sequence : ℕ}
    (kept : w.book.Kept)
    (unlocked : w.Unlocked e sequence) (unsettled : w.getSplitSettlement e = none)
    (token : w.getEventPayoutToken e = .ok t)
    (success : (Call.withdrawSplit recipient e).succeeds ⟨d, invocation⟩ w = true) :
    (w.next d (.call invocation (.withdrawSplit recipient e))).getEventTokenRevenue e t = 0 ∧
      ∃ tr ∈ w.sent d (.call invocation (.withdrawSplit recipient e)), tr.eventId = e ∧
        tr.token = t ∧ tr.src = d.currentContract ∧ 0 < tr.amount := by
  obtain ⟨ps, ⟨-, settling, s, share, settles, rfl⟩, sound, effect⟩ := succeeds_written kept success
  obtain ⟨settled, -⟩ | ⟨-, sweep, config, total, net, left, sweeps, stored, rfl⟩ := settles
  · have none : w.book.settlement e = none := unsettled
    rw [none] at settled
    cases settled
  · obtain ⟨settling, paying, -⟩ := along_append.mp sound
    obtain ⟨swept, settle, -⟩ := along_append.mp settling
    obtain rfl := sweeps.eq_nil kept unlocked.undisputed swept
    have paid : config.payoutToken = t := by
      have found := okOr_eq_ok.mp token
      have stored : w.getEventConfig e = some config := stored
      rw [stored] at found
      exact Option.some.inj found
    subst paid
    have settle : w.book.SettleSound e config.payoutToken (w.book.pool e) total net left := settle
    have takes := settle.takes
    rw [unlocked.pool] at takes
    constructor
    · have emptied : (w.next d (.call invocation (.withdrawSplit recipient e))).book.revenue e
          config.payoutToken = 0 := by
        rw [← effect, ← takes.2]
        exact put_self ..
      exact emptied
    · have settled : some (SplitSettlement.mk config.payoutToken net) = some s := by
        rw [← paying.settled]
        exact (Function.update_self e (some (SplitSettlement.mk _ net)) w.book.settlement).symm
      cases settled
      exact ⟨_, mem_sent [_] effect (List.mem_singleton.mpr rfl), rfl, rfl, rfl, paying.positive⟩

end Paying

/-- In every reachable state: the unlocked revenue of a completed event without disputes, if it is
there and no counter overflows, can be paid out exactly when the balances cover what the counters of
the event expect, and the event has no split or one that is still to be settled in this token. -/
theorem revenue_payable_iff (d : Deployment) (balances : Balances Address Address)
    (steps : List Step) (sequence timestamp : ℕ) (e : Symbol) (t : Address) :
    let w := run (World.next d) (deployed balances) steps
    w.Unlocked e sequence → 0 < w.getEventTokenRevenue e t →
    w.getEventTokenRevenue e t ≤ w.balances t d.currentContract → w.Room e t →
    (w.Payable d sequence timestamp e t ↔ w.Balanced d.currentContract e ∧ w.Payee e t) := by
  intro w unlocked positive covered room
  have kept : w.book.Kept := reachable_kept d balances steps
  have shared : Shared d.currentContract w.book := reachable_shared d balances steps
  constructor
  · exact payable_cases kept unlocked positive
  · rintro ⟨balanced, payee⟩
    let invocation : Invocation :=
      { sequence, timestamp, authorized := fun _ => true,
        adminTransferTicket := fun _ _ _ _ _ => false }
    have signed (a : Address) : invocation.authorized a = true := rfl
    cases split : w.hasSplits e with
    | false =>
      obtain ⟨config, -, -⟩ := unlocked.unlocked
      have success : (Call.withdrawToken config.organizer e t).succeeds ⟨d, invocation⟩ w = true :=
        succeeds_iff.mpr (withdrawToken_ok unlocked split balanced room positive covered (signed _))
      exact ⟨invocation, _, rfl, rfl, rfl, success,
        withdrawToken_pays kept unlocked.undisputed success⟩
    | true =>
      obtain ⟨unsettled, token, left⟩ := payee.resolve_left (by simp [split])
      have settles : ∃ primary w', withdrawSplit ⟨d, invocation⟩ primary e w = .ok w' :=
        withdrawSplit_ok kept shared unlocked split unsettled token balanced room rfl rfl positive
          left covered signed
      obtain ⟨primary, paid⟩ := settles
      have success : (Call.withdrawSplit primary e).succeeds ⟨d, invocation⟩ w = true :=
        succeeds_iff.mpr paid
      exact ⟨invocation, _, rfl, rfl, rfl, success,
        withdrawSplit_pays kept unlocked unsettled token success⟩

namespace Sample

def euro : Address := ⟨7⟩

def stray : List Step :=
  opening ++ [.mint euro bob 500, call 1 (.addSupportedToken admin euro),
    call 1 (.syncRevenueSplits eventContract concert [(organizer, 6000), (amy, 4000)]),
    sale 2 1 bob concert 100,
    call 2 (.payForTicket 2 bob concert 500 none euro .standard none none),
    call 11 (.setEventStatus admin concert .completed)]

def overdrawn : List Step :=
  opening ++ [sale 2 1 bob concert 100, sale 2 2 bob festival 100,
    call 11 (.setEventStatus admin concert .completed),
    call 11 (.withdrawToken organizer concert token), call 12 (.refund admin 1 none),
    call 12 (.setEventStatus admin festival .completed)]

end Sample

/-- The split is unsettled, and the revenue in the payout token can be had. -/
theorem revenue_payable_iff_split :
    (run (World.next Sample.deployment) (deployed Sample.noBalances) Sample.stray).Payable
      Sample.deployment 20 20 Sample.concert Sample.token := by
  have unlocked : (run (World.next Sample.deployment) (deployed Sample.noBalances)
      Sample.stray).Unlocked Sample.concert 20 :=
    ⟨by decide, by decide, by decide, _, rfl, by decide, by decide⟩
  have payable := revenue_payable_iff Sample.deployment Sample.noBalances Sample.stray 20 20
    Sample.concert Sample.token unlocked (by decide) (by decide)
    ⟨⟨_, rfl, by decide⟩, by decide, by decide, by decide, by decide⟩
  exact payable.mpr ⟨by decide, .inr ⟨by decide, rfl, by decide⟩⟩

/-- Stranded for good: the revenue of a split event in another than its payout token, and that of
an event without a split whose money another event has spent. -/
theorem revenue_stranded :
    let stray := run (World.next Sample.deployment) (deployed Sample.noBalances) Sample.stray
    let overdrawn := run (World.next Sample.deployment) (deployed Sample.noBalances) Sample.overdrawn
    (stray.Unlocked Sample.concert 20 ∧
      0 < stray.getEventTokenRevenue Sample.concert Sample.euro ∧
      stray.getEventTokenRevenue Sample.concert Sample.euro ≤
        stray.balances Sample.euro Sample.deployment.currentContract ∧
      stray.Room Sample.concert Sample.euro ∧
      stray.Balanced Sample.deployment.currentContract Sample.concert ∧
      ∀ timestamp, ¬ stray.Payable Sample.deployment 20 timestamp Sample.concert Sample.euro) ∧
    (overdrawn.Unlocked Sample.festival 20 ∧
      0 < overdrawn.getEventTokenRevenue Sample.festival Sample.token ∧
      overdrawn.Room Sample.festival Sample.token ∧ overdrawn.hasSplits Sample.festival = false ∧
      ∀ timestamp,
        ¬ overdrawn.Payable Sample.deployment 20 timestamp Sample.festival Sample.token) := by
  intro stray overdrawn
  constructor
  · have unlocked : stray.Unlocked Sample.concert 20 :=
      ⟨by decide, by decide, by decide, _, rfl, by decide, by decide⟩
    have positive : 0 < stray.getEventTokenRevenue Sample.concert Sample.euro := by decide
    refine ⟨unlocked, positive, by decide, ?_, by decide, fun timestamp payable => ?_⟩
    · exact ⟨⟨_, rfl, by decide⟩, by decide, by decide, by decide, by decide⟩
    · have payee := (payable_cases (reachable_kept _ _ _) unlocked positive payable).2
      obtain whole | ⟨-, token, -⟩ := payee
      · exact absurd whole (by decide)
      · exact absurd (okOr_eq_ok.mp token) (by decide)
  · have unlocked : overdrawn.Unlocked Sample.festival 20 :=
      ⟨by decide, by decide, by decide, _, rfl, by decide, by decide⟩
    have positive : 0 < overdrawn.getEventTokenRevenue Sample.festival Sample.token := by decide
    refine ⟨unlocked, positive, ?_, by decide, fun timestamp payable => ?_⟩
    · exact ⟨⟨_, rfl, by decide⟩, by decide, by decide, by decide, by decide⟩
    · have balanced := (payable_cases (reachable_kept _ _ _) unlocked positive payable).1
      exact absurd balanced (by decide)

end Zicket.Payments
