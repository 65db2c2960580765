import Zicket.Refinement.Disputes

/-! What the payouts write: timed-out disputes first, then the payout of a token's
revenue or of the organizer's part of a cancelled event, then the latch. -/

namespace Zicket.Payments

open Host Foundation Book

variable {env : Env} {w w' : World} {e : Symbol} {t : Address}

theorem collectPlatformFee_book {fee net : ℤ} (nonneg : 0 ≤ fee)
    (h : collectPlatformFee env w e fee net t = .ok w') :
    w'.book = { w.book with
      platform := Function.update w.book.platform e (w.book.platform e + fee) } := by
  unfold collectPlatformFee at h
  split at h
  · simp only [bind_eq_ok, pure_eq_ok] at h
    obtain ⟨w₁, h₁, rfl⟩ := h
    rw [World.emitPlatformFeeCollected, World.book_emit, World.addPlatformRevenue_book h₁]
  · cases h
    have zero : fee = 0 := by omega
    rw [zero, add_zero, Function.update_eq_self]

theorem bookWithdrawal_book {recipient : Address} {amount : ℤ}
    (h : bookWithdrawal env w e t recipient amount = .ok w') :
    w'.book = w.book.addWithdrawal e t recipient amount env.timestamp := by
  simp only [bookWithdrawal, bind_eq_ok] at h
  obtain ⟨w₁, h₁, w₂, h₂, h₃⟩ := h
  rw [World.addWithdrawalRecord_book h₃, World.addTotalTokenWithdrawn_book h₂,
    World.addTotalWithdrawn_book h₁]
  rfl

theorem bookWithdrawal_ok (env : Env) (recipient : Address) {x : ℤ}
    (withdrawn : InI128 (w.getTotalWithdrawn e + x))
    (token : InI128 (w.getTotalTokenWithdrawn e t + x))
    (records : w.getWithdrawalCount e + 1 < 2 ^ 32) :
    ∃ w', bookWithdrawal env w e t recipient x = .ok w' := by
  simp only [bookWithdrawal, World.addTotalWithdrawn, World.addTotalTokenWithdrawn,
    World.addWithdrawalRecord, bind_eq_ok, pure_eq_ok, i128_eq_ok, u32_eq_ok]
  exact ⟨_, _, ⟨_, ⟨withdrawn, rfl⟩, rfl⟩, _, ⟨_, ⟨token, rfl⟩, rfl⟩, _, ⟨records, rfl⟩, rfl⟩

theorem emitWithdrawn_book (env : Env) (w : World) (e : Symbol) (recipient : Address) (amount : ℤ)
    (t : Address) : (emitWithdrawn env w e recipient amount t).book = w.book := rfl

theorem ensureNoSplits_eq_ok {u : Unit} (h : ensureNoSplits w e = .ok u) :
    w.book.splits e = none := by
  rw [ensureNoSplits, require_eq_ok] at h
  have absent : (w.book.splits e).isSome = false := h
  simpa using absent

section Whole

theorem drainToken_book {recipient : Address} (h : drainToken env w e t recipient = .ok w') :
    w'.book = w.book.post env.currentContract
      (.payout e t none (w.book.revenue e t) (w.book.revenue e t) 0 recipient env.timestamp) := by
  simp only [drainToken, bind_eq_ok] at h
  obtain ⟨w₁, h₁, w₂, h₂, h₃⟩ := h
  rw [bookWithdrawal_book h₃, World.shiftEventRevenue_book h₂, World.setEventTokenRevenue,
    World.book_set_eventTokenRevenue, (World.transfer_book h₁).2]
  simp only [post, takeOut, sub_self, add_zero]
  change _ = addWithdrawal { w.book.record _ with
    revenue := put w.book.revenue e t 0
    platform := Function.update w.book.platform e (w.book.platform e) } e t recipient _ _
  rw [Function.update_eq_self]
  rfl

theorem drain_sound (self dst : Address) (time : ℕ) {b : Book} (whole : b.splits e = none)
    (available : 0 < b.revenue e t) :
    Sound self b (.payout e t none (b.revenue e t) (b.revenue e t) 0 dst time) :=
  ⟨whole, available, available, available.le, ⟨rfl, rfl⟩, .inl rfl⟩

theorem releaseTokens_drains {organizer : Address} (tokens : List Address) :
    ∀ {total total' : ℤ} {w w' : World}, w.book.splits e = none →
      releaseTokens env e organizer tokens total w = .ok (total', w') →
      ∃ ps, Drains e organizer env.timestamp ps ∧
        Along (post env.currentContract) (Sound env.currentContract) w.book ps ∧
        run (post env.currentContract) w.book ps = w'.book := by
  induction tokens with
  | nil =>
    intro total total' w w' _ h
    cases h
    exact ⟨[], by simp [Drains], trivial, rfl⟩
  | cons t rest ih =>
    intro total total' w w' whole h
    rw [releaseTokens] at h
    split at h
    · rename_i available
      simp only [bind_eq_ok, i128_eq_ok] at h
      obtain ⟨w₁, h₁, _, ⟨-, rfl⟩, h₂⟩ := h
      have b₁ := drainToken_book h₁
      obtain ⟨ps, drains, sound, effect⟩ := ih (by rw [b₁]; exact whole) h₂
      rw [b₁] at sound effect
      refine ⟨_ :: ps, ?_, ⟨drain_sound _ _ _ whole available, sound⟩, effect⟩
      rintro posting (_ | ⟨_, mem⟩)
      · exact ⟨t, _, rfl⟩
      · exact drains posting mem
    · exact ih whole h

theorem drainTokens_drains {organizer : Address} (tokens : List Address) :
    ∀ {found found' : Bool} {w w' : World}, w.book.splits e = none →
      drainTokens env e organizer tokens found w = .ok (found', w') →
      ∃ ps, Drains e organizer env.timestamp ps ∧
        Along (post env.currentContract) (Sound env.currentContract) w.book ps ∧
        run (post env.currentContract) w.book ps = w'.book := by
  induction tokens with
  | nil =>
    intro found found' w w' _ h
    cases h
    exact ⟨[], by simp [Drains], trivial, rfl⟩
  | cons t rest ih =>
    intro found found' w w' whole h
    rw [drainTokens] at h
    split at h
    · rename_i available
      simp only [bind_eq_ok] at h
      obtain ⟨w₁, h₁, h₂⟩ := h
      have b₁ := drainToken_book h₁
      obtain ⟨ps, drains, sound, effect⟩ :=
        ih (by rw [emitWithdrawn_book, b₁]; exact whole) h₂
      rw [emitWithdrawn_book, b₁] at sound effect
      refine ⟨_ :: ps, ?_, ⟨drain_sound _ _ _ whole available, sound⟩, effect⟩
      rintro posting (_ | ⟨_, mem⟩)
      · exact ⟨t, _, rfl⟩
      · exact drains posting mem
    · exact ih whole h

theorem withdrawToken_written {organizer : Address} (kept : w.book.Kept)
    (h : withdrawToken env organizer e t w = .ok w') :
    Written env w (.withdrawToken organizer e t) w'.book := by
  simp only [withdrawToken, bind_eq_ok, pure_eq_ok, require_eq_ok] at h
  obtain ⟨-, -, -, -, _, whole, -, -, w₁, h₁, -, available, w₂, h₂, rfl⟩ := h
  have swept := validateRevenueInvariant_swept kept h₁
  have whole₁ : w₁.book.splits e = none := by
    rw [swept.terms]
    exact ensureNoSplits_eq_ok whole
  rw [emitWithdrawn_book, drainToken_book h₂]
  obtain ⟨sweep, sweeps, sound, effect⟩ := 
    swept.andThen (along_singleton.mpr (drain_sound _ _ _ whole₁ available)) rfl
  exact ⟨_, ⟨sweep, _, sweeps, rfl⟩, sound, effect⟩

theorem withdrawAllTokens_written {organizer : Address} (kept : w.book.Kept)
    (h : withdrawAllTokens env organizer e w = .ok w') :
    Written env w (.withdrawAllTokens organizer e) w'.book := by
  simp only [withdrawAllTokens, bind_eq_ok, pure_eq_ok, require_eq_ok] at h
  obtain ⟨-, -, -, -, _, whole, -, -, w₁, h₁, ⟨found, w₂⟩, h₂, -, -, h₃⟩ := h
  cases h₃
  have swept := validateRevenueInvariant_swept kept h₁
  have whole₁ : w₁.book.splits e = none := by
    rw [swept.terms]
    exact ensureNoSplits_eq_ok whole
  obtain ⟨drains, isDrain, sounds, effect⟩ := drainTokens_drains _ whole₁ h₂
  obtain ⟨sweep, sweeps, sound, effect⟩ := swept.andThen sounds effect
  exact ⟨_, ⟨sweep, drains, sweeps, isDrain, rfl⟩, sound, effect⟩

theorem releaseIfExpired_written (kept : w.book.Kept) (h : releaseIfExpired env e w = .ok w') :
    Written env w (.releaseIfExpired e) w'.book := by
  simp only [releaseIfExpired, bind_eq_ok, pure_eq_ok, require_eq_ok, okOr_eq_ok,
    World.getEscrowMeta] at h
  obtain ⟨-, -, _, whole, escrow, stored, -, unreleased, -, -, -, -, -, -, w₁, h₁, ⟨total, w₂⟩,
    h₂, rfl⟩ := h
  have swept := validateRevenueInvariant_swept kept h₁
  have whole₁ : w₁.book.splits e = none := by
    rw [swept.terms]
    exact ensureNoSplits_eq_ok whole
  obtain ⟨drains, isDrain, sounds, drained⟩ := releaseTokens_drains _ whole₁ h₂
  let release : Posting := .setEscrow e { escrow with autoReleased := true }
  have released : Along (post env.currentContract) (Sound env.currentContract) w₁.book
      (drains ++ [release]) :=
    along_append.mpr ⟨sounds, along_singleton.mpr trivial⟩
  obtain ⟨sweep, sweeps, sound, effect⟩ := swept.andThen released rfl
  refine ⟨sweep ++ (drains ++ [release]), ⟨sweep, drains, escrow, sweeps, stored, unreleased,
    isDrain, (List.append_assoc ..).symm⟩, sound, ?_⟩
  rw [effect, run_append, drained, World.emitEscrowAutoReleased, World.book_emit,
    World.setEscrowMeta, World.book_set_escrowMeta]
  rfl

end Whole

section Organizer

theorem withdrawableRatio_eq_ok {config : EventConfig} {r : ℕ}
    (h : withdrawableRatio env w e config = .ok r) :
    (w.book.status e = some .completed ∧ r = 10000) ∨
      (w.book.status e = some .cancelled ∧ config.withdrawableRatioBps = some r) := by
  unfold withdrawableRatio at h
  split at h
  · rename_i completed
    simp only [bind_eq_ok, pure_eq_ok] at h
    obtain ⟨-, -, -, -, -, -, rfl⟩ := h
    exact .inl ⟨completed, rfl⟩
  · rename_i cancelled
    simp only [bind_eq_ok, pure_eq_ok, okOr_eq_ok] at h
    obtain ⟨-, -, -, -, -, -, ratio, stored, -, -, rfl⟩ := h
    exact .inr ⟨cancelled, stored⟩
  · simp at h

theorem collectCancellationOrganizerPool_eq_ok {r : ℕ} {total : ℤ}
    (undisputed : w.getEventDisputes e = [])
    (h : collectCancellationOrganizerPool w e t r = .ok total) :
    total = bpsOf (w.book.volume e t) r := by
  simp only [collectCancellationOrganizerPool, disputedVolume, undisputed, List.foldlM_nil,
    bind_eq_ok, pure_eq_ok, i128_eq_ok] at h
  obtain ⟨_, rfl, _, ⟨-, rfl⟩, h⟩ := h
  rw [basisPointsOf_eq_ok h, sub_zero]
  rfl

/-- Before the settlement the status decides the ratio; afterwards it decides the amount. -/
theorem amountToWithdraw_takes {config : EventConfig} {r : ℕ} {total : ℤ}
    (stored : w.book.config e = some config)
    (ratio : (w.book.status e = some .completed ∧ r = 10000) ∨
      (w.book.status e = some .cancelled ∧ config.withdrawableRatioBps = some r))
    (undisputed : w.getEventDisputes e = [])
    (h : amountToWithdraw w e config.payoutToken r = .ok total) :
    w.book.Takes e config.payoutToken (w.book.pool e) total
      (if r = 10000 then 0 else w.book.revenue e config.payoutToken - total) := by
  unfold amountToWithdraw at h
  obtain ⟨completed, rfl⟩ | ⟨cancelled, ratio⟩ := ratio
  · have standing : w.getEventStatus e ≠ some .cancelled := by
      change w.book.status e ≠ _
      simp [completed]
    have whole : w.book.pool e = none := if_neg standing
    rw [if_neg standing] at h
    rw [whole, basisPointsOf_eq_ok h, bpsOf_full]
    exact ⟨rfl, rfl⟩
  · rw [if_pos (show w.getEventStatus e = some .cancelled from cancelled)] at h
    have pool : w.book.pool e = some r := by
      rw [Book.pool, if_pos cancelled, stored]
      exact ratio
    rw [pool]
    exact ⟨pool, undisputed, collectCancellationOrganizerPool_eq_ok undisputed h, rfl⟩

theorem latch_sound {self : Address} {b : Book} {c : EventConfig}
    (accepted : b.acceptedToken = some c.payoutToken) (stored : b.config e = some c) :
    Sound self b (.configure e { c with organizerWithdrawn := true }) where
  accepted := accepted
  ratio := by rw [stored]; rfl
  latch _ _ _ := rfl

theorem deductRevenue_book {r : ℕ} {total : ℤ} (h : deductRevenue w e t r total = .ok w') :
    w'.book = { w.book with
      revenue := put w.book.revenue e t (if r = 10000 then 0 else w.book.revenue e t - total) } := by
  unfold deductRevenue at h
  split at h <;> rename_i full
  · cases h
    rw [World.setEventTokenRevenue, World.book_set_eventTokenRevenue, if_pos full]
  · simp only [bind_eq_ok, i128_eq_ok] at h
    obtain ⟨_, ⟨-, rfl⟩, h⟩ := h
    rw [World.shiftEventRevenue_book h, World.setEventTokenRevenue,
      World.book_set_eventTokenRevenue, if_neg full]
    rfl

theorem withdraw_written {organizer : Address} (kept : w.book.Kept)
    (h : withdraw env organizer e w = .ok w') :
    Written env w (.withdraw organizer e) w'.book := by
  simp only [withdraw, bind_eq_ok, pure_eq_ok, require_eq_ok, okOr_eq_ok, World.getEventOrganizer,
    World.getEventPayoutToken, i128_eq_ok] at h
  obtain ⟨-, -, -, -, _, whole, storedOrganizer, hOrganizer, -, rfl, config, stored, -, unlatched,
    ratio, hratio, w₁, h₁, -, undisputed, payoutToken, hToken, -, available, total, htotal, -,
    positive, fee, hfee, _, ⟨-, rfl⟩, w₂, h₂, w₃, h₃, w₄, h₄, w₅, h₅, rfl⟩ := h
  have swept := validateRevenueInvariant_swept kept h₁
  have stored₁ : w₁.book.config e = some config := by
    rw [swept.terms]
    exact stored
  have token : config.payoutToken = payoutToken := by
    have hToken : (w₁.book.config e).map (·.payoutToken) = some payoutToken := hToken
    simpa [stored₁] using hToken
  have dst : config.organizer = organizer := by
    have hOrganizer : (w.getEventConfig e).map (·.organizer) = some organizer := hOrganizer
    simpa [stored] using hOrganizer
  have status : w.book.status e = w₁.book.status e := by rw [swept.terms]
  have fee_nonneg : 0 ≤ fee := by
    rw [basisPointsOf_eq_ok hfee]
    exact bpsOf_nonneg positive.le _
  have accepted := (swept.kept kept).configured.accepted e config stored₁
  subst token dst
  obtain ⟨paid, b₂⟩ := World.transfer_book h₂
  let left := if ratio = 10000 then 0 else w₁.book.revenue e config.payoutToken - total
  let pay : Posting := .payout e config.payoutToken (w.book.pool e) total (total - fee) left
    config.organizer env.timestamp
  let latch : Posting := .configure e { config with organizerWithdrawn := true }
  have payout : Sound env.currentContract w₁.book pay :=
    { whole := by rw [swept.terms]; exact ensureNoSplits_eq_ok whole
      available := available
      positive := positive
      nonneg := paid
      takes := by
        rw [swept.pool]
        exact amountToWithdraw_takes stored₁ (status ▸ withdrawableRatio_eq_ok hratio) undisputed
          htotal
      nets := .inr ⟨accepted, by rw [basisPointsOf_eq_ok hfee]; rfl⟩ }
  have latched : Sound env.currentContract (w₁.book.post env.currentContract pay) latch :=
    latch_sound accepted stored₁
  have sounds : Along (post env.currentContract) (Sound env.currentContract) w₁.book [pay, latch] :=
    ⟨payout, latched, trivial⟩
  obtain ⟨sweep, sweeps, sound, effect⟩ := swept.andThen sounds rfl
  refine ⟨_, ⟨sweep, config, total, _, left, sweeps, stored, by simpa using unlatched, rfl⟩, sound, ?_⟩
  have kept_back : total - (total - fee) = fee := by omega
  rw [effect, emitWithdrawn_book, bookWithdrawal_book h₅, World.setEventConfig,
    World.book_set_eventConfig, deductRevenue_book h₄, collectPlatformFee_book fee_nonneg h₃, b₂,
    run_cons, run_cons, run_nil]
  simp only [pay, latch, post, takeOut, kept_back]
  rfl

theorem latchPostings_sound (self : Address) {b : Book} (h : Configured b.toTerms b.platform) :
    Along (post self) (Sound self) b (latchPostings e (b.config e)) := by
  cases stored : b.config e with
  | none => trivial
  | some c => exact along_singleton.mpr (latch_sound (h.accepted e c stored) stored)

theorem withdrawRevenue_written {recipient : Address} (kept : w.book.Kept)
    (h : withdrawRevenue env e recipient w = .ok w') :
    Written env w (.withdrawRevenue e recipient) w'.book := by
  simp only [withdrawRevenue, bind_eq_ok, pure_eq_ok, require_eq_ok, okOr_eq_ok,
    World.getAcceptedToken, i128_eq_ok] at h
  obtain ⟨-, -, -, -, -, -, _, whole, -, -, -, unlatched, w₁, h₁, token, accepted, -, available,
    fee, hfee, _, ⟨-, rfl⟩, w₂, h₂, w₃, h₃, w₄, h₄, w₅, h₅, rfl⟩ := h
  have swept := validateRevenueInvariant_swept kept h₁
  have fee_nonneg : 0 ≤ fee := by
    rw [basisPointsOf_eq_ok hfee]
    exact bpsOf_nonneg available.le _
  obtain ⟨paid, b₂⟩ := World.transfer_book h₂
  let pay : Posting := .payout e token none (w₁.book.revenue e token) (w₁.book.revenue e token - fee) 0
    recipient env.timestamp
  have payout : Sound env.currentContract w₁.book pay :=
    { whole := by rw [swept.terms]; exact ensureNoSplits_eq_ok whole
      available := available
      positive := available
      nonneg := paid
      takes := ⟨rfl, rfl⟩
      nets := .inr ⟨accepted, by rw [basisPointsOf_eq_ok hfee]; rfl⟩ }
  have config : w.book.config e = (w₁.book.post env.currentContract pay).config e := by
    change _ = w₁.book.config e
    rw [swept.terms]
  have latches : Along (post env.currentContract) (Sound env.currentContract)
      (w₁.book.post env.currentContract pay) (latchPostings e (w.book.config e)) := by
    rw [config]
    exact latchPostings_sound _ (post_kept (swept.kept kept) payout).configured
  have sounds : Along (post env.currentContract) (Sound env.currentContract) w₁.book
      (pay :: latchPostings e (w.book.config e)) := ⟨payout, latches⟩
  obtain ⟨sweep, sweeps, sound, effect⟩ := swept.andThen sounds rfl
  have accepted : w.book.acceptedToken = some token := by
    have accepted : w₁.book.acceptedToken = some token := accepted
    rwa [swept.terms] at accepted
  refine ⟨sweep ++ pay :: latchPostings e (w.book.config e),
    ⟨sweep, token, _, _, sweeps, accepted, ?_, rfl⟩, sound, ?_⟩
  · intro c stored
    have stored : w.getEventConfig e = some c := stored
    simpa [stored] using unlatched
  have kept_back : w₁.book.revenue e token - (w₁.book.revenue e token - fee) = fee := by omega
  rw [effect, emitWithdrawn_book, bookWithdrawal_book h₅]
  have config : w.getEventConfig e = w.book.config e := rfl
  rw [config]
  cases w.book.config e with
  | none =>
    simp only [latchWithdrawn, latchPostings, Option.map_none, Option.toList_none, run_cons, run_nil,
      pay, post, takeOut, kept_back]
    rw [World.shiftEventRevenue_book h₄, World.setEventTokenRevenue,
      World.book_set_eventTokenRevenue, collectPlatformFee_book fee_nonneg h₃, b₂]
    rfl
  | some c =>
    simp only [latchWithdrawn, latchPostings, Option.map_some, Option.toList_some, run_cons,
      run_nil, pay, post, takeOut, kept_back]
    rw [World.setEventConfig, World.book_set_eventConfig, World.shiftEventRevenue_book h₄,
      World.setEventTokenRevenue, World.book_set_eventTokenRevenue,
      collectPlatformFee_book fee_nonneg h₃, b₂]
    rfl

theorem withdrawPlatformRevenue_written (h : withdrawPlatformRevenue env e w = .ok w') :
    Written env w (.withdrawPlatformRevenue e) w'.book := by
  simp only [withdrawPlatformRevenue, bind_eq_ok, pure_eq_ok, require_eq_ok, okOr_eq_ok,
    World.getAcceptedToken] at h
  obtain ⟨-, -, -, -, -, -, -, available, wallet, -, token, accepted, w₁, h₁, w₂, h₂, rfl⟩ := h
  refine .one ⟨token, wallet, rfl⟩ ⟨available, accepted⟩ ?_
  rw [World.emitPlatformRevenueWithdrawn, World.book_emit, World.resetPlatformRevenue,
    World.book_set_platformRevenue, World.addTotalTokenWithdrawn_book h₂,
    (World.transfer_book h₁).2]
  rfl

end Organizer

end Zicket.Payments
