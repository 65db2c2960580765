import Zicket.Refinement.Disputes

/-! What administration writes: settings, configurations and statuses, bound receipts,
and the counters that a migration counts again. -/

namespace Zicket.Payments

open Host Foundation Book

variable {env : Env} {w w' : World} {e : Symbol}

theorem initializeContract_written {admin token wallet eventContract : Address} {feeBps : ℕ}
    (kept : w.book.Kept)
    (h : initializeContract admin token feeBps wallet eventContract w = .ok w') :
    Written env w (.initialise admin token feeBps wallet eventContract) w'.book := by
  unfold initializeContract at h
  split at h
  · cases h
    exact .none (.inl rfl) rfl
  · rename_i fresh
    simp only [bind_eq_ok, pure_eq_ok, require_eq_ok] at h
    obtain ⟨-, fee, rfl⟩ := h
    have fresh : ¬(w.book.admin.isSome && w.book.acceptedToken.isSome &&
        w.book.eventContract.isSome) := fresh
    have unset : ¬ w.book.acceptedToken.isSome := by
      intro known
      simp [kept.configured.admin.mpr known, kept.configured.eventContract.mpr known, known] at fresh
    refine .one (.inr rfl) ⟨?_, ?_, ?_, fee⟩ rfl
    · simpa using mt kept.configured.admin.mp unset
    · simpa using unset
    · simpa using mt kept.configured.eventContract.mp unset

theorem setEventStatus_written {admin : Address} {status : EventStatus}
    (h : setEventStatus env admin e status w = .ok w') :
    Written env w (.setEventStatus admin e status) w'.book := by
  simp only [setEventStatus, bind_eq_ok, pure_eq_ok] at h
  obtain ⟨-, -, -, -, rfl⟩ := h
  exact .one rfl trivial (World.book_set_eventStatus w e status)

theorem syncEventConfig_written {eventContract : Address} {terms : EventTerms}
    (h : syncEventConfig env eventContract e terms w = .ok w') :
    Written env w (.syncEventConfig eventContract e terms) w'.book := by
  simp only [syncEventConfig, bind_eq_ok, require_eq_ok, okOr_eq_ok, World.getAcceptedToken] at h
  obtain ⟨-, -, -, -, token, accepted, -, same, h⟩ := h
  have accepted : w.book.acceptedToken = some terms.payoutToken := same ▸ accepted
  split at h
  · rename_i absent
    cases h
    have absent : w.book.config e = none := absent
    refine .one ⟨_, rfl⟩ ⟨accepted, by rw [absent]; rfl, ?_⟩ (World.book_set_eventConfig w e _)
    intro old stored
    rw [absent] at stored
    cases stored
  · rename_i existing stored
    simp only [bind_eq_ok, require_eq_ok, pure_eq_ok] at h
    obtain ⟨-, -, -, -, rfl⟩ := h
    have stored : w.book.config e = some existing := stored
    refine .one ⟨_, rfl⟩ ⟨accepted, by rw [stored]; rfl, ?_⟩ (World.book_set_eventConfig w e _)
    intro old stored'
    rw [stored] at stored'
    cases stored'
    exact id

theorem extendWithdrawalDelay_written {admin : Address} {ledgers : ℕ} (kept : w.book.Kept)
    (h : extendWithdrawalDelay env admin e ledgers w = .ok w') :
    Written env w (.extendWithdrawalDelay admin e ledgers) w'.book := by
  simp only [extendWithdrawalDelay, bind_eq_ok, pure_eq_ok, okOr_eq_ok] at h
  obtain ⟨-, -, config, stored, extension, -, rfl⟩ := h
  have stored : w.book.config e = some config := stored
  have effect := World.book_set_eventConfig w e
    { config with adminDelayExtensionLedgers := extension }
  refine .one ⟨_, rfl⟩ ⟨?_, by rw [stored]; rfl, ?_⟩ effect
  · exact kept.configured.accepted e config stored
  intro old stored'
  rw [stored] at stored'
  cases stored'
  exact id

theorem cancellationRatio_before {config : EventConfig} {ledger : ℕ} (before : ledger < config.eventStartLedger) :
    cancellationRatio config ledger = 0 :=
  if_pos before

theorem cancellationRatio_after {config : EventConfig} {ledger : ℕ} (started : config.eventStartLedger ≤ ledger)
    (ended : config.eventEndLedger ≤ ledger) : cancellationRatio config ledger = 10000 := by
  rw [cancellationRatio, if_neg (by omega), if_pos ended]

/-- During the event the quotient is the ratio: it fits into 32 bits. -/
theorem cancellationRatio_during {config : EventConfig} {ledger : ℕ} (started : config.eventStartLedger ≤ ledger)
    (running : ledger < config.eventEndLedger) :
    cancellationRatio config ledger =
      (ledger - config.eventStartLedger) * 10000 /
        (config.eventEndLedger - config.eventStartLedger) := by
  have small : (ledger - config.eventStartLedger) * 10000 /
      (config.eventEndLedger - config.eventStartLedger) < 2 ^ 32 := by
    refine lt_of_le_of_lt (Nat.div_le_of_le_mul (show _ ≤ _ * 10000 from ?_)) (by norm_num)
    exact Nat.mul_le_mul_right _ (by omega)
  unfold cancellationRatio
  dsimp only
  rw [if_neg (by omega), if_neg (by omega), if_neg (by omega), Nat.mod_eq_of_lt small]

theorem cancellationRatio_le (config : EventConfig) (ledger : ℕ) :
    cancellationRatio config ledger ≤ 10000 := by
  obtain before | started := Nat.lt_or_ge ledger config.eventStartLedger
  · rw [cancellationRatio_before before]
    omega
  obtain running | ended := Nat.lt_or_ge ledger config.eventEndLedger
  · rw [cancellationRatio_during started running]
    apply Nat.div_le_of_le_mul
    exact Nat.mul_le_mul_right _ (by omega)
  · rw [cancellationRatio_after started ended]

theorem cancellationRatio_eq_zero {config : EventConfig} {ledger : ℕ} :
    cancellationRatio config ledger = 0 ↔ ledger < config.eventStartLedger ∨
      (ledger - config.eventStartLedger) * 10000 <
        config.eventEndLedger - config.eventStartLedger := by
  obtain before | started := Nat.lt_or_ge ledger config.eventStartLedger
  · exact iff_of_true (cancellationRatio_before before) (.inl before)
  obtain running | ended := Nat.lt_or_ge ledger config.eventEndLedger
  · rw [cancellationRatio_during started running, Nat.div_eq_zero_iff]
    omega
  · rw [cancellationRatio_after started ended]
    exact iff_of_false (by decide) (by omega)

theorem organizedConfig_eq_ok {organizer : Address} {config : EventConfig}
    (h : organizedConfig env w e organizer = .ok config) : w.book.config e = some config := by
  simp only [organizedConfig, bind_eq_ok, pure_eq_ok, okOr_eq_ok] at h
  obtain ⟨-, -, -, -, _, stored, -, -, rfl⟩ := h
  exact stored

theorem cancelEvent_written {organizer : Address} (h : cancelEvent env e organizer w = .ok w') :
    Written env w (.cancelEvent e organizer) w'.book := by
  simp only [cancelEvent, bind_eq_ok, pure_eq_ok] at h
  obtain ⟨config, hconfig, rfl⟩ := h
  have stored := organizedConfig_eq_ok hconfig
  refine .one ⟨config, stored, rfl⟩
    ⟨⟨config, stored, rfl⟩, _, rfl, cancellationRatio_le config env.sequence⟩ ?_
  rw [World.setEventStatus, World.book_set_eventStatus, World.setEventConfig,
    World.book_set_eventConfig]
  rfl

theorem postponeEvent_written {organizer : Address} {deadline : ℕ}
    (h : postponeEvent env e organizer deadline w = .ok w') :
    Written env w (.postponeEvent e organizer deadline) w'.book := by
  simp only [postponeEvent, bind_eq_ok, pure_eq_ok] at h
  obtain ⟨-, -, -, -, rfl⟩ := h
  exact .one rfl trivial (World.book_set_eventStatus w e .postponed)

theorem resumeEvent_written {organizer : Address} (h : resumeEvent env e organizer w = .ok w') :
    Written env w (.resumeEvent e organizer) w'.book := by
  simp only [resumeEvent, bind_eq_ok, pure_eq_ok] at h
  obtain ⟨-, -, -, -, -, -, rfl⟩ := h
  exact .one rfl trivial (World.book_set_eventStatus w e .active)

theorem setEventEndTime_written {admin organizer : Address} {endTime : ℕ}
    (h : setEventEndTime env admin e organizer endTime w = .ok w') :
    Written env w (.setEventEndTime admin e organizer endTime) w'.book := by
  simp only [setEventEndTime, bind_eq_ok, pure_eq_ok] at h
  obtain ⟨-, -, -, -, rfl⟩ := h
  exact .one rfl trivial (World.book_set_escrowMeta w e _)

theorem setPlatformFee_written {feeBps : ℕ} {wallet : Address}
    (h : setPlatformFee env feeBps wallet w = .ok w') :
    Written env w (.setPlatformFee feeBps wallet) w'.book := by
  simp only [setPlatformFee, bind_eq_ok, pure_eq_ok, require_eq_ok] at h
  obtain ⟨-, -, -, -, -, -, -, fee, rfl⟩ := h
  exact .one rfl fee rfl

theorem bindEmailCommitment_written {payer : Address} {id : ℕ} {commitment : BytesN 32}
    (kept : w.book.Kept) (h : bindEmailCommitment env payer id commitment w = .ok w') :
    Written env w (.bindEmailCommitment payer id commitment) w'.book := by
  simp only [bindEmailCommitment, bind_eq_ok, pure_eq_ok, World.getPayment, okOr_eq_ok] at h
  obtain ⟨-, -, -, -, p, stored, -, -, -, -, -, -, w₁, h₁, rfl⟩ := h
  refine .one ⟨p, stored, rfl⟩ (kept.recorded.stored stored) ?_
  rw [World.emitReceiptCommitmentBound, World.book_emit, World.updatePayment_book h₁]
  rfl

section Migration

/-- Only the counters of the book changed, and not the withdrawal history. -/
def Recounts (b b' : Book) : Prop :=
  ∃ counters : Counters, b' = { b with toCounters := counters } ∧
    counters.history = b.history ∧ (b.toCounters.Bounded → counters.Bounded)

theorem Recounts.refl (b : Book) : Recounts b b := ⟨b.toCounters, rfl, rfl, id⟩

theorem Recounts.trans {b₁ b₂ b₃ : Book} (h₁ : Recounts b₁ b₂) (h₂ : Recounts b₂ b₃) :
    Recounts b₁ b₃ := by
  obtain ⟨_, rfl, history₁, bounded₁⟩ := h₁
  obtain ⟨counters, rfl, history₂, bounded₂⟩ := h₂
  exact ⟨counters, rfl, history₂.trans history₁, bounded₂ ∘ bounded₁⟩

theorem countMigratedRefund_recounts {p : PaymentRecord}
    (h : countMigratedRefund w e p = .ok w') : Recounts w.book w'.book := by
  unfold countMigratedRefund at h
  split at h
  · exact ⟨_, World.addTotalTokenRefunds_book h, rfl, id⟩
  · cases h
    exact .refl _

theorem migratePayment_recounts {index id : ℕ} {payments refunds : ℤ} {r : ℤ × ℤ × World}
    (h : migratePayment e index id payments refunds w = .ok r) : Recounts w.book r.2.2.book := by
  unfold migratePayment at h
  dsimp only at h
  split at h
  · cases h
    exact .refl _
  · simp only [bind_eq_ok, pure_eq_ok] at h
    obtain ⟨_, -, _, -, w₁, h₁, w₂, h₂, w₃, h₃, rfl⟩ := h
    have indexed : (w.set (.eventPaymentIndex e index) id).book = w.book := rfl
    have volume : Recounts w.book w₂.book := by
      rw [World.addEventToken_book h₂, World.addTotalTokenVolume_book h₁, indexed]
      exact ⟨_, rfl, rfl, fun bounded => bounded⟩
    exact volume.trans (countMigratedRefund_recounts h₃)

theorem migratePayments_recounts (ids : List ℕ) :
    ∀ {index : ℕ} {payments refunds : ℤ} {w : World} {r : ℤ × ℤ × World},
      migratePayments e ids index payments refunds w = .ok r → Recounts w.book r.2.2.book := by
  induction ids with
  | nil =>
    intro index payments refunds w r h
    cases h
    exact .refl _
  | cons id rest ih =>
    intro index payments refunds w r h
    simp only [migratePayments, bind_eq_ok] at h
    obtain ⟨⟨payments', refunds', w₁⟩, h₁, h₂⟩ := h
    exact (migratePayment_recounts h₁).trans (ih h₂)

theorem migrateWithdrawn_recounts {total : ℤ} (h : migrateWithdrawn w e total = .ok w') :
    Recounts w.book w'.book := by
  unfold migrateWithdrawn at h
  split at h
  · simp only [bind_eq_ok, require_eq_ok] at h
    obtain ⟨-, -, h⟩ := h
    split at h
    · cases h
      exact .refl _
    · refine ⟨_, World.addTotalTokenWithdrawn_book h, rfl, fun bounded => ⟨bounded.1, ?_⟩⟩
      simp only [World.addTotalTokenWithdrawn, bind_eq_ok, i128_eq_ok] at h
      obtain ⟨_, ⟨inside, -⟩, -⟩ := h
      intro e' t'
      dsimp only
      rw [put_apply]
      split
      · exact inside.1
      · exact bounded.2 e' t'
  · cases h
    exact .refl _

theorem migrateEvent_written {admin : Address} (kept : w.book.Kept)
    (h : migrateEvent env admin e w = .ok w') :
    Written env w (.migrateEvent admin e) w'.book := by
  simp only [migrateEvent, bind_eq_ok] at h
  obtain ⟨-, -, -, -, -, -, -, -, ⟨payments, refunds, w₁⟩, h₁, total, htotal, w₂, h₂, h₃⟩ := h
  obtain ⟨sum, inside⟩ := (foldlM_i128_eq_ok WithdrawalRecord.amount _ (by decide)).mp htotal
  have inside : InI128 total := by
    rw [sum]
    exact inside _ (List.prefix_refl _)
  have counted : Recounts w₁.book (((w₁.set (.eventPaymentsCount e)
      ((w.get (.eventPayments e)).getD [] : List ℕ).length).set (.totalPayments e) payments).set
      (.totalRefunds e) refunds |>.set (.totalWithdrawn e) total).book := by
    rw [World.book_set_totalWithdrawn, World.book_set_totalRefunds, World.book_set_totalPayments]
    refine ⟨_, rfl, rfl, fun bounded => ⟨fun e' => ?_, bounded.2⟩⟩
    dsimp only
    rw [Function.update_apply]
    split
    · exact inside.1
    · exact bounded.1 e'
  obtain ⟨counters, effect, frame⟩ :=
    ((migratePayments_recounts _ h₁).trans counted).trans (migrateWithdrawn_recounts h₂)
  have recount : Sound env.currentContract w.book (.recount counters) := frame
  have view : (w₂.remove (.eventPayments e)).book = w.book.post env.currentContract
      (.recount counters) := effect
  have kept₂ : (w₂.remove (.eventPayments e)).book.Kept := view ▸ post_kept kept recount
  obtain ⟨sweep, sweeps, sound, effect⟩ := validateRevenueInvariant_swept kept₂ h₃
  rw [view] at sound effect
  exact ⟨.recount counters :: sweep, ⟨sweep, counters, sweeps, rfl⟩, ⟨recount, sound⟩, effect⟩

end Migration

end Zicket.Payments
