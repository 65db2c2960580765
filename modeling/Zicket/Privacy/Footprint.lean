import Zicket.Foundation.Postcondition
import Zicket.Payments.Contract

/-! The entries that only a few operations write: who has paid under which nonce, the indexes
by payer and owner, and the switches. All other operations leave them as they are. -/

namespace Zicket.Payments

open Host Foundation

namespace DataKey

/-- The entries that keep a payment from being made twice. -/
def IsReplay : DataKey → Bool
  | .processedNonce _ _ | .processedNonceHash _ _ | .spentNullifier _ => true
  | _ => false

def IsIndex : DataKey → Bool
  | .payerPayment _ _ | .payerPaymentIndex _ _ | .ownerTicket _ _ | .ownerTicketIndex _ _ => true
  | _ => false

def IsSwitch : DataKey → Bool
  | .eventPrivacy _ | .paused => true
  | _ => false

def IsAside (k : DataKey) : Bool := k.IsReplay || k.IsIndex || k.IsSwitch

/-- The entries that say whose the tickets are and which are listed, beside the indexes. -/
def IsDeed : DataKey → Bool
  | .ticket _ | .ownerTicketsCount _ | .resaleListing _ => true
  | _ => false

def IsTokenEntry : DataKey → Bool
  | .eventToken _ _ | .eventTokenIndex _ _ | .eventTokenCount _ => true
  | _ => false

def IsRoutine (k : DataKey) : Bool := !k.IsAside && !k.IsDeed && !k.IsTokenEntry

/-- The entries that the return of a timed-out dispute rewrites. -/
def IsSwept : DataKey → Bool
  | .payment _ | .eventRevenue _ | .eventTokenRevenue _ _ | .dispute _ | .eventDisputes _ => true
  | _ => false

def IsSweptOf (e : Symbol) : DataKey → Bool
  | .payment _ | .dispute _ => true
  | .eventRevenue e' | .eventTokenRevenue e' _ | .eventDisputes e' => e' = e
  | _ => false

theorem swept_of_event {e : Symbol} (k : DataKey) (h : k.IsSweptOf e = true) : k.IsSwept = true := by
  cases k <;> first | rfl | cases h

end DataKey

def World.Leaves (P : DataKey → Bool) (w w' : World) : Prop := ∀ k, P k = true → w'.get k = w.get k

variable {P : DataKey → Bool} {w w' w'' : World} {env : Env} {e : Symbol} {t : Address} {x : ℤ}

namespace World.Leaves

theorem refl (P : DataKey → Bool) (w : World) : w.Leaves P w := fun _ _ => rfl

theorem trans (h : w.Leaves P w') (h' : w'.Leaves P w'') : w.Leaves P w'' :=
  fun k hk => (h' k hk).trans (h k hk)

theorem mono {Q : DataKey → Bool} (h : w.Leaves P w') (le : ∀ k, Q k = true → P k = true) :
    w.Leaves Q w' := fun k hk => h k (le k hk)

theorem set {k : DataKey} (v : k.Val) (other : P k = false) : w.Leaves P (w.set k v) := by
  intro k' hk
  have differ : k' ≠ k := by
    rintro rfl
    rw [other] at hk
    cases hk
  exact Store.get_set_of_ne _ v differ

theorem remove {k : DataKey} (other : P k = false) : w.Leaves P (w.remove k) := by
  intro k' hk
  have differ : k' ≠ k := by
    rintro rfl
    rw [other] at hk
    cases hk
  exact Store.get_remove_of_ne _ differ

end World.Leaves

abbrev World.Spares (w : World) (attempt : Attempt World) : Prop :=
  Yields attempt (w.Leaves DataKey.IsAside)

instance (P : DataKey → Bool) : IsTrans World (World.Leaves P) := ⟨fun _ _ _ => World.Leaves.trans⟩

theorem written_leaves {α : Type} {value : Attempt α} {k : DataKey} {v : α → k.Val}
    (other : P k = false) : Yields (value >>= fun a => pure (w.set k (v a))) (w.Leaves P) :=
  .skip fun _ => .pure (.set _ other)

theorem aside_of_token (k : DataKey) (entry : k.IsTokenEntry = true) : k.IsAside = false := by
  cases k <;> first | rfl | cases entry

theorem aside_free (k : DataKey) (routine : k.IsRoutine = true) : k.IsAside = false := by
  cases k <;> first | rfl | cases routine

section Accessors

variable (w : World) (free : ∀ k : DataKey, k.IsRoutine = true → P k = false)

theorem transfer_leaves {tr : Transfer} :
    Yields (w.transfer tr) (w.Leaves P) := by
  unfold World.transfer
  split
  · exact .pure (.refl _ w)
  · exact .error _

include free

theorem getNextPaymentId_leaves :
    Yields w.getNextPaymentId fun next => w.Leaves P next.2 :=
  .skip fun _ => .pure (.set _ (free _ rfl))

theorem getNextTicketId_leaves :
    Yields w.getNextTicketId fun next => w.Leaves P next.2 :=
  .skip fun _ => .pure (.set _ (free _ rfl))

theorem addEventPayment_leaves {e : Symbol} {id : ℕ} :
    Yields (w.addEventPayment e id) (w.Leaves P) :=
  .after ((World.Leaves.set _ (free _ rfl)).trans (.set _ (free _ rfl)))
    (written_leaves (free _ rfl))

omit free in
theorem addEventToken_leaves (tokens : ∀ k : DataKey, k.IsTokenEntry = true → P k = false)
    {e : Symbol} {t : Address} : Yields (w.addEventToken e t) (w.Leaves P) := by
  unfold World.addEventToken
  split
  · exact .pure (.refl _ w)
  · exact .after ((World.Leaves.set _ (tokens _ rfl)).trans (.set _ (tokens _ rfl)))
      (written_leaves (tokens _ rfl))

theorem shiftEventRevenue_leaves {e : Symbol} {x : ℤ} :
    Yields (w.shiftEventRevenue e x) (w.Leaves P) :=
  .skip fun _ => written_leaves (free _ rfl)

theorem addEventRevenue_leaves {e : Symbol} {x : ℤ} :
    Yields (w.addEventRevenue e x) (w.Leaves P) :=
  .skip fun _ => written_leaves (free _ rfl)

theorem bookWithdrawal_leaves {e : Symbol} {t recipient : Address} {x : ℤ} :
    Yields (bookWithdrawal env w e t recipient x) (w.Leaves P) := by
  unfold bookWithdrawal
  refine .andThen (written_leaves (free _ rfl)) fun w => ?_
  refine .andThen (written_leaves (free _ rfl)) fun w => ?_
  exact .after (.set _ (free _ rfl)) (written_leaves (free _ rfl))

end Accessors

section Sweep

variable (w : World)

section Event

variable (free : ∀ k : DataKey, k.IsSweptOf e = true → P k = false)

include free

theorem returnDisputed_leaves {id : ℕ} :
    Yields (returnDisputed w e id) (w.Leaves P) := by
  have revenue : P (.eventRevenue e) = false := free _ (decide_eq_true rfl)
  have tokenRevenue (t : Address) : P (.eventTokenRevenue e t) = false :=
    free _ (decide_eq_true rfl)
  unfold returnDisputed
  split
  · exact .pure (.refl _ w)
  · split
    · refine .andThen (written_leaves (free _ rfl)) fun w => ?_
      refine .andThen (.skip fun _ => written_leaves revenue) fun w => ?_
      exact written_leaves (tokenRevenue _)
    · exact .pure (.refl _ w)

theorem sweepDisputes_leaves {ids : List ℕ} :
    Yields (sweepDisputes env e ids w) fun swept => w.Leaves P swept.2.2 := by
  induction ids generalizing w with
  | nil => exact .pure (.refl _ w)
  | cons id rest ih =>
    unfold sweepDisputes
    split
    · exact ih w
    · split
      · refine (returnDisputed_leaves w free).bind fun w₁ h₁ =>
          (ih _).bind fun swept h₂ => .pure ?_
        have dropped : w₁.Leaves P ((w₁.removeDispute id).emitDisputeTimedOut env e id) :=
          .remove (free _ rfl)
        exact h₁.trans (dropped.trans h₂)
      · exact (ih w).bind fun swept h => .pure h

theorem processTimedOutDisputes_leaves :
    Yields (processTimedOutDisputes env e w) (w.Leaves P) := by
  refine (sweepDisputes_leaves w free).bind fun swept h => .pure ?_
  split
  · exact h.trans (.set _ (free _ (decide_eq_true rfl)))
  · exact h

end Event

variable (free : ∀ k : DataKey, k.IsSwept = true → P k = false)

include free

theorem validateRevenueInvariant_leaves {e : Symbol} :
    Yields (validateRevenueInvariant env e w) (w.Leaves P) :=
  .andThen (processTimedOutDisputes_leaves w fun k swept => free k (k.swept_of_event swept))
    fun w => .skip fun _ => .pure (.refl _ w)

end Sweep

section Payouts

variable (w : World) (free : ∀ k : DataKey, k.IsRoutine = true → P k = false)

include free

theorem free_of_swept (k : DataKey) (swept : k.IsSwept = true) : P k = false := by
  apply free
  cases k <;> first | rfl | cases swept

theorem closeDispute_leaves {dispute : DisputeRecord} {id : ℕ} :
    w.Leaves P (closeDispute w dispute id) :=
  .trans (.remove (free _ rfl)) (.set _ (free _ rfl))

theorem payRefund_leaves {payment settled : PaymentRecord} {refundTo : Option Address}
    {refundAmt : ℤ} :
    Yields (payRefund env w payment settled refundTo refundAmt) (w.Leaves P) := by
  have sent :
    Yields (sendRefund env w payment refundAmt refundTo) (w.Leaves P) := by
    unfold sendRefund
    split
    · exact .pure (.refl _ w)
    · exact transfer_leaves w
  refine .andThen sent fun w => .andThen (written_leaves (free _ rfl)) fun w => ?_
  refine .andThen (shiftEventRevenue_leaves w free) fun w => .skip fun _ => ?_
  refine .after (.set _ (free _ rfl)) (.andThen (written_leaves (free _ rfl)) fun w => ?_)
  exact .andThen (written_leaves (free _ rfl)) fun w => .pure (.refl _ w)

theorem collectPlatformFee_leaves {e : Symbol} {fee net : ℤ} {t : Address} :
    Yields (collectPlatformFee env w e fee net t) (w.Leaves P) := by
  unfold collectPlatformFee
  split
  · exact .andThen (written_leaves (free _ rfl)) fun w => .pure (.refl _ w)
  · exact .pure (.refl _ w)

theorem deductRevenue_leaves {e : Symbol} {t : Address} {ratio : ℕ} {total : ℤ} :
    Yields (deductRevenue w e t ratio total) (w.Leaves P) := by
  unfold deductRevenue
  split
  · exact .pure (.set _ (free _ rfl))
  · refine .skip fun _ => ?_
    exact .after (.set _ (free _ rfl)) (shiftEventRevenue_leaves _ free)

theorem drainToken_leaves {e : Symbol} {t recipient : Address} :
    Yields (drainToken env w e t recipient) (w.Leaves P) := by
  refine .andThen (transfer_leaves w) fun w => ?_
  refine .after (.set _ (free _ rfl)) (.andThen (shiftEventRevenue_leaves _ free) fun w => ?_)
  exact bookWithdrawal_leaves w free

theorem releaseTokens_leaves {e : Symbol} {organizer : Address} {ts : List Address}
    {total : ℤ} : Yields (releaseTokens env e organizer ts total w) fun released =>
      w.Leaves P released.2 := by
  induction ts generalizing w total with
  | nil => exact .pure (.refl _ w)
  | cons t rest ih =>
    unfold releaseTokens
    dsimp only
    split
    · refine (drainToken_leaves w free).bind fun w₁ h₁ => .skip fun _ => ?_
      exact (ih w₁).mono fun _ => h₁.trans
    · exact ih w

theorem drainTokens_leaves {e : Symbol} {organizer : Address} {ts : List Address}
    {found : Bool} : Yields (drainTokens env e organizer ts found w) fun drained =>
      w.Leaves P drained.2 := by
  induction ts generalizing w found with
  | nil => exact .pure (.refl _ w)
  | cons t rest ih =>
    unfold drainTokens
    dsimp only
    split
    · exact (drainToken_leaves w free).bind fun w₁ h₁ => (ih _).mono fun _ => h₁.trans
    · exact ih w

theorem ensureSplitSettled_leaves {e : Symbol} :
    Yields (ensureSplitSettled env e w) fun settled => w.Leaves P settled.2 := by
  unfold ensureSplitSettled
  split
  · exact .pure (.refl _ w)
  · refine .skip fun config => .skip fun ratio => ?_
    refine (validateRevenueInvariant_leaves w (free_of_swept free)).bind fun w₁ h₁ => ?_
    iterate 9 refine .skip fun _ => ?_
    refine (shiftEventRevenue_leaves _ free).bind fun w₂ h₂ => ?_
    refine (collectPlatformFee_leaves _ free).bind fun w₃ h₃ => .pure ?_
    exact h₁.trans ((World.Leaves.set _ (free _ rfl)).trans
      (h₂.trans (h₃.trans (.set _ (free _ rfl)))))

end Payouts

section Resale

variable (w : World) (free : ∀ k : DataKey, k.IsRoutine = true → P k = false)

include free

theorem settleResale_leaves {buyer : Address} {id : ℕ} {ticket : Ticket} {config : EventConfig}
    {listing : ResaleListing} :
    Yields (settleResale env buyer id ticket config listing w) (w.Leaves P) := by
  unfold settleResale
  split
  · refine .skip fun terms => .andThen (transfer_leaves w) fun w => .andThen ?_ fun w =>
      .andThen ?_ fun w => ?_
    · unfold paySeller
      split
      · exact transfer_leaves w
      · exact .pure (.refl _ w)
    · unfold creditPlatform
      split
      · exact written_leaves (free _ rfl)
      · exact .pure (.refl _ w)
    · unfold creditRoyalty
      split
      · exact .andThen (addEventRevenue_leaves w free) fun w => written_leaves (free _ rfl)
      · exact .pure (.refl _ w)
  · exact .pure (.refl _ w)

end Resale

section Calls

def Call.Lists : Call → Bool
  | .listTicketForResale .. | .delistTicket .. => true
  | _ => false

def Call.Enlists : Call → Bool
  | .migrateEvent .. => true
  | _ => false

def Call.WritesAside : Call → Bool
  | .payForTicket .. | .payForTicketWithCommitment .. | .payForTicketWithOptions ..
  | .buyResaleTicket .. | .syncEventPrivacy .. | .setPaused .. => true
  | _ => false

variable (w : World) (free : ∀ k : DataKey, k.IsRoutine = true → P k = false)

include free

theorem migratePayments_leaves (tokens : ∀ k : DataKey, k.IsTokenEntry = true → P k = false)
    {e : Symbol} {ids : List ℕ} {index : ℕ} {totals refunds : ℤ} :
    Yields (migratePayments e ids index totals refunds w) fun migrated =>
      w.Leaves P migrated.2.2 := by
  have one {index id : ℕ} {totals refunds : ℤ} (w : World) :
      Yields (migratePayment e index id totals refunds w) fun migrated =>
        w.Leaves P migrated.2.2 := by
    unfold migratePayment
    have indexed : w.Leaves P (w.set (.eventPaymentIndex e index) id) := .set _ (free _ rfl)
    dsimp only
    split
    · exact .pure indexed
    · refine .skip fun _ => .skip fun _ => ?_
      refine .bind (written_leaves (free _ rfl)) fun w₁ h₁ => ?_
      refine (addEventToken_leaves w₁ tokens).bind fun w₂ h₂ => ?_
      refine .bind (P := w₂.Leaves P) ?_ fun w₃ h₃ => .pure ?_
      · unfold countMigratedRefund
        split
        · exact written_leaves (free _ rfl)
        · exact .pure (.refl _ w₂)
      · exact indexed.trans (h₁.trans (h₂.trans h₃))
  induction ids generalizing w index totals refunds with
  | nil => exact .pure (.refl _ w)
  | cons id rest ih =>
    exact (one w).bind fun migrated h => (ih migrated.2.2).mono fun _ => h.trans

theorem migrateWithdrawn_leaves {e : Symbol} {withdrawn : ℤ} :
    Yields (migrateWithdrawn w e withdrawn) (w.Leaves P) := by
  unfold migrateWithdrawn
  split
  · refine .skip fun _ => ?_
    split
    · exact .pure (.refl _ w)
    · exact written_leaves (free _ rfl)
  · exact .pure (.refl _ w)

theorem migrateEvent_leaves (tokens : ∀ k : DataKey, k.IsTokenEntry = true → P k = false)
    {admin : Address} {e : Symbol} :
    Yields (migrateEvent env admin e w) (w.Leaves P) := by
  iterate 4 refine .skip fun _ => ?_
  refine (migratePayments_leaves w free tokens).bind fun migrated h => .after h (.skip fun _ => ?_)
  refine .after ?_ (.andThen (migrateWithdrawn_leaves _ free) fun w =>
    .after (.remove (free _ rfl)) (validateRevenueInvariant_leaves _ (free_of_swept free)))
  exact .trans (.set _ (free _ rfl)) (.trans (.set _ (free _ rfl))
    (.trans (.set _ (free _ rfl)) (.set _ (free _ rfl))))

theorem reassignToPrimary_leaves {e : Symbol} {recipient : Address} {splits : List RevenueSplit} :
    Yields (reassignToPrimary env e recipient splits w) (w.Leaves P) := by
  refine .skip fun _ => (ensureSplitSettled_leaves w free).bind fun settled h => ?_
  refine .after h ?_
  iterate 3 refine .skip fun _ => ?_
  refine .andThen (transfer_leaves _) fun w => ?_
  refine .after ((World.Leaves.set _ (free _ rfl)).trans (.set _ (free _ rfl)))
    (.andThen (bookWithdrawal_leaves _ free) ?_)
  exact fun w => .pure (.refl _ w)

/-- What a call leaves that writes no entry aside; two of them write a listing, one enlists. -/
theorem exec_leaves {c : Call} (other : c.WritesAside = false)
    (listed : c.Lists = true → ∀ id, P (.resaleListing id) = false)
    (enlists : c.Enlists = true → ∀ k : DataKey, k.IsTokenEntry = true → P k = false) :
    Yields (c.exec env w) (w.Leaves P) := by
  cases c with
  | payForTicket | payForTicketWithCommitment | payForTicketWithOptions | buyResaleTicket
  | syncEventPrivacy | setPaused => cases other
  | initialise =>
    simp only [Call.exec, initializeContract]
    split
    · exact .pure (.refl _ w)
    · refine .skip fun _ => .pure ?_
      exact .trans (.set _ (free _ rfl)) (.trans (.set _ (free _ rfl)) (.trans (.set _ (free _ rfl))
        (.trans (.set _ (free _ rfl)) (.set _ (free _ rfl)))))
  | addSupportedToken =>
    iterate 3 refine .skip fun _ => ?_
    exact .pure (.set _ (free _ rfl))
  | setEventStatus => exact .skip fun _ => .skip fun _ => .pure (.set _ (free _ rfl))
  | syncEventConfig =>
    iterate 4 refine .skip fun _ => ?_
    split
    · exact .pure (.set _ (free _ rfl))
    · exact .skip fun _ => .skip fun _ => .pure (.set _ (free _ rfl))
  | refund =>
    iterate 10 refine .skip fun _ => ?_
    exact payRefund_leaves w free
  | claimRefund =>
    iterate 12 refine .skip fun _ => ?_
    exact payRefund_leaves w free
  | requestPostponementRefund =>
    iterate 16 refine .skip fun _ => ?_
    exact payRefund_leaves w free
  | extendWithdrawalDelay =>
    iterate 3 refine .skip fun _ => ?_
    exact .pure (.set _ (free _ rfl))
  | cancelEvent =>
    refine .skip fun _ => ?_
    exact .pure ((World.Leaves.set _ (free _ rfl)).trans (.set _ (free _ rfl)))
  | postponeEvent =>
    iterate 2 refine .skip fun _ => ?_
    exact .pure ((World.Leaves.set _ (free _ rfl)).trans (.set _ (free _ rfl)))
  | resumeEvent =>
    iterate 3 refine .skip fun _ => ?_
    exact .pure ((World.Leaves.set _ (free _ rfl)).trans (.remove (free _ rfl)))
  | setEventEndTime => exact .skip fun _ => .skip fun _ => .pure (.set _ (free _ rfl))
  | setPlatformFee =>
    iterate 4 refine .skip fun _ => ?_
    exact .pure ((World.Leaves.set _ (free _ rfl)).trans (.set _ (free _ rfl)))
  | setEventPrivacy => exact .skip fun _ => .skip fun _ => .pure (.set _ (free _ rfl))
  | migrate =>
    refine .bind (P := fun migrated => w.Leaves P migrated.2) ?_ fun _ h => .pure h
    iterate 5 refine .skip fun _ => ?_
    exact .pure (.set _ (free _ rfl))
  | setTicketContract => exact .skip fun _ => .pure (.set _ (free _ rfl))
  | withdraw =>
    iterate 8 refine .skip fun _ => ?_
    refine .andThen (validateRevenueInvariant_leaves w (free_of_swept free)) fun w => ?_
    iterate 7 refine .skip fun _ => ?_
    refine .andThen (transfer_leaves _) fun w => ?_
    refine .andThen (collectPlatformFee_leaves w free) fun w => ?_
    refine .andThen (deductRevenue_leaves w free) fun w => ?_
    refine .after (.set _ (free _ rfl)) (.andThen (bookWithdrawal_leaves _ free) fun w => ?_)
    exact .pure (.refl _ w)
  | releaseIfExpired =>
    iterate 7 refine .skip fun _ => ?_
    refine .andThen (validateRevenueInvariant_leaves w (free_of_swept free)) fun w => ?_
    exact (releaseTokens_leaves w free).bind fun released h => .pure (h.trans (.set _ (free _ rfl)))
  | withdrawRevenue =>
    iterate 6 refine .skip fun _ => ?_
    refine .andThen (validateRevenueInvariant_leaves w (free_of_swept free)) fun w => ?_
    iterate 4 refine .skip fun _ => ?_
    refine .andThen (transfer_leaves _) fun w => ?_
    refine .andThen (collectPlatformFee_leaves w free) fun w => ?_
    refine .after (.set _ (free _ rfl)) (.andThen (shiftEventRevenue_leaves _ free) fun w => ?_)
    refine .after ?_ (.andThen (bookWithdrawal_leaves _ free) fun w => .pure (.refl _ w))
    unfold latchWithdrawn
    split
    · exact .set _ (free _ rfl)
    · exact .refl _ w
  | withdrawPlatformRevenue =>
    iterate 6 refine .skip fun _ => ?_
    refine .andThen (transfer_leaves _) fun w => .andThen (written_leaves (free _ rfl)) fun w => ?_
    exact .pure (.set _ (free _ rfl))
  | migrateEvent => exact migrateEvent_leaves w free (enlists rfl)
  | withdrawToken =>
    iterate 4 refine .skip fun _ => ?_
    refine .andThen (validateRevenueInvariant_leaves w (free_of_swept free)) fun w => ?_
    refine .skip fun _ => ?_
    exact .andThen (drainToken_leaves w free) fun w => .pure (.refl _ w)
  | withdrawAllTokens =>
    iterate 4 refine .skip fun _ => ?_
    refine .andThen (validateRevenueInvariant_leaves w (free_of_swept free)) fun w => ?_
    exact (drainTokens_leaves w free).bind fun drained h => .skip fun _ => .pure h
  | syncRevenueSplits =>
    iterate 10 refine .skip fun _ => ?_
    exact .pure (.set _ (free _ rfl))
  | withdrawSplit =>
    iterate 6 refine .skip fun _ => ?_
    refine (ensureSplitSettled_leaves w free).bind fun settled h => .after h ?_
    iterate 2 refine .skip fun _ => ?_
    refine .andThen (transfer_leaves _) fun w => ?_
    refine .after (.set _ (free _ rfl)) (.andThen (bookWithdrawal_leaves _ free) fun w => ?_)
    exact .pure (.refl _ w)
  | flagCohost =>
    iterate 7 refine .skip fun _ => ?_
    exact .pure (.set _ (free _ rfl))
  | resolveFlaggedShare =>
    iterate 6 refine .skip fun _ => ?_
    split
    · exact .pure (.set _ (free _ rfl))
    · exact reassignToPrimary_leaves w free
  | bindEmailCommitment =>
    iterate 6 refine .skip fun _ => ?_
    exact .andThen (written_leaves (free _ rfl)) fun w => .pure (.refl _ w)
  | listTicketForResale =>
    iterate 10 refine .skip fun _ => ?_
    exact .pure (.set _ (listed rfl _))
  | delistTicket =>
    iterate 4 refine .skip fun _ => ?_
    exact .pure (.remove (listed rfl _))
  | raiseDispute =>
    iterate 10 refine .skip fun _ => ?_
    refine .andThen (written_leaves (free _ rfl)) fun w => ?_
    refine .andThen (shiftEventRevenue_leaves w free) fun w => ?_
    refine .skip fun _ => .pure ?_
    exact .trans (.set _ (free _ rfl)) (.trans (.set _ (free _ rfl)) (.set _ (free _ rfl)))
  | approveRefund =>
    iterate 9 refine .skip fun _ => ?_
    refine .andThen (transfer_leaves _) fun w => .skip fun _ => ?_
    refine .andThen (written_leaves (free _ rfl)) fun w => ?_
    refine .andThen (written_leaves (free _ rfl)) fun w => ?_
    refine .andThen (written_leaves (free _ rfl)) fun w => ?_
    exact .pure (closeDispute_leaves w free)
  | rejectDispute =>
    iterate 6 refine .skip fun _ => ?_
    refine .andThen (written_leaves (free _ rfl)) fun w => ?_
    refine .andThen (shiftEventRevenue_leaves w free) fun w => ?_
    refine .skip fun _ => .pure ?_
    exact .trans (.set _ (free _ rfl)) (closeDispute_leaves _ free)
  | processDisputeTimeouts =>
    exact processTimedOutDisputes_leaves w fun k swept =>
      free_of_swept free k (k.swept_of_event swept)

omit free in
theorem exec_spares {c : Call} (other : c.WritesAside = false) : w.Spares (c.exec env w) :=
  exec_leaves w aside_free other (fun _ _ => rfl) fun _ => aside_of_token

end Calls

end Zicket.Payments
