import Zicket.Escrow.Log

/-! Totals over the payment records: what each posting adds to them, and their agreement
with the counters that the contract keeps by hand. -/

namespace Zicket.Payments

open Host Foundation

def Records.total (r : Records) (f : PaymentRecord → ℤ) : ℤ := tableSum r.payments r.payment f

def ofEvent (f : PaymentRecord → ℤ) (e : Symbol) (p : PaymentRecord) : ℤ :=
  if e = p.eventId then f p else 0

def inToken (f : PaymentRecord → ℤ) (e : Symbol) (t : Address) (p : PaymentRecord) : ℤ :=
  if e = p.eventId ∧ t = p.token then f p else 0

theorem inToken_mono {f g : PaymentRecord → ℤ} {p : PaymentRecord} (h : f p ≤ g p) (e : Symbol)
    (t : Address) : inToken f e t p ≤ inToken g e t p := by
  unfold inToken
  split
  · exact h
  · exact le_rfl

theorem inToken_nonneg {f : PaymentRecord → ℤ} {p : PaymentRecord} (h : 0 ≤ f p) (e : Symbol)
    (t : Address) : 0 ≤ inToken f e t p := by
  unfold inToken
  split
  · exact h
  · exact le_rfl

def Posting.change (f : PaymentRecord → ℤ) : Posting → ℤ
  | .sale p _ _ => f p
  | .refund p _ x status => f { p with refundedAmount := p.refundedAmount + x, status } - f p
  | .freeze p _ => f { p with status := .disputed } - f p
  | .unfreeze p => f { p with status := .held } - f p
  | .approve p _ => f { p with refundedAmount := p.amount, status := .refunded } - f p
  | .bindReceipt p commitment => f { p with zkEmailCommitment := some commitment } - f p
  | _ => 0

theorem Recorded.total_amend {r : Records} (h : Recorded r) {p : PaymentRecord}
    (stored : r.payment p.paymentId = some p) (q : PaymentRecord) (f : PaymentRecord → ℤ) :
    tableSum r.payments (Function.update r.payment p.paymentId (some q)) f =
      r.total f + (f q - f p) := by
  obtain ⟨-, pos, le⟩ := h.numbered _ p stored
  exact tableSum_update q f stored pos le

theorem Recorded.finsum_eq_total {r : Records} (h : Recorded r) (f : PaymentRecord → ℤ) :
    ∑ᶠ k, (r.payment k).elim 0 f = r.total f := by
  refine finsum_eq_tableSum _ _ _ fun k p hp => ?_
  exact (h.numbered k p hp).2

namespace Book

variable {b : Book} {self : Address}

theorem post_total (h : Recorded b.toRecords) {posting : Posting} (sound : Sound self b posting)
    (f : PaymentRecord → ℤ) : (b.post self posting).total f = b.total f + posting.change f := by
  cases posting with
  | sale p ticket payer =>
    have appended := tableSum_append b.payments b.payment f p
    rw [← sound.next] at appended
    exact appended
  | refund p payer x status => exact h.total_amend sound.stored _ f
  | freeze p d => exact h.total_amend sound.stored _ f
  | unfreeze p => exact h.total_amend sound.stored _ f
  | approve p payer => exact h.total_amend sound.1.stored _ f
  | bindReceipt p commitment => exact h.total_amend sound _ f
  | resale ticket t price fee royalty buyer seller =>
    have records :=
      (recordResale_frame self b ticket t price (price - fee - royalty) buyer seller).1
    exact (congrArg (Records.total · f) records).trans (add_zero _).symm
  | _ => exact (add_zero _).symm

end Book

/-- The counters of the contract are the totals of what they summarise. -/
structure Summed (b : Book) : Prop where
  volume : ∀ e t, b.volume e t = b.total (inToken (·.amount) e t)
  refunds : ∀ e t, b.refunds e t = b.total (inToken (·.refundedAmount) e t)
  totalPayments : ∀ e, b.totalPayments e = b.total (ofEvent (·.amount) e)
  totalRefunds : ∀ e, b.totalRefunds e = b.total (ofEvent (·.refundedAmount) e)

section Counters

variable {b : Book} {self : Address} {posting : Posting}

theorem put_add_eq {f : Symbol → Address → ℤ} {e' : Symbol} {t' : Address} {x y : ℤ} {e : Symbol}
    {t : Address} (same : (if e = e' ∧ t = t' then x else 0) = y) :
    put f e' t' (f e' t' + x) e t = f e t + y := by
  rw [← same, put_apply]
  split
  · rename_i here
    rw [here.1, here.2]
  · rw [add_zero]

theorem update_add_eq {f : Symbol → ℤ} {e' : Symbol} {x y : ℤ} {e : Symbol}
    (same : (if e = e' then x else 0) = y) :
    Function.update f e' (f e' + x) e = f e + y := by
  rw [← same]
  by_cases he : e = e'
  · subst he
    simp
  · simp [he]

theorem inToken_refunded (p : PaymentRecord) (refundedAmount : ℤ) (status : PaymentStatus)
    (e : Symbol) (t : Address) :
    inToken (·.refundedAmount) e t { p with refundedAmount, status } -
        inToken (·.refundedAmount) e t p =
      if e = p.eventId ∧ t = p.token then refundedAmount - p.refundedAmount else 0 := by
  unfold inToken
  split
  · rfl
  · exact sub_zero 0

theorem ofEvent_refunded (p : PaymentRecord) (refundedAmount : ℤ) (status : PaymentStatus)
    (e : Symbol) :
    ofEvent (·.refundedAmount) e { p with refundedAmount, status } - ofEvent (·.refundedAmount) e p =
      if e = p.eventId then refundedAmount - p.refundedAmount else 0 := by
  unfold ofEvent
  split
  · rfl
  · exact sub_zero 0

theorem Book.post_counters (sound : Book.Sound self b posting)
    (counted : ∀ counters, posting ≠ .recount counters) :
    (∀ e t, (b.post self posting).volume e t =
        b.volume e t + posting.change (inToken (·.amount) e t)) ∧
      (∀ e t, (b.post self posting).refunds e t =
        b.refunds e t + posting.change (inToken (·.refundedAmount) e t)) ∧
      (∀ e, (b.post self posting).totalPayments e =
        b.totalPayments e + posting.change (ofEvent (·.amount) e)) ∧
      ∀ e, (b.post self posting).totalRefunds e =
        b.totalRefunds e + posting.change (ofEvent (·.refundedAmount) e) := by
  cases posting with
  | sale p ticket payer =>
    refine ⟨fun e t => put_add_eq rfl, fun e t => ?_, fun e => update_add_eq rfl, fun e => ?_⟩
    · simp [post, Posting.change, inToken, sound.unrefunded, addRevenue, putPayment, record]
    · simp [post, Posting.change, ofEvent, sound.unrefunded, addRevenue, putPayment, record]
  | refund p payer x status =>
    refine ⟨fun e t => ?_, fun e t => put_add_eq ?_, fun e => ?_, fun e => update_add_eq ?_⟩
    · exact (add_zero _).symm.trans (congrArg _ (sub_self _).symm)
    · rw [Posting.change, inToken_refunded, add_sub_cancel_left]
    · exact (add_zero _).symm.trans (congrArg _ (sub_self _).symm)
    · rw [Posting.change, ofEvent_refunded, add_sub_cancel_left]
  | approve p payer =>
    refine ⟨fun e t => ?_, fun e t => put_add_eq ?_, fun e => ?_, fun e => update_add_eq ?_⟩
    · exact (add_zero _).symm.trans (congrArg _ (sub_self _).symm)
    · rw [Posting.change, inToken_refunded]
    · exact (add_zero _).symm.trans (congrArg _ (sub_self _).symm)
    · rw [Posting.change, ofEvent_refunded]
  | freeze | unfreeze | bindReceipt =>
    -- neither the amount nor what was refunded of it is touched
    refine ⟨fun e t => ?_, fun e t => ?_, fun e => ?_, fun e => ?_⟩ <;>
      exact (add_zero _).symm.trans (congrArg _ (sub_self _).symm)
  | resale ticket t' price fee royalty buyer seller =>
    have counters := (recordResale_frame self b ticket t' price (price - fee - royalty)
      buyer seller).2.2.2
    refine ⟨fun e t => ?_, fun e t => ?_, fun e => ?_, fun e => ?_⟩ <;>
      refine Eq.trans ?_ (add_zero _).symm
    · exact congrArg (Counters.volume · e t) counters
    · exact congrArg (Counters.refunds · e t) counters
    · exact congrArg (Counters.totalPayments · e) counters
    · exact congrArg (Counters.totalRefunds · e) counters
  | recount counters => exact absurd rfl (counted counters)
  | _ => exact ⟨fun _ _ => (add_zero _).symm, fun _ _ => (add_zero _).symm,
      fun _ => (add_zero _).symm, fun _ => (add_zero _).symm⟩

theorem Summed.post (h : Summed b) (recorded : Recorded b.toRecords)
    (sound : Book.Sound self b posting) (counted : ∀ counters, posting ≠ .recount counters) :
    Summed (b.post self posting) := by
  obtain ⟨volume, refunds, totalPayments, totalRefunds⟩ := Book.post_counters sound counted
  have total := Book.post_total recorded sound
  exact
    { volume := fun e t => by rw [volume, total, h.volume]
      refunds := fun e t => by rw [refunds, total, h.refunds]
      totalPayments := fun e => by rw [totalPayments, total, h.totalPayments]
      totalRefunds := fun e => by rw [totalRefunds, total, h.totalRefunds] }

end Counters

end Zicket.Payments
