import Zicket.Escrow.Totals

/-! The held revenue of an event in a token: what each posting adds to it, and how it
compares with what the payments still have in escrow. -/

namespace Zicket.Payments

open Host Foundation Book

namespace PaymentRecord

def unrefunded (p : PaymentRecord) : ℤ := p.amount - p.refundedAmount

/-- What a payment has in its event's revenue: a disputed one was taken out of it. -/
def unfrozen (p : PaymentRecord) : ℤ := if p.status = .disputed then 0 else p.unrefunded

def frozen (p : PaymentRecord) : ℤ := if p.status = .disputed then p.amount else 0

end PaymentRecord

def Book.revenueChange (b : Book) (e : Symbol) (t : Address) : Posting → ℤ
  | .sale p _ _ | .unfreeze p => inToken (·.amount) e t p
  | .refund p _ x _ => -inToken (fun _ => x) e t p
  | .freeze p _ => -inToken (·.amount) e t p
  | .payout e' t' _ _ _ left _ _ | .settle e' t' _ _ _ left =>
    if e = e' ∧ t = t' then left - b.revenue e t else 0
  | .resale ticket t' _ _ royalty _ _ => if e = ticket.eventId ∧ t = t' then royalty else 0
  | _ => 0

theorem inToken_neg (f : PaymentRecord → ℤ) (e : Symbol) (t : Address) (p : PaymentRecord) :
    inToken (fun p => -f p) e t p = -inToken f e t p := by
  unfold inToken
  split
  · rfl
  · exact neg_zero.symm

theorem Book.post_revenue (self : Address) (b : Book) (e : Symbol) (t : Address)
    (posting : Posting) :
    (b.post self posting).revenue e t = b.revenue e t + b.revenueChange e t posting := by
  have out : ∀ (e' : Symbol) (t' : Address) (left : ℤ), put b.revenue e' t' left e t =
      b.revenue e t + if e = e' ∧ t = t' then left - b.revenue e t else 0 := by
    intro e' t' left
    rw [put_apply]
    split
    · rename_i here
      rw [here.1, here.2]
      ring
    · rw [add_zero]
  cases posting with
  | sale p ticket payer => exact put_add_eq rfl
  | unfreeze p => exact put_add_eq rfl
  | refund p payer x status => exact put_add_eq (inToken_neg (fun _ => x) e t p)
  | freeze p d => exact put_add_eq (inToken_neg (·.amount) e t p)
  | payout e' t' pool total net left dst time => exact out e' t' left
  | settle e' t' pool total net left => exact out e' t' left
  | resale ticket t' price fee royalty buyer seller =>
    have accounts :=
      (recordResale_frame self b ticket t' price (price - fee - royalty) buyer seller).2.2.1
    have revenue := congrArg Accounts.revenue accounts
    change put (recordResale self b ticket t' price (price - fee - royalty) buyer seller).revenue
      ticket.eventId t' _ e t = _
    rw [revenue]
    exact put_add_eq rfl
  | _ => exact (add_zero _).symm

section Exact

/-- Revenue of the event in the token was paid out, or settled for its split recipients. -/
def Book.PaidOut (b : Book) (e : Symbol) (t : Address) : Prop :=
  (∃ tr ∈ b.transfers, tr.eventId = e ∧ tr.token = t ∧ tr.purpose = .revenue) ∨
    ∃ s, b.settlement e = some s ∧ s.token = t

def Book.FrozenWhole (b : Book) (e : Symbol) (t : Address) : Prop :=
  ∀ k p, b.payment k = some p → p.eventId = e → p.token = t → p.status = .disputed →
    p.refundedAmount = 0

structure Exact (e : Symbol) (t : Address) (b : Book) : Prop where
  revenue : b.revenue e t = b.total (inToken (·.unfrozen) e t)
  frozen : ∀ k p, b.payment k = some p → p.eventId = e → p.token = t → p.status = .disputed →
    p.refundedAmount = 0

variable {b : Book} {self : Address} {e : Symbol} {t : Address} {posting : Posting}

theorem post_paidOut (sound : Sound self b posting) (h : b.PaidOut e t) :
    (b.post self posting).PaidOut e t := by
  obtain ⟨tr, mem, paid⟩ | ⟨s, settled, token⟩ := h
  · exact .inl ⟨tr, by rw [post_transfers]; exact List.mem_append_right _ mem, paid⟩
  · refine .inr ⟨s, ?_, token⟩
    cases posting with
    | settle e' t' pool total net left =>
      have other : e ≠ e' := by
        rintro rfl
        rw [sound.unsettled] at settled
        cases settled
      exact (Function.update_of_ne other ..).trans settled
    | resale ticket t price fee royalty buyer seller =>
      have accounts :=
        (recordResale_frame self b ticket t price (price - fee - royalty) buyer seller).2.2.1
      have settlement := congrArg (Accounts.settlement · e) accounts
      exact settlement.trans settled
    | _ => exact settled

theorem inToken_congr {f g : PaymentRecord → ℤ} {p : PaymentRecord}
    (same : e = p.eventId → t = p.token → f p = g p) : inToken f e t p = inToken g e t p := by
  unfold inToken
  split
  · rename_i here
    exact same here.1 here.2
  · rfl

theorem inToken_sub {f g : PaymentRecord → ℤ} {p q : PaymentRecord}
    (gain : e = p.eventId → t = p.token → f q - f p = g p)
    (event : q.eventId = p.eventId := by rfl) (token : q.token = p.token := by rfl) :
    inToken g e t p = inToken f e t q - inToken f e t p := by
  unfold inToken
  rw [event, token]
  split
  · rename_i here
    exact (gain here.1 here.2).symm
  · exact (sub_zero 0).symm

theorem revenueChange_eq (whole : b.FrozenWhole e t) (sound : Sound self b posting)
    (unrefunded : ∀ p d, posting = .freeze p d → p.eventId = e → p.token = t → p.refundedAmount = 0)
    (unsold : posting.entry ≠ .resale)
    (unpaid : posting.entry ≠ .payout ∧ posting.entry ≠ .settle) :
    b.revenueChange e t posting = posting.change (inToken (·.unfrozen) e t) := by
  cases posting with
  | sale p ticket payer =>
    refine inToken_congr fun _ _ => ?_
    simp [PaymentRecord.unfrozen, PaymentRecord.unrefunded, sound.held, sound.unrefunded]
  | refund p payer x status =>
    rw [revenueChange, Posting.change, ← inToken_neg]
    refine inToken_sub fun _ _ => ?_
    have undisputed : status ≠ .disputed := by
      obtain rfl | ⟨rfl, -⟩ := sound.status <;> simp
    simp only [PaymentRecord.unfrozen, PaymentRecord.unrefunded, sound.held, if_neg undisputed,
      reduceCtorEq, if_false]
    ring
  | freeze p d =>
    rw [revenueChange, Posting.change, ← inToken_neg]
    refine inToken_sub fun event token => ?_
    have fresh := unrefunded p d rfl event.symm token.symm
    simp [PaymentRecord.unfrozen, PaymentRecord.unrefunded, sound.held, fresh]
  | unfreeze p =>
    refine inToken_sub fun event token => ?_
    have fresh := whole _ p sound.stored event.symm token.symm sound.disputed
    simp [PaymentRecord.unfrozen, PaymentRecord.unrefunded, sound.disputed, fresh]
  | approve p payer =>
    have none : inToken (fun _ => 0) e t p = 0 := ite_self 0
    refine none.symm.trans (inToken_sub fun _ _ => ?_)
    simp [PaymentRecord.unfrozen, PaymentRecord.unrefunded, sound.1.disputed]
  | bindReceipt p commitment => exact (sub_self _).symm
  | payout => exact absurd rfl unpaid.1
  | settle => exact absurd rfl unpaid.2
  | resale => exact absurd rfl unsold
  | _ => rfl

theorem post_disputed (sound : Sound self b posting) {k : ℕ} {q : PaymentRecord}
    (stored : (b.post self posting).payment k = some q) (disputed : q.status = .disputed) :
    (∃ p, b.payment k = some p ∧ p.status = .disputed ∧ p.eventId = q.eventId ∧
        p.token = q.token ∧ p.refundedAmount = q.refundedAmount) ∨
      ∃ p d, posting = .freeze p d ∧ q = { p with status := .disputed } := by
  have old (stored : b.payment k = some q) : ∃ p, b.payment k = some p ∧ p.status = .disputed ∧
      p.eventId = q.eventId ∧ p.token = q.token ∧ p.refundedAmount = q.refundedAmount :=
    ⟨q, stored, disputed, rfl, rfl, rfl⟩
  cases posting with
  | sale p ticket payer =>
    obtain ⟨-, rfl⟩ | ⟨-, stored⟩ := update_eq_some.mp stored
    · rw [sound.held] at disputed
      cases disputed
    · exact .inl (old stored)
  | refund p payer x status =>
    obtain ⟨-, rfl⟩ | ⟨-, stored⟩ := update_eq_some.mp stored
    · obtain final | ⟨held, -⟩ := sound.status <;> simp_all
    · exact .inl (old stored)
  | freeze p d =>
    obtain ⟨-, rfl⟩ | ⟨-, stored⟩ := update_eq_some.mp stored
    · exact .inr ⟨p, d, rfl, rfl⟩
    · exact .inl (old stored)
  | unfreeze p =>
    obtain ⟨-, rfl⟩ | ⟨-, stored⟩ := update_eq_some.mp stored
    · cases disputed
    · exact .inl (old stored)
  | approve p payer =>
    obtain ⟨-, rfl⟩ | ⟨-, stored⟩ := update_eq_some.mp stored
    · cases disputed
    · exact .inl (old stored)
  | bindReceipt p commitment =>
    obtain ⟨rfl, rfl⟩ | ⟨-, stored⟩ := update_eq_some.mp stored
    · exact .inl ⟨p, sound, disputed, rfl, rfl, rfl⟩
    · exact .inl (old stored)
  | resale ticket t price fee royalty buyer seller =>
    have records :=
      (recordResale_frame self b ticket t price (price - fee - royalty) buyer seller).1
    exact .inl (old ((congrArg (Records.payment · k) records).symm.trans stored))
  | _ => exact .inl (old stored)

theorem post_frozenWhole (whole : b.FrozenWhole e t) (sound : Sound self b posting)
    (unrefunded : ∀ p d, posting = .freeze p d → p.eventId = e → p.token = t →
      p.refundedAmount = 0) : (b.post self posting).FrozenWhole e t := by
  intro k q stored event token disputed
  obtain ⟨p, old, frozen, event', token', same⟩ | ⟨p, d, rfl, rfl⟩ :=
    post_disputed sound stored disputed
  · exact same.symm.trans (whole k p old (event'.trans event) (token'.trans token) frozen)
  · exact unrefunded p d rfl event token

/-- Until a payout the revenue stays exact, if only unrefunded payments are disputed. -/
theorem post_exact (recorded : Recorded b.toRecords) (h : Exact e t b)
    (sound : Sound self b posting)
    (unrefunded : ∀ p d, posting = .freeze p d → p.eventId = e → p.token = t → p.refundedAmount = 0)
    (unsold : posting.entry ≠ .resale) :
    (b.post self posting).PaidOut e t ∨ Exact e t (b.post self posting) := by
  have exact_of (change : b.revenueChange e t posting = posting.change (inToken (·.unfrozen) e t)) :
      Exact e t (b.post self posting) := by
    refine ⟨?_, post_frozenWhole h.frozen sound unrefunded⟩
    rw [post_revenue, post_total recorded sound, h.revenue, change]
  by_cases unpaid : posting.entry ≠ .payout ∧ posting.entry ≠ .settle
  · exact .inr (exact_of (revenueChange_eq h.frozen sound unrefunded unsold unpaid))
  · cases posting with
    | payout e' t' pool total net left dst time =>
      by_cases here : e = e' ∧ t = t'
      · obtain ⟨rfl, rfl⟩ := here
        exact .inl (.inl ⟨_, List.mem_cons_self, rfl, rfl, rfl⟩)
      · exact .inr (exact_of (if_neg here))
    | settle e' t' pool total net left =>
      by_cases here : e = e' ∧ t = t'
      · obtain ⟨rfl, rfl⟩ := here
        exact .inl (.inr ⟨_, Function.update_self .., rfl⟩)
      · exact .inr (exact_of (if_neg here))
    | _ => exact absurd ⟨by simp [Posting.entry], by simp [Posting.entry]⟩ unpaid

end Exact

end Zicket.Payments
