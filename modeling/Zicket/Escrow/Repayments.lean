import Zicket.Escrow.Log

/-! What went back to the payer of one payment: the log entries of its refunds, and the
life of its record, in which `Refunded` is final. -/

namespace Zicket.Payments

open Host Foundation

def Transfer.refundOf (k : ℕ) (tr : Transfer) : ℤ :=
  if tr.purpose = .refund k then tr.amount else 0

/-- The transfer is the sale of the payment `k`, or a refund of it. -/
def Transfer.concerns (k : ℕ) (tr : Transfer) : Bool :=
  tr.purpose = .ticketPayment k || tr.purpose = .refund k

/-- The record of one payment, at two times: the terms of the sale never change. -/
structure PaymentRecord.Follows (p q : PaymentRecord) : Prop where
  terms : { q with
    status := p.status
    refundedAmount := p.refundedAmount
    zkEmailCommitment := p.zkEmailCommitment } = p
  final : p.status = .refunded → q.status = .refunded ∧ q.refundedAmount = p.refundedAmount

namespace PaymentRecord.Follows

variable {p q : PaymentRecord}

theorem refl (p : PaymentRecord) : p.Follows p := ⟨rfl, fun h => ⟨h, rfl⟩⟩

theorem payer (h : p.Follows q) : q.payer = p.payer := (congrArg PaymentRecord.payer h.terms :)

theorem token (h : p.Follows q) : q.token = p.token := (congrArg PaymentRecord.token h.terms :)

theorem eventId (h : p.Follows q) : q.eventId = p.eventId :=
  (congrArg PaymentRecord.eventId h.terms :)

theorem privacyLevel (h : p.Follows q) : q.privacyLevel = p.privacyLevel :=
  (congrArg PaymentRecord.privacyLevel h.terms :)

theorem trans {r : PaymentRecord} (h : p.Follows q) (h' : q.Follows r) : p.Follows r where
  terms := by
    have step := congrArg (fun q : PaymentRecord =>
      { q with
        status := p.status
        refundedAmount := p.refundedAmount
        zkEmailCommitment := p.zkEmailCommitment }) h'.terms
    exact step.trans h.terms
  final refunded := by
    obtain ⟨status, same⟩ := h.final refunded
    obtain ⟨status', same'⟩ := h'.final status
    exact ⟨status', same'.trans same⟩

end PaymentRecord.Follows

namespace Book

variable {b : Book} {self : Address} {posting : Posting}

theorem post_payment (sound : Sound self b posting) {k : ℕ} {p : PaymentRecord} (stored : b.payment k = some p) :
    ∃ q, (b.post self posting).payment k = some q ∧ p.Follows q := by
  have rewritten : ∀ (q p' : PaymentRecord), b.payment p'.paymentId = some p' →
      p'.Follows q →
      ∃ q', Function.update b.payment p'.paymentId (some q) k = some q' ∧ p.Follows q' := by
    intro q p' stored' follows
    by_cases hk : k = p'.paymentId
    · subst hk
      rw [stored] at stored'
      cases stored'
      exact ⟨q, Function.update_self .., follows⟩
    · exact ⟨p, by rw [Function.update_of_ne hk, stored], .refl p⟩
  cases posting with
  | sale p' ticket payer =>
    have new : k ≠ p'.paymentId := by
      rintro rfl
      rw [sound.fresh] at stored
      cases stored
    exact ⟨p, (Function.update_of_ne new ..).trans stored, .refl p⟩
  | refund p' payer x status =>
    exact rewritten _ p' sound.stored ⟨rfl, fun final => by simp [sound.held] at final⟩
  | freeze p' d =>
    exact rewritten _ p' sound.stored ⟨rfl, fun final => by simp [sound.held] at final⟩
  | unfreeze p' =>
    exact rewritten _ p' sound.stored ⟨rfl, fun final => by simp [sound.disputed] at final⟩
  | approve p' payer =>
    exact rewritten _ p' sound.1.stored ⟨rfl, fun final => by simp [sound.1.disputed] at final⟩
  | bindReceipt p' commitment => exact rewritten _ p' sound ⟨rfl, fun final => ⟨final, rfl⟩⟩
  | resale ticket t price fee royalty buyer seller =>
    have records :=
      (recordResale_frame self b ticket t price (price - fee - royalty) buyer seller).1
    exact ⟨p, (congrArg (Records.payment · k) records).trans stored, .refl p⟩
  | _ => exact ⟨p, stored, .refl p⟩

theorem post_payment_old (sound : Sound self b posting) (unsold : posting.entry ≠ .sale) {k : ℕ}
    {q : PaymentRecord} (stored : (b.post self posting).payment k = some q) :
    ∃ p, b.payment k = some p ∧ p.Follows q := by
  have known (known : b.payment k ≠ none) : ∃ p, b.payment k = some p ∧ p.Follows q := by
    obtain ⟨p, hp⟩ := Option.ne_none_iff_exists'.mp known
    obtain ⟨q', hq', follows⟩ := post_payment sound hp
    rw [stored] at hq'
    cases hq'
    exact ⟨p, hp, follows⟩
  have rewritten {p q' : PaymentRecord} (hp : b.payment p.paymentId = some p)
      (written : Function.update b.payment p.paymentId (some q') k = some q) : b.payment k ≠ none := by
    obtain ⟨rfl, -⟩ | ⟨-, old⟩ := update_eq_some.mp written
    · simp [hp]
    · simp [old]
  refine known ?_
  cases posting with
  | sale => exact absurd rfl unsold
  | refund p payer x status => exact rewritten sound.stored stored
  | freeze p d => exact rewritten sound.stored stored
  | unfreeze p => exact rewritten sound.stored stored
  | approve p payer => exact rewritten sound.1.stored stored
  | bindReceipt p commitment => exact rewritten sound stored
  | resale ticket t price fee royalty buyer seller =>
    have records :=
      (recordResale_frame self b ticket t price (price - fee - royalty) buyer seller).1
    have same := congrArg (Records.payment · k) records
    rw [← same]
    exact Option.ne_none_iff_exists'.mpr ⟨q, stored⟩
  | _ => exact Option.ne_none_iff_exists'.mpr ⟨q, stored⟩

end Book

def Records.repaid (r : Records) (k : ℕ) : ℤ := (r.payment k).elim 0 (·.refundedAmount)

/-- The log agrees with the records on what each payer got back. -/
structure Repaid (contract : Address) (b : Book) : Prop where
  amount : ∀ k, tally (Transfer.refundOf k) b.transfers = b.repaid k
  payer : ∀ tr ∈ b.transfers, ∀ k, tr.purpose = .refund k → ∃ p, b.payment k = some p ∧
    p.payer = some tr.dst ∧ tr.src = contract ∧ tr.token = p.token ∧ tr.eventId = p.eventId

namespace Book

variable {b : Book} {self : Address} {posting : Posting}

theorem repaid_update {r : Records} {p : PaymentRecord} (stored : r.payment p.paymentId = some p)
    (q : PaymentRecord) {x : ℤ} (gain : q.refundedAmount = x + p.refundedAmount) (k : ℕ) :
    ({ r with payment := Function.update r.payment p.paymentId (some q) } : Records).repaid k =
      (if k = p.paymentId then x else 0) + r.repaid k := by
  by_cases hk : k = p.paymentId
  · subst hk
    simpa [Records.repaid, stored] using gain
  · simp [Records.repaid, hk]

theorem repaid_unmoved {r : Records} {p : PaymentRecord} (stored : r.payment p.paymentId = some p)
    (q : PaymentRecord) (same : q.refundedAmount = p.refundedAmount) (k : ℕ) :
    ({ r with payment := Function.update r.payment p.paymentId (some q) } : Records).repaid k =
      r.repaid k := by
  rw [repaid_update stored q (same.trans (zero_add _).symm), ite_self, zero_add]

theorem post_refunded (sound : Sound self b posting) (k : ℕ) :
    (b.post self posting).repaid k =
      tally (Transfer.refundOf k) (b.added self posting) + b.repaid k := by
  have refund : ∀ (p : PaymentRecord) payer x,
      tally (Transfer.refundOf k) [refundTransfer self p payer x] =
        if k = p.paymentId then x else 0 := by
    intro p payer x
    simp [refundTransfer, Transfer.refundOf, eq_comm]
  cases posting with
  | sale p ticket payer =>
    have entry : tally (Transfer.refundOf k) [paymentTransfer self p payer] = 0 := by
      simp [paymentTransfer, Transfer.refundOf]
    rw [added, entry, zero_add]
    by_cases hk : k = p.paymentId
    · subst hk
      simp [Records.repaid, post, addRevenue, putPayment, record, sound.fresh, sound.unrefunded]
    · simp [Records.repaid, post, addRevenue, putPayment, record, hk]
  | refund p payer x status =>
    rw [added, refund]
    exact repaid_update sound.stored _ (add_comm _ _) k
  | approve p payer =>
    rw [added, refund]
    exact repaid_update sound.1.stored _ (sub_add_cancel _ _).symm k
  | freeze p d =>
    exact (repaid_unmoved sound.stored { p with status := .disputed } rfl k).trans (zero_add _).symm
  | unfreeze p =>
    exact (repaid_unmoved sound.stored { p with status := .held } rfl k).trans (zero_add _).symm
  | bindReceipt p commitment =>
    exact (repaid_unmoved sound { p with zkEmailCommitment := some commitment } rfl k).trans (zero_add _).symm
  | resale ticket t price fee royalty buyer seller =>
    have entries : tally (Transfer.refundOf k) (b.added self
        (.resale ticket t price fee royalty buyer seller)) = 0 := by
      refine tally_eq_zero fun tr mem => ?_
      obtain ⟨kind, -⟩ | ⟨kind, -⟩ := mem_resaleTransfers mem <;> simp [Transfer.refundOf, kind]
    have records :=
      (recordResale_frame self b ticket t price (price - fee - royalty) buyer seller).1
    rw [entries, zero_add]
    exact congrArg (Records.repaid · k) records
  | _ => exact (zero_add _).symm

/-- A refund is logged for a payment that is stored and open, to its own payer. -/
theorem added_refund (sound : Sound self b posting) {tr : Transfer}
    (mem : tr ∈ b.added self posting) {k : ℕ} (purpose : tr.purpose = .refund k) :
    ∃ p, b.payment k = some p ∧ p.status ≠ .refunded ∧
      ∃ payer x, p.payer = some payer ∧ tr = refundTransfer self p payer x := by
  cases posting with
  | refund p payer x status =>
    obtain rfl := List.mem_singleton.mp mem
    cases purpose
    exact ⟨p, sound.stored, by simp [sound.held], payer, x, sound.payer, rfl⟩
  | approve p payer =>
    obtain rfl := List.mem_singleton.mp mem
    cases purpose
    exact ⟨p, sound.1.stored, by simp [sound.1.disputed], payer, _, sound.2, rfl⟩
  | resale ticket t price fee royalty buyer seller =>
    obtain ⟨kind, -⟩ | ⟨kind, -⟩ := mem_resaleTransfers mem <;> simp [kind] at purpose
  | sale | payout | share | sweep =>
    obtain rfl := List.mem_singleton.mp mem
    cases purpose
  | _ => cases mem

theorem added_sale (sound : Sound self b posting) {tr : Transfer}
    (mem : tr ∈ b.added self posting) {k : ℕ} (purpose : tr.purpose = .ticketPayment k) :
    b.payment k = none := by
  cases posting with
  | sale p ticket payer =>
    obtain rfl := List.mem_singleton.mp mem
    cases purpose
    exact sound.fresh
  | resale ticket t price fee royalty buyer seller =>
    obtain ⟨kind, -⟩ | ⟨kind, -⟩ := mem_resaleTransfers mem <;> simp [kind] at purpose
  | refund | approve | payout | share | sweep =>
    obtain rfl := List.mem_singleton.mp mem
    cases purpose
  | _ => cases mem

theorem post_repaid (repaid : Repaid self b) (sound : Sound self b posting) :
    Repaid self (b.post self posting) where
  amount k := by rw [post_transfers, tally_append, post_refunded sound, repaid.amount]
  payer tr mem k purpose := by
    rw [post_transfers, List.mem_append] at mem
    have entry : ∃ p, b.payment k = some p ∧ p.payer = some tr.dst ∧ tr.src = self ∧
        tr.token = p.token ∧ tr.eventId = p.eventId := by
      obtain new | old := mem
      · obtain ⟨p, stored, -, payer, x, paid, rfl⟩ := added_refund sound new purpose
        exact ⟨p, stored, paid, rfl, rfl, rfl⟩
      · exact repaid.payer tr old k purpose
    obtain ⟨p, stored, paid, src, token, event⟩ := entry
    obtain ⟨q, stored', follows⟩ := post_payment sound stored
    exact ⟨q, stored', follows.payer.trans paid, src, token.trans follows.token.symm,
      event.trans follows.eventId.symm⟩

theorem post_concerns (sound : Sound self b posting) {k : ℕ}
    {p : PaymentRecord} (stored : b.payment k = some p) (final : p.status = .refunded) :
    (b.post self posting).transfers.filter (·.concerns k) = b.transfers.filter (·.concerns k) := by
  rw [post_transfers, List.filter_append]
  refine List.append_left_eq_self.mpr (List.filter_eq_nil_iff.mpr fun tr mem concerns => ?_)
  have purpose : tr.purpose = .ticketPayment k ∨ tr.purpose = .refund k := by
    simpa [Transfer.concerns] using concerns
  obtain sale | refund := purpose
  · have fresh := added_sale sound mem sale
    rw [stored] at fresh
    cases fresh
  · obtain ⟨p', stored', unfinished, -⟩ := added_refund sound mem refund
    rw [stored] at stored'
    cases stored'
    exact unfinished final

end Book

end Zicket.Payments
