import Zicket.Refinement.Postings

/-! What the three refund operations write: one refund of a held payment, within its
amount and within its share of a cancelled event. -/

namespace Zicket.Payments

open Host Foundation Book

variable {env : Env} {w w' : World}

theorem basisPointsOf_eq_ok {amount x : ℤ} {bps : ℕ} (h : basisPointsOf amount bps = .ok x) :
    x = bpsOf amount bps := by
  simp only [basisPointsOf, bind_eq_ok, pure_eq_ok, i128_eq_ok] at h
  obtain ⟨_, ⟨-, rfl⟩, rfl⟩ := h
  rfl

theorem payRefund_book {p settled : PaymentRecord} {refundTo : Option Address} {payer : Address}
    {x : ℤ} (payee : refundTo = some payer) (h : payRefund env w p settled refundTo x = .ok w') :
    w'.book = (((w.book.record (refundTransfer env.currentContract p payer x)).putPayment
      settled).addRevenue p.eventId p.token (-x)).addRefunds p.eventId p.token x := by
  subst payee
  simp only [payRefund, sendRefund, bind_eq_ok, pure_eq_ok, i128_eq_ok] at h
  obtain ⟨w₁, h₁, w₂, h₂, w₃, h₃, _, ⟨-, rfl⟩, w₄, h₄, w₅, h₅, rfl⟩ := h
  rw [World.emitPaymentRefunded, World.book_emit, World.addTotalTokenRefunds_book h₅,
    World.addTotalRefunds_book h₄, World.setEventTokenRevenue_book (sub_eq_add_neg _ _),
    World.shiftEventRevenue_book h₃, World.updatePayment_book h₂, (World.transfer_book h₁).2]
  rfl

theorem refundLatched_eq (w : World) (e : Symbol) : refundLatched w e = w.book.latched e := by
  have config : w.getEventConfig e = w.book.config e := rfl
  have escrow : w.get (.escrowMeta e) = w.book.escrow e := rfl
  rw [refundLatched, latched, config, escrow]
  cases w.book.config e <;> cases w.book.escrow e <;> rfl

theorem maxRefund_eq_ok {p : PaymentRecord} {x : ℤ} (h : maxRefund w p = .ok x) :
    x = w.book.maxRefund p := by
  unfold maxRefund at h
  unfold Book.maxRefund
  split at h
  · rename_i cancelled
    have cancelled : w.book.status p.eventId = some .cancelled := cancelled
    simp only [refundable, bind_eq_ok, u32Sub_eq_ok, i128_eq_ok] at h
    obtain ⟨total, ⟨ratio, ⟨-, rfl⟩, htotal⟩, -, rfl⟩ := h
    rw [if_pos cancelled, basisPointsOf_eq_ok htotal]
    rfl
  · rename_i standing
    have standing : w.book.status p.eventId ≠ some .cancelled := standing
    simp only [i128_eq_ok] at h
    rw [if_neg standing, h.2]

theorem maxRefund_sound {b : Book} {p : PaymentRecord} {payer : Address} {x : ℤ}
    {status : PaymentStatus} (kept : b.Kept) (stored : b.payment p.paymentId = some p)
    (payee : p.payer = some payer) (held : p.status = .held) (positive : 0 < x)
    (le : x ≤ b.maxRefund p)
    (closes : status = .refunded ∨ (status = .held ∧ p.refundedAmount + x ≠ p.amount)) :
    b.RefundSound p payer x status := by
  have range := kept.recorded.inRange _ p stored
  have share : bpsOf p.amount (b.refundRatio p.eventId) ≤ p.amount :=
    bpsOf_le range.positive.le (Nat.sub_le 10000 _)
  have covered : p.refundedAmount + x ≤ p.amount := by
    unfold Book.maxRefund at le
    split at le <;> omega
  refine ⟨stored, payee, held, positive, covered, closes.imp_right (.imp_right ?_), ?_⟩
  · exact covered.lt_of_ne
  · intro cancelled
    rw [Book.maxRefund, if_pos cancelled] at le
    omega

theorem refund_written {admin : Address} {id : ℕ} {amount : Option ℤ} (kept : w.book.Kept)
    (h : refund env admin id amount w = .ok w') :
    Written env w (.refund admin id amount) w'.book := by
  simp only [refund, bind_eq_ok, require_eq_ok, okOr_eq_ok, World.getPayment, i128_eq_ok,
    refundLatched_eq] at h
  obtain ⟨-, -, -, -, p, stored, -, standard, -, -, -, held, -, latch, maximum, hmax, -, bounds,
    _, ⟨-, rfl⟩, paid⟩ := h
  have stored : w.book.payment id = some p := stored
  obtain ⟨payer, payee⟩ : ∃ payer, p.payer = some payer := by
    have identified := (kept.recorded.inRange id p stored).identified
    rw [PaymentRecord.Identified, standard] at identified
    exact Option.isSome_iff_exists.mp identified.1
  rw [maxRefund_eq_ok hmax] at bounds paid
  refine .one ⟨p, payer, _, stored, latch, rfl⟩ ?_ (payRefund_book payee paid)
  refine maxRefund_sound kept (kept.recorded.stored stored) payee held bounds.1 bounds.2 ?_
  split
  · exact .inl rfl
  · exact .inr ⟨held, ‹_›⟩

theorem claimRefund_written {payer : Address} {id : ℕ} (kept : w.book.Kept)
    (h : claimRefund env payer id w = .ok w') :
    Written env w (.claimRefund payer id) w'.book := by
  simp only [claimRefund, bind_eq_ok, require_eq_ok, okOr_eq_ok, World.getPayment, i128_eq_ok,
    u32Sub_eq_ok] at h
  obtain ⟨-, -, p, stored, payer', payee, -, rfl, -, held, -, cancelled, ratio, ⟨-, rfl⟩, -, -,
    maximum, hmax, remaining, ⟨-, rfl⟩, -, positive, _, ⟨-, rfl⟩, paid⟩ := h
  have stored : w.book.payment id = some p := stored
  have cancelled : w.book.status p.eventId = some .cancelled := cancelled
  have remaining : maximum - p.refundedAmount = w.book.maxRefund p := by
    rw [basisPointsOf_eq_ok hmax, Book.maxRefund, if_pos cancelled]
    rfl
  rw [remaining] at positive paid
  refine .one ⟨p, stored, cancelled, rfl⟩ ?_ (payRefund_book rfl paid)
  exact maxRefund_sound kept (kept.recorded.stored stored) payee held positive le_rfl (.inl rfl)

theorem requestPostponementRefund_written {caller : Address} {ticketId : ℕ} (kept : w.book.Kept)
    (h : requestPostponementRefund env caller ticketId w = .ok w') :
    Written env w (.requestPostponementRefund caller ticketId) w'.book := by
  simp only [requestPostponementRefund, bind_eq_ok, require_eq_ok, okOr_eq_ok, World.getPayment,
    World.getTicket, i128_eq_ok] at h
  obtain ⟨-, -, _, -, -, -, ticket, hticket, owner, -, -, -, p, stored, payer, payee, -, -, -, held,
    -, postponed, _, -, -, -, _, ⟨-, rfl⟩, -, positive, _, ⟨-, rfl⟩, paid⟩ := h
  obtain ⟨p', stored', built, -⟩ := kept.recorded.ticketed ticketId ticket hticket
  have id : ticket.paymentId = ticketId := by
    have same : ticket.paymentId = p'.paymentId := congrArg Ticket.paymentId built
    rw [same, (kept.recorded.numbered _ _ stored').1]
  have stored : w.book.payment ticketId = some p := id ▸ stored
  have postponed : w.book.status p.eventId = some .postponed := postponed
  have maximum : p.amount - p.refundedAmount = w.book.maxRefund p := by
    simp [Book.maxRefund, postponed]
  refine .one ⟨p, payer, stored, postponed, rfl⟩ ?_ (payRefund_book rfl paid)
  exact maxRefund_sound kept (kept.recorded.stored stored) payee held positive maximum.le (.inl rfl)

section Recourse

/-! Whether a refund is refused by the contract, rather than by the token or the host. -/

theorem transfer_unrefused (w : World) (tr : Transfer) : Unrefused (w.transfer tr) := by
  unfold World.transfer
  split
  · exact unrefused_ok _
  · exact unrefused_trap

theorem transfer_ok (tr : Transfer) (nonneg : 0 ≤ tr.amount)
    (covered : tr.amount ≤ w.balances tr.token tr.src) :
    ∃ balances, w.transfer tr = .ok { w with balances, transfers := tr :: w.transfers } := by
  unfold World.transfer Balances.transfer
  rw [if_pos ⟨nonneg, covered⟩]
  exact ⟨_, rfl⟩

theorem transfer_storage {tr : Transfer} (h : w.transfer tr = .ok w') : w'.storage = w.storage := by
  unfold World.transfer at h
  split at h
  · cases h
    rfl
  · cases h

theorem require_unrefused {q : Prop} [Decidable q] {e : PaymentError} (h : q) :
    Unrefused (require q e) :=
  unrefused_of_pass (require_eq_ok (u := ()).mpr h)

theorem getEventRevenue_unrefused (w : World) (e : Symbol) : Unrefused (w.getEventRevenue e) := by
  have sum (ts : List Address) (total : ℤ) : Unrefused
      (ts.foldlM (fun total t => i128 (total + w.getEventTokenRevenue e t)) total : Attempt ℤ) := by
    induction ts generalizing total with
    | nil => exact unrefused_ok total
    | cons t ts ih =>
      rw [List.foldlM_cons]
      exact (i128_unrefused _).bind fun total _ => ih total
  exact sum _ 0

theorem shiftEventRevenue_ok {e : Symbol} {rest x : ℤ} (summed : w.getEventRevenue e = .ok rest)
    (inside : InI128 (rest + x)) :
    w.shiftEventRevenue e x = .ok (w.setEventRevenue e (rest + x)) := by
  simp only [World.shiftEventRevenue, bind_eq_ok, pure_eq_ok, i128_eq_ok]
  exact ⟨rest, summed, _, ⟨inside, rfl⟩, rfl⟩

theorem payRefund_unrefused {p settled : PaymentRecord} {refundTo : Option Address} {x : ℤ}
    (stored : (w.get (.payment settled.paymentId)).isSome) :
    Unrefused (payRefund env w p settled refundTo x) := by
  have sent : Unrefused (sendRefund env w p x refundTo) := by
    cases refundTo with
    | none => exact unrefused_ok w
    | some payer => exact transfer_unrefused w _
  refine sent.bind fun w₁ moved => ?_
  have same : w₁.storage = w.storage := by
    cases refundTo with
    | none =>
      cases moved
      rfl
    | some payer => exact transfer_storage moved
  have present : w₁.has (.payment settled.paymentId) = true := by
    unfold World.has
    rw [same]
    exact stored
  have updated : w₁.updatePayment settled = .ok (w₁.set (.payment settled.paymentId) settled) :=
    bind_eq_ok.mpr ⟨(), require_eq_ok.mpr present, rfl⟩
  refine (unrefused_of_pass updated).bind fun w₂ _ => ?_
  refine Unrefused.bind ?_ fun w₃ _ => (i128_unrefused _).bind fun _ _ => ?_
  · exact (getEventRevenue_unrefused w₂ _).bind fun _ _ =>
      (i128_unrefused _).bind fun _ _ => unrefused_ok _
  · refine Unrefused.bind ?_ fun w₄ _ => Unrefused.bind ?_ fun w₅ _ => unrefused_ok _
    · exact (i128_unrefused _).bind fun _ _ => unrefused_ok _
    · exact (i128_unrefused _).bind fun _ _ => unrefused_ok _

/-- The contract holds the amount of the refund, and the sums of its booking fit. -/
structure World.CoversRefund (w : World) (contract : Address) (p : PaymentRecord) (x : ℤ) :
    Prop where
  pool : x ≤ w.balances p.token contract
  product : InI128 (p.amount * 10000)
  revenue : ∃ total, w.getEventRevenue p.eventId = .ok total ∧ InI128 (total - x)
  tokenRevenue : InI128 (w.getEventTokenRevenue p.eventId p.token - x)
  refunds : InI128 (w.getTotalRefunds p.eventId + x)
  tokenRefunds : InI128 (w.getTotalTokenRefunds p.eventId p.token + x)

theorem payRefund_ok {p : PaymentRecord} (settled : PaymentRecord) (payer : Address) {x : ℤ}
    (nonneg : 0 ≤ x) (stored : (w.get (.payment settled.paymentId)).isSome)
    (covers : w.CoversRefund env.currentContract p x) :
    ∃ w', payRefund env w p settled (some payer) x = .ok w' := by
  obtain ⟨total, summed, inside⟩ := covers.revenue
  obtain ⟨balances, sent⟩ :=
    transfer_ok (refundTransfer env.currentContract p payer x) nonneg covers.pool
  let paid : World :=
    { w with balances, transfers := refundTransfer env.currentContract p payer x :: w.transfers }
  have updated : paid.updatePayment settled =
      .ok (paid.set (.payment settled.paymentId) settled) :=
    bind_eq_ok.mpr ⟨(), require_eq_ok.mpr stored, rfl⟩
  have shifted := shiftEventRevenue_ok (w := paid.set (.payment settled.paymentId) settled)
    (x := -x) summed inside
  simp only [payRefund, sendRefund, World.addTotalRefunds, World.addTotalTokenRefunds, bind_eq_ok,
    pure_eq_ok, i128_eq_ok]
  exact ⟨_, _, sent, _, updated, _, shifted, _, ⟨covers.tokenRevenue, rfl⟩, _,
    ⟨_, ⟨covers.refunds, rfl⟩, rfl⟩, _, ⟨_, ⟨covers.tokenRefunds, rfl⟩, rfl⟩, rfl⟩

theorem payment_isSome {id : ℕ} {p : PaymentRecord} (kept : w.book.Kept)
    (stored : w.book.payment id = some p) : (w.get (.payment p.paymentId)).isSome := by
  have numbered := (kept.recorded.numbered id p stored).1
  exact Option.isSome_iff_exists.mpr ⟨p, numbered ▸ stored⟩

theorem withdrawableRatio_of_full {e : Symbol} {config : EventConfig}
    (configured : w.book.config e = some config) (full : config.withdrawableRatioBps = some 0) :
    ((w.getEventConfig e).bind (·.withdrawableRatioBps)).getD 0 = 0 := by
  rw [show w.getEventConfig e = some config from configured, Option.bind_some, full]
  rfl

/-- Once the event is cancelled and the organizer has no part in it, the contract does not
refuse the payer of a held payment. -/
theorem claimRefund_unrefused {id : ℕ} {p : PaymentRecord} {payer : Address} {config : EventConfig}
    (kept : w.book.Kept) (stored : w.book.payment id = some p) (payee : p.payer = some payer)
    (held : p.status = .held) (cancelled : w.book.status p.eventId = some .cancelled)
    (configured : w.book.config p.eventId = some config)
    (full : config.withdrawableRatioBps = some 0) : Unrefused (claimRefund env payer id w) := by
  have ratio := withdrawableRatio_of_full configured full
  have unfinished := (kept.recorded.inRange id p stored).unfinished (.inl held)
  have present := payment_isSome kept stored
  refine (requireAuth_unrefused env payer).bind fun _ _ => ?_
  refine (unrefused_of_pass (okOr_eq_ok.mpr stored)).bind fun p' found => ?_
  cases (okOr_eq_ok.mp found).symm.trans stored
  refine (unrefused_of_pass (okOr_eq_ok.mpr payee)).bind fun payer' named => ?_
  cases (okOr_eq_ok.mp named).symm.trans payee
  refine (require_unrefused rfl).bind fun _ _ => ?_
  refine (require_unrefused held).bind fun _ _ => ?_
  refine (require_unrefused cancelled).bind fun _ _ => ?_
  dsimp only
  rw [ratio]
  have whole : (u32Sub 10000 0 : Attempt ℕ) = .ok 10000 := rfl
  refine (unrefused_of_pass whole).bind fun refundRatio counted => ?_
  cases whole.symm.trans counted
  refine (require_unrefused (by decide)).bind fun _ _ => ?_
  refine Unrefused.bind ((i128_unrefused _).bind fun _ _ => unrefused_ok _) fun maximum share => ?_
  have maximum_eq : maximum = p.amount := (basisPointsOf_eq_ok share).trans (bpsOf_full _)
  refine (i128_unrefused _).bind fun remaining left => ?_
  obtain ⟨-, rfl⟩ := i128_eq_ok.mp left
  refine (require_unrefused (by omega)).bind fun _ _ => ?_
  exact (i128_unrefused _).bind fun refunded _ => payRefund_unrefused present

theorem claimRefund_ok {id : ℕ} {p : PaymentRecord} {payer : Address} {config : EventConfig}
    (kept : w.book.Kept) (stored : w.book.payment id = some p) (payee : p.payer = some payer)
    (held : p.status = .held) (cancelled : w.book.status p.eventId = some .cancelled)
    (configured : w.book.config p.eventId = some config)
    (full : config.withdrawableRatioBps = some 0) (signed : env.authorized payer = true)
    (covers : w.CoversRefund env.currentContract p (p.amount - p.refundedAmount)) :
    ∃ w', claimRefund env payer id w = .ok w' := by
  have ratio := withdrawableRatio_of_full configured full
  have present := payment_isSome kept stored
  have range := kept.recorded.inRange id p stored
  have unfinished := range.unfinished (.inl held)
  have nonneg := range.nonneg
  obtain ⟨low, high⟩ := covers.product
  have share : basisPointsOf p.amount 10000 = .ok p.amount := by
    simp only [basisPointsOf, bind_eq_ok, pure_eq_ok, i128_eq_ok]
    exact ⟨_, ⟨covers.product, rfl⟩, bpsOf_full p.amount⟩
  have remaining : InI128 (p.amount - p.refundedAmount) := ⟨by omega, by omega⟩
  have refunded : InI128 (p.refundedAmount + (p.amount - p.refundedAmount)) :=
    ⟨by omega, by omega⟩
  obtain ⟨w', paid⟩ := payRefund_ok
    { p with
      refundedAmount := p.refundedAmount + (p.amount - p.refundedAmount), status := .refunded }
    payer (by omega) present covers
  refine ⟨w', ?_⟩
  simp only [claimRefund, bind_eq_ok, require_eq_ok, okOr_eq_ok, World.getPayment, i128_eq_ok]
  refine ⟨(), requireAuth_eq_ok.mpr signed, p, stored, payer, payee, (), rfl, (), held, (),
    cancelled, 10000, ?_, (), by decide, p.amount, share, _, ⟨remaining, rfl⟩, (), by omega, _,
    ⟨refunded, rfl⟩, paid⟩
  rw [ratio]
  rfl

theorem claimRefund_full {id : ℕ} {p : PaymentRecord} {payer : Address} {config : EventConfig}
    (kept : w.book.Kept) (stored : w.book.payment id = some p)
    (configured : w.book.config p.eventId = some config)
    (full : config.withdrawableRatioBps = some 0) (h : claimRefund env payer id w = .ok w') :
    w'.transfers =
      refundTransfer env.currentContract p payer (p.amount - p.refundedAmount) :: w.transfers := by
  obtain ⟨ps, ⟨p', stored', cancelled, rfl⟩, -, effect⟩ := claimRefund_written kept h
  cases stored.symm.trans stored'
  have whole : w.book.refundRatio p.eventId = 10000 := by
    rw [refundRatio, configured, Option.bind_some, full]
    rfl
  have amount : w.book.maxRefund p = p.amount - p.refundedAmount := by
    rw [Book.maxRefund, if_pos cancelled, whole, bpsOf_full]
  rw [amount] at effect
  exact congrArg (fun b : Book => b.transfers) effect.symm

end Recourse

end Zicket.Payments
