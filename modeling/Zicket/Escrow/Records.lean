import Zicket.Escrow.Sound

/-! What holds of the records and terms of every book the contract writes: payments and
tickets are numbered in step, amounts stay in range, the disputes of an event are its
disputed payments, and configurations agree with the contract's settings. -/

namespace Zicket.Payments

open Host Foundation

structure PaymentRecord.InRange (p : PaymentRecord) : Prop where
  positive : 0 < p.amount
  nonneg : 0 ≤ p.refundedAmount
  le : p.refundedAmount ≤ p.amount
  unfinished : p.status = .held ∨ p.status = .disputed → p.refundedAmount < p.amount
  identified : p.Identified

structure Recorded (r : Records) : Prop where
  lockstep : r.tickets = r.payments
  numbered : ∀ k p, r.payment k = some p → p.paymentId = k ∧ 1 ≤ k ∧ k ≤ r.payments
  inRange : ∀ k p, r.payment k = some p → p.InRange
  ticketed : ∀ k ticket, r.ticket k = some ticket →
    ∃ p, r.payment k = some p ∧ { ticket with owner := p.payer } = buildTicket p k ∧
      (ticket.owner.isSome ↔ p.payer.isSome)
  disputed : ∀ k d, r.dispute k = some d → d.ticketId = k ∧ d.paymentId = k ∧
    ∃ p, r.payment k = some p ∧ p.status = .disputed ∧ p.eventId = d.eventId
  frozen : ∀ k p, r.payment k = some p → p.status = .disputed → (r.dispute k).isSome
  listed : ∀ e k, k ∈ r.disputes e ↔ ∃ d, r.dispute k = some d ∧ d.eventId = e
  distinct : ∀ e, (r.disputes e).Nodup

structure Configured (t : Terms) (platform : Symbol → ℤ) : Prop where
  admin : t.admin.isSome ↔ t.acceptedToken.isSome
  eventContract : t.eventContract.isSome ↔ t.acceptedToken.isSome
  idle : t.acceptedToken = none → ∀ e, t.config e = none ∧ platform e = 0
  fee : t.feeBps ≤ 10000
  accepted : ∀ e c, t.config e = some c → t.acceptedToken = some c.payoutToken
  ratio : ∀ e c r, t.config e = some c → c.withdrawableRatioBps = some r → r ≤ 10000
  platform : ∀ e, 0 ≤ platform e

structure Book.Kept (b : Book) : Prop where
  recorded : Recorded b.toRecords
  configured : Configured b.toTerms b.platform

section Records

variable {r : Records}

theorem Recorded.stored (h : Recorded r) {k : ℕ} {p : PaymentRecord} (hp : r.payment k = some p) :
    r.payment p.paymentId = some p := by
  rw [(h.numbered k p hp).1]
  exact hp

theorem Recorded.mem_disputes (h : Recorded r) {k : ℕ} {p : PaymentRecord}
    (hp : r.payment k = some p) (disputed : p.status = .disputed) : k ∈ r.disputes p.eventId := by
  obtain ⟨d, hd⟩ := Option.isSome_iff_exists.mp (h.frozen k p hp disputed)
  obtain ⟨-, -, p', hp', -, event⟩ := h.disputed k d hd
  rw [hp] at hp'
  cases hp'
  exact (h.listed _ _).mpr ⟨d, hd, event.symm⟩

/-- A payment is rewritten without touching what its ticket shows. -/
structure Amends (r : Records) (p q : PaymentRecord) : Prop where
  stored : r.payment p.paymentId = some p
  event : q.eventId = p.eventId
  ticket : buildTicket q = buildTicket p
  inRange : q.InRange

namespace Amends

variable {p q : PaymentRecord}

theorem id (a : Amends r p q) : q.paymentId = p.paymentId :=
  congrArg Ticket.paymentId (congrFun a.ticket 0)

theorem payer (a : Amends r p q) : q.payer = p.payer :=
  congrArg Ticket.owner (congrFun a.ticket 0)

theorem numbered (a : Amends r p q) (h : Recorded r) {k : ℕ} {p' : PaymentRecord}
    (hp' : Function.update r.payment p.paymentId (some q) k = some p') :
    p'.paymentId = k ∧ 1 ≤ k ∧ k ≤ r.payments := by
  obtain ⟨rfl, rfl⟩ | ⟨-, hp'⟩ := update_eq_some.mp hp'
  · exact ⟨a.id, (h.numbered _ _ a.stored).2⟩
  · exact h.numbered k p' hp'

theorem keeps_inRange (a : Amends r p q) (h : Recorded r) {k : ℕ} {p' : PaymentRecord}
    (hp' : Function.update r.payment p.paymentId (some q) k = some p') : p'.InRange := by
  obtain ⟨rfl, rfl⟩ | ⟨-, hp'⟩ := update_eq_some.mp hp'
  · exact a.inRange
  · exact h.inRange k p' hp'

theorem ticketed (a : Amends r p q) (h : Recorded r) {k : ℕ} {ticket : Ticket}
    (ht : r.ticket k = some ticket) :
    ∃ p', Function.update r.payment p.paymentId (some q) k = some p' ∧
      { ticket with owner := p'.payer } = buildTicket p' k ∧
      (ticket.owner.isSome ↔ p'.payer.isSome) := by
  obtain ⟨p', hp', built, owner⟩ := h.ticketed k ticket ht
  by_cases hk : k = p.paymentId
  · subst hk
    rw [a.stored] at hp'
    cases hp'
    refine ⟨q, Function.update_self .., ?_, a.payer ▸ owner⟩
    rw [a.ticket, ← built, a.payer]
  · exact ⟨p', update_eq_some.mpr (.inr ⟨hk, hp'⟩), built, owner⟩

end Amends

theorem Recorded.amend (h : Recorded r) {p q : PaymentRecord} (a : Amends r p q)
    (status : p.status = .disputed ↔ q.status = .disputed) :
    Recorded { r with payment := Function.update r.payment p.paymentId (some q) } where
  lockstep := h.lockstep
  numbered _ _ hp' := a.numbered h hp'
  inRange _ _ hp' := a.keeps_inRange h hp'
  ticketed _ _ ht := a.ticketed h ht
  disputed k d hd := by
    obtain ⟨ticket, payment, p', hp', disputed, event⟩ := h.disputed k d hd
    refine ⟨ticket, payment, ?_⟩
    by_cases hk : k = p.paymentId
    · subst hk
      rw [a.stored] at hp'
      cases hp'
      exact ⟨q, Function.update_self .., status.mp disputed, a.event.trans event⟩
    · exact ⟨p', update_eq_some.mpr (.inr ⟨hk, hp'⟩), disputed, event⟩
  frozen k p' hp' disputed := by
    obtain ⟨rfl, rfl⟩ | ⟨-, hp'⟩ := update_eq_some.mp hp'
    · exact h.frozen _ _ a.stored (status.mpr disputed)
    · exact h.frozen k p' hp' disputed
  listed := h.listed
  distinct := h.distinct

theorem Recorded.freeze (h : Recorded r) {p q : PaymentRecord} {d : DisputeRecord}
    (a : Amends r p q) (held : p.status = .held) (disputed : q.status = .disputed)
    (ticket : d.ticketId = p.paymentId) (payment : d.paymentId = p.paymentId)
    (event : d.eventId = p.eventId) :
    Recorded { r with
      payment := Function.update r.payment p.paymentId (some q)
      dispute := Function.update r.dispute d.ticketId (some d)
      disputes := Function.update r.disputes p.eventId (r.disputes p.eventId ++ [d.ticketId]) } := by
  have undisputed : r.dispute p.paymentId = none := by
    by_contra open_
    obtain ⟨d', hd'⟩ := Option.ne_none_iff_exists'.mp open_
    obtain ⟨-, -, p', hp', disputed', -⟩ := h.disputed _ d' hd'
    rw [a.stored] at hp'
    cases hp'
    rw [held] at disputed'
    cases disputed'
  have unlisted : ∀ e, p.paymentId ∉ r.disputes e := by
    intro e mem
    obtain ⟨d', hd', -⟩ := (h.listed e _).mp mem
    rw [undisputed] at hd'
    cases hd'
  rw [ticket]
  exact
  { lockstep := h.lockstep
    numbered := fun _ _ hp' => a.numbered h hp'
    inRange := fun _ _ hp' => a.keeps_inRange h hp'
    ticketed := fun _ _ ht => a.ticketed h ht
    disputed := by
      intro k d' hd'
      obtain ⟨rfl, rfl⟩ | ⟨hk, hd'⟩ := update_eq_some.mp hd'
      · exact ⟨ticket, payment, q, Function.update_self .., disputed, a.event.trans event.symm⟩
      · obtain ⟨ticket', payment', p', hp', rest⟩ := h.disputed k d' hd'
        exact ⟨ticket', payment', p', update_eq_some.mpr (.inr ⟨hk, hp'⟩), rest⟩
    frozen := by
      intro k p' hp' disputed'
      obtain ⟨rfl, rfl⟩ | ⟨hk, hp'⟩ := update_eq_some.mp hp'
      · simp
      · simpa [hk] using h.frozen k p' hp' disputed'
    listed := by
      intro e k
      by_cases hk : k = p.paymentId
      · subst hk
        by_cases he : e = p.eventId
        · simp [he, event]
        · simp [he, unlisted, event, Ne.symm he]
      · by_cases he : e = p.eventId
        · simp [he, hk, h.listed]
        · simp [he, hk, h.listed]
    distinct := by
      intro e
      by_cases he : e = p.eventId
      · subst he
        simpa using (List.nodup_concat ..).mpr ⟨unlisted p.eventId, h.distinct p.eventId⟩
      · simpa [he] using h.distinct e }

theorem Recorded.close (h : Recorded r) {p q : PaymentRecord} (a : Amends r p q)
    (settled : q.status ≠ .disputed) :
    Recorded { r with
      payment := Function.update r.payment p.paymentId (some q)
      dispute := Function.update r.dispute p.paymentId none
      disputes := Function.update r.disputes p.eventId
        ((r.disputes p.eventId).filter (· ≠ p.paymentId)) } where
  lockstep := h.lockstep
  numbered _ _ hp' := a.numbered h hp'
  inRange _ _ hp' := a.keeps_inRange h hp'
  ticketed _ _ ht := a.ticketed h ht
  disputed k d hd := by
    obtain ⟨hk, hd⟩ := update_none_eq_some.mp hd
    obtain ⟨ticket, payment, p', hp', rest⟩ := h.disputed k d hd
    exact ⟨ticket, payment, p', update_eq_some.mpr (.inr ⟨hk, hp'⟩), rest⟩
  frozen k p' hp' disputed := by
    obtain ⟨rfl, rfl⟩ | ⟨hk, hp'⟩ := update_eq_some.mp hp'
    · exact absurd disputed settled
    · simpa [hk] using h.frozen k p' hp' disputed
  listed e k := by
    by_cases he : e = p.eventId
    · by_cases hk : k = p.paymentId
      · simp [he, hk]
      · simp [he, hk, h.listed]
    · by_cases hk : k = p.paymentId
      · -- the closed dispute was of the payment's own event
        subst hk
        suffices p.paymentId ∉ r.disputes e by simpa [he] using this
        intro mem
        obtain ⟨d, hd, event⟩ := (h.listed e _).mp mem
        obtain ⟨-, -, p', hp', -, event'⟩ := h.disputed _ d hd
        rw [a.stored] at hp'
        cases hp'
        exact he (event'.trans event).symm
      · simp [he, hk, h.listed]
  distinct e := by
    by_cases he : e = p.eventId
    · subst he
      simpa using (h.distinct p.eventId).filter _
    · simpa [he] using h.distinct e

theorem Recorded.append (h : Recorded r) {p : PaymentRecord} {ticket : Ticket}
    (next : p.paymentId = r.payments + 1) (built : ticket = buildTicket p (r.tickets + 1))
    (inRange : p.InRange) (held : p.status = .held) :
    Recorded { r with
      payments := p.paymentId
      payment := Function.update r.payment p.paymentId (some p)
      tickets := ticket.ticketId
      ticket := Function.update r.ticket ticket.ticketId (some ticket) } := by
  have id : ticket.ticketId = p.paymentId := by rw [built, next, ← h.lockstep]; rfl
  have fresh : ∀ k p', r.payment k = some p' → k ≠ p.paymentId := by
    intro k p' hp'
    have := (h.numbered k p' hp').2.2
    omega
  rw [id]
  exact
  { lockstep := rfl
    numbered := by
      intro k p' hp'
      obtain ⟨rfl, rfl⟩ | ⟨-, hp'⟩ := update_eq_some.mp hp'
      · exact ⟨rfl, by omega, le_rfl⟩
      · obtain ⟨id', pos, le⟩ := h.numbered k p' hp'
        exact ⟨id', pos, le.trans (by simp [next])⟩
    inRange := by
      intro k p' hp'
      obtain ⟨rfl, rfl⟩ | ⟨-, hp'⟩ := update_eq_some.mp hp'
      · exact inRange
      · exact h.inRange k p' hp'
    ticketed := by
      intro k ticket' ht'
      obtain ⟨rfl, rfl⟩ | ⟨-, ht'⟩ := update_eq_some.mp ht'
      · refine ⟨p, Function.update_self .., ?_, by rw [built]; rfl⟩
        rw [built, next, h.lockstep]
        rfl
      · obtain ⟨p', hp', rest⟩ := h.ticketed k ticket' ht'
        exact ⟨p', update_eq_some.mpr (.inr ⟨fresh k p' hp', hp'⟩), rest⟩
    disputed := by
      intro k d hd
      obtain ⟨ticket', payment, p', hp', rest⟩ := h.disputed k d hd
      exact ⟨ticket', payment, p', update_eq_some.mpr (.inr ⟨fresh k p' hp', hp'⟩), rest⟩
    frozen := by
      intro k p' hp' disputed
      obtain ⟨rfl, rfl⟩ | ⟨-, hp'⟩ := update_eq_some.mp hp'
      · rw [held] at disputed
        cases disputed
      · exact h.frozen k p' hp' disputed
    listed := h.listed
    distinct := h.distinct }

theorem Recorded.handover (h : Recorded r) {ticket : Ticket} (buyer : Address)
    (stored : r.ticket ticket.ticketId = some ticket) (owned : ticket.owner.isSome) :
    Recorded { r with
      ticket := Function.update r.ticket ticket.ticketId
        (some { ticket with owner := some buyer }) } where
  lockstep := h.lockstep
  numbered := h.numbered
  inRange := h.inRange
  ticketed k ticket' ht' := by
    obtain ⟨rfl, rfl⟩ | ⟨-, ht'⟩ := update_eq_some.mp ht'
    · obtain ⟨p, hp, built, owner⟩ := h.ticketed _ _ stored
      exact ⟨p, hp, built, by simpa using owner.mp owned⟩
    · exact h.ticketed k ticket' ht'
  disputed := h.disputed
  frozen := h.frozen
  listed := h.listed
  distinct := h.distinct

end Records

section Terms

variable {t : Terms} {platform : Symbol → ℤ}

theorem Configured.setPlatform (h : Configured t platform) (e : Symbol) {x : ℤ} (nonneg : 0 ≤ x)
    (unknown : t.acceptedToken = none → x = 0) :
    Configured t (Function.update platform e x) where
  admin := h.admin
  eventContract := h.eventContract
  idle none e' := by
    obtain ⟨config, zero⟩ := h.idle none e'
    by_cases he : e' = e
    · subst he
      exact ⟨config, by rw [Function.update_self, unknown none]⟩
    · exact ⟨config, by rw [Function.update_of_ne he, zero]⟩
  fee := h.fee
  accepted := h.accepted
  ratio := h.ratio
  platform e' := by
    by_cases he : e' = e
    · simpa [he] using nonneg
    · simpa [he] using h.platform e'

theorem Configured.credit (h : Configured t platform) (e : Symbol) {x : ℤ} (nonneg : 0 ≤ x)
    (known : x = 0 ∨ t.acceptedToken.isSome) :
    Configured t (Function.update platform e (platform e + x)) := by
  refine h.setPlatform e (Int.add_nonneg (h.platform e) nonneg) fun none => ?_
  have zero : x = 0 := by simpa [none] using known
  rw [(h.idle none e).2, zero, add_zero]

theorem Configured.configure (h : Configured t platform)
    {e : Symbol} {c : EventConfig} (accepted : t.acceptedToken = some c.payoutToken)
    (ratio : ∀ r, c.withdrawableRatioBps = some r → r ≤ 10000) :
    Configured { t with config := Function.update t.config e (some c) } platform where
  admin := h.admin
  eventContract := h.eventContract
  idle none := by simp [accepted] at none
  fee := h.fee
  accepted e' c' hc' := by
    obtain ⟨-, rfl⟩ | ⟨-, hc'⟩ := update_eq_some.mp hc'
    · exact accepted
    · exact h.accepted e' c' hc'
  ratio e' c' r hc' hr := by
    obtain ⟨-, rfl⟩ | ⟨-, hc'⟩ := update_eq_some.mp hc'
    · exact ratio r hr
    · exact h.ratio e' c' r hc' hr
  platform := h.platform

end Terms

namespace Book

variable {b : Book} {self : Address}

theorem SaleSound.inRange {p : PaymentRecord} {ticket : Ticket} {payer : Address}
    (s : b.SaleSound p ticket payer) : p.InRange where
  positive := s.positive
  nonneg := s.unrefunded.ge
  le := s.unrefunded.trans_le s.positive.le
  unfinished _ := s.unrefunded.trans_lt s.positive
  identified := s.identified

theorem RefundSound.amends {p : PaymentRecord} {payer : Address} {x : ℤ} {status : PaymentStatus}
    (s : b.RefundSound p payer x status) (h : Recorded b.toRecords) :
    Amends b.toRecords p { p with refundedAmount := p.refundedAmount + x, status } where
  stored := s.stored
  event := rfl
  ticket := rfl
  inRange := by
    have range := h.inRange _ p s.stored
    have positive := s.positive
    have nonneg := range.nonneg
    refine ⟨range.positive, by dsimp only; omega, s.covered, ?_, range.identified⟩
    rintro (held | disputed)
    · exact s.status.elim (fun refunded => by simp_all) fun open_ => open_.2
    · exact s.status.elim (fun refunded => by simp_all) fun open_ => by simp_all

theorem amends_status {p : PaymentRecord} (status : PaymentStatus)
    (stored : b.payment p.paymentId = some p) (h : Recorded b.toRecords)
    (unfinished : p.status = .held ∨ p.status = .disputed) :
    Amends b.toRecords p { p with status } where
  stored := stored
  event := rfl
  ticket := rfl
  inRange :=
    have range := h.inRange _ p stored
    ⟨range.positive, range.nonneg, range.le, fun _ => range.unfinished unfinished,
      range.identified⟩

theorem amends_refunded {p : PaymentRecord} (stored : b.payment p.paymentId = some p)
    (h : Recorded b.toRecords) :
    Amends b.toRecords p { p with refundedAmount := p.amount, status := .refunded } where
  stored := stored
  event := rfl
  ticket := rfl
  inRange :=
    have range := h.inRange _ p stored
    ⟨range.positive, range.positive.le, le_rfl, by simp, range.identified⟩

/-- Only the wallet shows the price of a resale. -/
theorem recordResale_frame (self : Address) (b : Book) (ticket : Ticket) (t : Address)
    (price proceeds : ℤ) (buyer seller : Address) :
    (recordResale self b ticket t price proceeds buyer seller).toRecords = b.toRecords ∧
      (recordResale self b ticket t price proceeds buyer seller).toTerms = b.toTerms ∧
      (recordResale self b ticket t price proceeds buyer seller).toAccounts = b.toAccounts ∧
      (recordResale self b ticket t price proceeds buyer seller).toCounters = b.toCounters := by
  unfold recordResale
  dsimp only
  split <;> exact ⟨rfl, rfl, rfl, rfl⟩

theorem post_recorded (h : Recorded b.toRecords) {posting : Posting}
    (sound : Sound self b posting) : Recorded (b.post self posting).toRecords := by
  cases posting with
  | sale p ticket payer => exact h.append sound.next sound.ticket sound.inRange sound.held
  | refund p payer x status =>
    have undisputed : p.status = .disputed ↔ status = .disputed := by
      rw [sound.held]
      obtain rfl | ⟨rfl, -⟩ := sound.status <;> simp
    have kept := h.amend (sound.amends h) undisputed
    exact kept
  | freeze p d =>
    have kept := h.freeze (amends_status .disputed sound.stored h (.inl sound.held)) sound.held rfl
      sound.ticket sound.payment sound.event
    exact kept
  | unfreeze p =>
    have kept := h.close (amends_status .held sound.stored h (.inr sound.disputed))
      (by simp)
    exact kept
  | approve p payer =>
    have kept := h.close (amends_refunded sound.1.stored h) (by simp)
    exact kept
  | resale ticket t price fee royalty buyer seller =>
    obtain ⟨records, -⟩ :=
      recordResale_frame self b ticket t price (price - fee - royalty) buyer seller
    exact records ▸ h
  | handover ticket buyer => exact h.handover buyer sound.1 sound.2
  | bindReceipt p commitment =>
    have range := h.inRange _ p sound
    have amends : Amends b.toRecords p { p with zkEmailCommitment := some commitment } :=
      ⟨sound, rfl, rfl, range.positive, range.nonneg, range.le, range.unfinished,
        range.identified⟩
    have kept := h.amend amends Iff.rfl
    exact kept
  | _ => exact h

theorem Nets.fee_nonneg {t : Address} {total net : ℤ} (n : b.Nets t total net)
    (nonneg : 0 ≤ total) : 0 ≤ total - net := by
  obtain rfl | ⟨-, rfl⟩ := n
  · omega
  · have := bpsOf_nonneg nonneg b.feeBps
    omega

theorem Nets.known {t : Address} {total net : ℤ} (n : b.Nets t total net) :
    total - net = 0 ∨ b.acceptedToken.isSome := by
  obtain rfl | ⟨accepted, -⟩ := n
  · exact .inl (by omega)
  · exact .inr (by simp [accepted])

theorem post_configured (h : Configured b.toTerms b.platform) {posting : Posting}
    (sound : Sound self b posting) :
    Configured (b.post self posting).toTerms (b.post self posting).platform := by
  cases posting with
  | start admin token eventContract feeBps =>
    obtain ⟨-, unset, -, fee⟩ := sound
    have idle := h.idle unset
    exact
      { admin := by simp [post]
        eventContract := by simp [post]
        idle := fun none => by simp [post] at none
        fee := fee
        accepted := fun e c hc => by simp [post, (idle e).1] at hc
        ratio := fun e c r hc => by simp [post, (idle e).1] at hc
        platform := h.platform }
  | setFee feeBps => exact { h with fee := sound }
  | sale p ticket payer =>
    change Configured { b.toTerms with config := b.sold p.eventId } b.platform
    cases stored : b.config p.eventId with
    | none =>
      rw [sold, stored, Option.map_none, ← stored, Function.update_eq_self]
      exact h
    | some c =>
      rw [sold, stored, Option.map_some]
      exact h.configure (h.accepted _ c stored) fun r hr => h.ratio _ c r stored hr
  | payout e t pool total net left dst time =>
    exact h.credit e (sound.nets.fee_nonneg sound.positive.le) sound.nets.known
  | settle e t pool total net left =>
    have nets : b.Nets t total net := .inr ⟨sound.accepted, sound.net⟩
    exact h.credit e (nets.fee_nonneg sound.positive.le) nets.known
  | sweep e t dst =>
    exact h.setPlatform e le_rfl fun _ => rfl
  | resale ticket t price fee royalty buyer seller =>
    obtain ⟨c, stored, -, -⟩ := sound.config
    have known : b.acceptedToken.isSome := by simp [h.accepted _ c stored]
    have nonneg : 0 ≤ fee := sound.fee ▸ bpsOf_nonneg sound.positive.le b.feeBps
    obtain ⟨-, terms, accounts, -⟩ :=
      recordResale_frame self b ticket t price (price - fee - royalty) buyer seller
    have kept := h.credit ticket.eventId nonneg (.inr known)
    simpa only [post, addRevenue, terms] using kept
  | configure e c =>
    refine h.configure sound.accepted fun r hr => ?_
    rw [sound.ratio] at hr
    obtain ⟨old, stored, hr⟩ := Option.bind_eq_some_iff.mp hr
    exact h.ratio e old r stored hr
  | cancel e c =>
    obtain ⟨old, stored, same⟩ := sound.config
    have accepted := h.accepted e old stored
    have payoutToken : c.payoutToken = old.payoutToken := by rw [same]
    have ratio : ∀ r, c.withdrawableRatioBps = some r → r ≤ 10000 := by
      obtain ⟨r, hr, le⟩ := sound.ratio
      intro r' hr'
      rw [hr] at hr'
      cases hr'
      exact le
    have kept : Configured { b.toTerms with config := Function.update b.config e (some c) }
        b.platform := h.configure (payoutToken ▸ accepted) ratio
    exact { kept with }
  | setStatus | setEscrow | setSplits | setFlag | share => exact { h with }
  | _ => exact h

theorem post_kept (h : b.Kept) {posting : Posting} (sound : Sound self b posting) :
    (b.post self posting).Kept :=
  ⟨post_recorded h.recorded sound, post_configured h.configured sound⟩

theorem run_kept {b : Book} {ps : List Posting} (sound : Along (post self) (Sound self) b ps)
    (h : b.Kept) : (run (post self) b ps).Kept := by
  have step : ∀ b posting, Kept b → Sound self b posting → (b.post self posting).Kept :=
    fun _ _ h sound => post_kept h sound
  exact run_invariant step sound h

theorem post_config {posting : Posting} (sound : Sound self b posting) {e : Symbol}
    {c : EventConfig} (stored : b.config e = some c) :
    ∃ c', (b.post self posting).config e = some c' ∧
      (c.organizerWithdrawn = true → c'.organizerWithdrawn = true) ∧
      ((∀ new, posting ≠ .cancel e new) → c'.withdrawableRatioBps = c.withdrawableRatioBps) := by
  cases posting with
  | sale p ticket payer =>
    change ∃ c', b.sold p.eventId e = some c' ∧ _
    by_cases he : e = p.eventId
    · subst he
      exact ⟨{ c with soldCount := c.soldCount + 1 }, by simp [sold, stored], id, fun _ => rfl⟩
    · exact ⟨c, by simpa [sold, he] using stored, id, fun _ => rfl⟩
  | configure e' new =>
    by_cases he : e = e'
    · subst he
      refine ⟨new, Function.update_self .., sound.latch c stored, fun _ => ?_⟩
      rw [sound.ratio, stored]
      rfl
    · exact ⟨c, by simpa [post, he] using stored, id, fun _ => rfl⟩
  | cancel e' new =>
    by_cases he : e = e'
    · subst he
      obtain ⟨old, stored', update⟩ := sound.config
      rw [stored] at stored'
      cases stored'
      refine ⟨new, Function.update_self .., ?_, fun other => absurd rfl (other new)⟩
      intro withdrawn
      rw [update]
      exact withdrawn
    · exact ⟨c, by simpa [post, he] using stored, id, fun _ => rfl⟩
  | resale ticket t price fee royalty buyer seller =>
    have terms :=
      (recordResale_frame self b ticket t price (price - fee - royalty) buyer seller).2.1
    exact ⟨c, (congrFun (congrArg Terms.config terms) e).trans stored, id, fun _ => rfl⟩
  | _ => exact ⟨c, stored, id, fun _ => rfl⟩

end Book

end Zicket.Payments
