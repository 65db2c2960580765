import Zicket.Escrow.Revenue

/-! The refund pool of a cancelled event: what its held Standard payments can still claim. Before
any payout the revenue backs every payment; a payout that keeps to the organizer's part, and every
posting after it but a dispute, leaves the claims covered. -/

namespace Zicket.Payments

open Host Foundation Book

/-- What the payer of a held Standard payment can still claim at a refund ratio. -/
def PaymentRecord.claimable (ratio : ℕ) (p : PaymentRecord) : ℤ :=
  if p.status = .held ∧ p.privacyLevel = .standard then
    max 0 (bpsOf p.amount ratio - p.refundedAmount)
  else 0

namespace PaymentRecord

variable {p : PaymentRecord} {ratio ratio' : ℕ}

theorem claimable_nonneg (ratio : ℕ) (p : PaymentRecord) : 0 ≤ p.claimable ratio := by
  unfold claimable
  split
  · exact le_max_left _ _
  · exact le_rfl

theorem claimable_le (range : p.InRange) (le : ratio ≤ 10000) :
    p.claimable ratio ≤ p.unrefunded := by
  have share := bpsOf_le range.positive.le le
  have rest := range.le
  unfold claimable unrefunded
  split <;> omega

theorem claimable_le_unfrozen (range : p.InRange) (le : ratio ≤ 10000) :
    p.claimable ratio ≤ p.unfrozen := by
  by_cases disputed : p.status = .disputed
  · simp [claimable, unfrozen, disputed]
  · rw [unfrozen, if_neg disputed]
    exact claimable_le range le

theorem claimable_mono (range : p.InRange) (le : ratio ≤ ratio') :
    p.claimable ratio ≤ p.claimable ratio' := by
  have share := bpsOf_mono_rate range.positive.le le
  unfold claimable
  split <;> omega

theorem claimable_eq_zero (claimed : p.privacyLevel = .standard → p.status ≠ .refunded →
    bpsOf p.amount ratio ≤ p.refundedAmount) : p.claimable ratio = 0 := by
  unfold claimable
  split
  · rename_i held
    have share := claimed held.2 (by simp [held.1])
    omega
  · rfl

theorem claimable_le_rest (within : p.refundedAmount ≤ bpsOf p.amount ratio) :
    p.claimable ratio ≤ bpsOf p.amount ratio - p.refundedAmount := by
  unfold claimable
  split <;> omega

end PaymentRecord

namespace Book

variable (b : Book) (e : Symbol) (t : Address)

def claims : ℤ := b.total (inToken (·.claimable (b.refundRatio e)) e t)

/-- Every Standard payment that is not final was refunded its share. -/
def Claimed : Prop :=
  ∀ k p, b.payment k = some p → p.eventId = e → p.token = t → p.privacyLevel = .standard →
    p.status ≠ .refunded → bpsOf p.amount (b.refundRatio e) ≤ p.refundedAmount

/-- The organizer's pool is taken first, and from payments that have their refund share left. -/
structure PoolIntact : Prop where
  unpaid : ¬ b.PaidOut e t
  volume : b.volume e t = b.total (inToken (·.amount) e t)
  within : ∀ k p, b.payment k = some p → p.eventId = e → p.token = t →
    p.refundedAmount ≤ bpsOf p.amount (b.refundRatio e)

end Book

structure Backed (e : Symbol) (t : Address) (b : Book) : Prop where
  revenue : b.total (inToken (·.unfrozen) e t) ≤ b.revenue e t
  frozen : b.FrozenWhole e t

section Claims

variable {b : Book} {self : Address} {e : Symbol} {t : Address} {posting : Posting}

theorem refundRatio_le (b : Book) (e : Symbol) : b.refundRatio e ≤ 10000 := Nat.sub_le ..

theorem Backed.claims_le (h : Backed e t b) (recorded : Recorded b.toRecords) :
    b.claims e t ≤ b.revenue e t := by
  refine le_trans (tableSum_le fun k p stored => ?_) h.revenue
  have range := recorded.inRange k p stored
  exact inToken_mono (PaymentRecord.claimable_le_unfrozen range (refundRatio_le b e)) e t

theorem post_storedRatio (sound : Sound self b posting) (other : ∀ c, posting ≠ .cancel e c) :
    ((b.post self posting).config e).bind (·.withdrawableRatioBps) =
      (b.config e).bind (·.withdrawableRatioBps) := by
  cases stored : b.config e with
  | some c =>
    obtain ⟨c', stored', -, same⟩ := post_config sound stored
    rw [stored', Option.bind_some, Option.bind_some, same other]
  | none =>
    rw [← stored]
    cases posting with
    | sale p ticket payer =>
      change (b.sold p.eventId e).bind _ = _
      by_cases here : e = p.eventId
      · subst here
        simp [sold, stored]
      · rw [sold, Function.update_of_ne here]
    | configure e' c =>
      by_cases here : e = e'
      · subst here
        simpa [post] using sound.ratio
      · simp [post, here]
    | cancel e' c =>
      by_cases here : e = e'
      · subst here
        exact absurd rfl (other c)
      · simp [post, here]
    | resale ticket t price fee royalty buyer seller =>
      have terms :=
        (recordResale_frame self b ticket t price (price - fee - royalty) buyer seller).2.1
      exact congrArg (fun terms : Terms => (terms.config e).bind _) terms
    | _ => rfl

theorem post_refundRatio (sound : Sound self b posting) (other : ∀ c, posting ≠ .cancel e c) :
    (b.post self posting).refundRatio e = b.refundRatio e := by
  unfold refundRatio
  rw [post_storedRatio sound other]

theorem post_claims (recorded : Recorded b.toRecords) (sound : Sound self b posting)
    (other : ∀ c, posting ≠ .cancel e c) :
    (b.post self posting).claims e t =
      b.claims e t + posting.change (inToken (·.claimable (b.refundRatio e)) e t) := by
  unfold claims
  rw [post_refundRatio sound other, post_total recorded sound]

end Claims

section Backing

variable {b : Book} {self : Address} {e : Symbol} {t : Address} {posting : Posting}

theorem resale_revenueChange {ticket : Ticket} {t' : Address} {price fee royalty : ℤ}
    {buyer seller : Address} (sound : b.ResaleSound ticket t' price fee royalty seller) :
    0 ≤ b.revenueChange e t (.resale ticket t' price fee royalty buyer seller) := by
  obtain ⟨c, -, -, share⟩ := sound.config
  have royalty_nonneg : 0 ≤ royalty := share ▸ bpsOf_nonneg sound.positive.le _
  change 0 ≤ if e = ticket.eventId ∧ t = t' then royalty else 0
  split
  · exact royalty_nonneg
  · exact le_rfl

/-- Before a payout the revenue loses no more than the payments do. -/
theorem change_le_revenueChange (whole : b.FrozenWhole e t) (sound : Sound self b posting)
    (unrefunded : ∀ p d, posting = .freeze p d → p.eventId = e → p.token = t →
      p.refundedAmount = 0)
    (unpaid : ¬ (b.post self posting).PaidOut e t) :
    posting.change (inToken (·.unfrozen) e t) ≤ b.revenueChange e t posting := by
  by_cases paid : posting.entry ≠ .payout ∧ posting.entry ≠ .settle
  · by_cases unsold : posting.entry ≠ .resale
    · exact (revenueChange_eq whole sound unrefunded unsold paid).ge
    · cases posting with
      | resale ticket t' price fee royalty buyer seller => exact resale_revenueChange sound
      | _ => exact absurd (by simp [Posting.entry]) unsold
  · cases posting with
    | payout e' t' pool total net left dst time =>
      refine (if_neg ?_).ge
      rintro ⟨rfl, rfl⟩
      exact unpaid (.inl ⟨_, List.mem_cons_self, rfl, rfl, rfl⟩)
    | settle e' t' pool total net left =>
      refine (if_neg ?_).ge
      rintro ⟨rfl, rfl⟩
      exact unpaid (.inr ⟨_, Function.update_self .., rfl⟩)
    | _ => exact absurd ⟨by simp [Posting.entry], by simp [Posting.entry]⟩ paid

theorem post_backed (recorded : Recorded b.toRecords) (h : Backed e t b)
    (sound : Sound self b posting)
    (unrefunded : ∀ p d, posting = .freeze p d → p.eventId = e → p.token = t →
      p.refundedAmount = 0)
    (unpaid : ¬ (b.post self posting).PaidOut e t) : Backed e t (b.post self posting) where
  revenue := by
    rw [post_revenue, post_total recorded sound]
    exact add_le_add h.revenue (change_le_revenueChange h.frozen sound unrefunded unpaid)
  frozen := post_frozenWhole h.frozen sound unrefunded

/-- The organizer's pool, rounded down from the gross volume, leaves each payment its share. -/
theorem Backed.claims_le_left (h : Backed e t b) (recorded : Recorded b.toRecords)
    (intact : b.PoolIntact e t) (undisputed : b.disputes e = []) {r : ℕ} (le : r ≤ 10000)
    (ratio : b.refundRatio e = 10000 - r) :
    b.claims e t ≤ b.revenue e t - bpsOf (b.volume e t) r := by
  have amounts {k : ℕ} {p : PaymentRecord} (stored : b.payment k = some p) :
      0 ≤ inToken (·.amount) e t p :=
    inToken_nonneg (recorded.inRange k p stored).positive.le e t
  have claims : b.claims e t ≤ b.total fun p =>
      bpsOf (inToken (·.amount) e t p) (10000 - r) - inToken (·.refundedAmount) e t p := by
    refine tableSum_le fun k p stored => ?_
    unfold inToken
    split
    · rename_i here
      rw [← ratio]
      exact PaymentRecord.claimable_le_rest
        (intact.within k p stored here.1.symm here.2.symm)
    · simp [bpsOf]
  have shares : b.total (fun p => bpsOf (inToken (·.amount) e t p) (10000 - r)) ≤
      bpsOf (b.total (inToken (·.amount) e t)) (10000 - r) :=
    tableSum_bpsOf_le _ _ _ _ fun k p stored => amounts stored
  have gross : 0 ≤ b.total (inToken (·.amount) e t) :=
    tableSum_nonneg fun k p stored => amounts stored
  have escrow : b.total (inToken (·.amount) e t) - b.total (inToken (·.refundedAmount) e t) ≤
      b.revenue e t := by
    refine le_trans (le_of_eq ?_) h.revenue
    rw [Records.total, Records.total, ← tableSum_sub]
    refine tableSum_congr fun k p stored => ?_
    unfold inToken
    split
    · rename_i here
      have listed : p.status ≠ .disputed := fun disputed => by
        have mem := recorded.mem_disputes stored disputed
        rw [← here.1, undisputed] at mem
        cases mem
      exact (if_neg listed).symm
    · simp
  have split := bpsOf_add_complement_le gross le
  rw [Records.total, tableSum_sub] at claims
  rw [intact.volume]
  unfold Records.total at shares escrow split ⊢
  omega

end Backing

/-- What a payout of a cancelled event takes: the organizer's pool while it is intact, everything
only when there is nothing left to claim. -/
def Book.TakesOrganizerPart (b : Book) (e : Symbol) (t : Address) : Option ℕ → Prop
  | none => b.Claimed e t
  | some r => r = 10000 ∨ b.PoolIntact e t

def Book.KeepsPool (b : Book) (e : Symbol) (t : Address) : Posting → Prop
  | .refund p _ _ _ => p.eventId = e → b.status e = some .cancelled
  | .freeze p _ => p.eventId = e → p.token = t → p.refundedAmount = 0 ∧ ¬ b.PaidOut e t
  | .cancel e' c => e' = e → ¬ b.PaidOut e t ∨
      ((b.config e).bind (·.withdrawableRatioBps)).getD 0 ≤ c.withdrawableRatioBps.getD 0
  | .payout e' t' pool _ _ _ _ _ | .settle e' t' pool _ _ _ =>
    e' = e → t' = t → b.TakesOrganizerPart e t pool
  | _ => True

structure Pooled (e : Symbol) (t : Address) (b : Book) : Prop where
  backed : ¬ b.PaidOut e t → Backed e t b
  claims : b.claims e t ≤ b.revenue e t

section Pool

variable {b : Book} {self : Address} {e : Symbol} {t : Address} {posting : Posting}

theorem inToken_change_le {f : PaymentRecord → ℤ} {p q : PaymentRecord} {x : ℤ}
    (change : e = p.eventId → t = p.token → f q - f p ≤ x)
    (event : q.eventId = p.eventId := by rfl) (token : q.token = p.token := by rfl) :
    inToken f e t q - inToken f e t p ≤ inToken (fun _ => x) e t p := by
  unfold inToken
  rw [event, token]
  split
  · rename_i here
    exact change here.1 here.2
  · exact (sub_self _).le

theorem refund_claims (recorded : Recorded b.toRecords) {p : PaymentRecord} {payer : Address}
    {x : ℤ} {status : PaymentStatus} (sound : b.RefundSound p payer x status)
    (cancelled : b.status p.eventId = some .cancelled) :
    PaymentRecord.claimable (b.refundRatio p.eventId)
        { p with refundedAmount := p.refundedAmount + x, status } -
      p.claimable (b.refundRatio p.eventId) ≤ -x := by
  have share := sound.share cancelled
  have positive := sound.positive
  have standard : p.privacyLevel = .standard := by
    have identified := (recorded.inRange _ p sound.stored).identified
    have payer := sound.payer
    unfold PaymentRecord.Identified at identified
    split at identified <;> simp_all
  obtain rfl | ⟨rfl, -⟩ := sound.status
  · simp only [PaymentRecord.claimable, sound.held, standard, reduceCtorEq, false_and, and_self,
      if_true, if_false]
    omega
  · simp only [PaymentRecord.claimable, sound.held, standard, and_self, if_true]
    omega

/-- Apart from payouts and disputes, the claims grow by no more than the revenue. -/
theorem change_claims_le (recorded : Recorded b.toRecords) (sound : Sound self b posting)
    (keeps : b.KeepsPool e t posting)
    (other : posting.entry ∉ [.freeze, .payout, .settle]) :
    posting.change (inToken (·.claimable (b.refundRatio e)) e t) ≤
      b.revenueChange e t posting := by
  have le := refundRatio_le b e
  cases posting with
  | sale p ticket payer =>
    have range := (post_recorded recorded sound).inRange _ p (Function.update_self ..)
    have claim := PaymentRecord.claimable_le range le
    rw [PaymentRecord.unrefunded, sound.unrefunded, sub_zero] at claim
    exact inToken_mono claim e t
  | refund p payer x status =>
    rw [revenueChange, ← inToken_neg]
    refine inToken_change_le fun event token => ?_
    subst event
    exact refund_claims recorded sound (keeps rfl)
  | unfreeze p =>
    refine inToken_change_le fun _ _ => ?_
    have range := (post_recorded recorded sound).inRange _ _ (Function.update_self ..)
    have claim := PaymentRecord.claimable_le range le
    have before := PaymentRecord.claimable_nonneg (b.refundRatio e) p
    have part := range.nonneg
    simp only [PaymentRecord.unrefunded] at claim part
    omega
  | approve p payer =>
    have none : inToken (fun _ => 0) e t p = 0 := ite_self 0
    refine le_of_le_of_eq (inToken_change_le fun _ _ => ?_) none
    simp [PaymentRecord.claimable, sound.1.disputed]
  | bindReceipt p commitment => exact (sub_self _).le
  | resale ticket t' price fee royalty buyer seller => exact resale_revenueChange sound
  | freeze | payout | settle => exact absurd (by simp [Posting.entry]) other
  | _ => exact le_rfl

theorem claims_le_left (kept : b.Kept) (h : Pooled e t b) {pool : Option ℕ} {total left : ℤ}
    (takes : b.Takes e t pool total left) (part : b.TakesOrganizerPart e t pool) :
    b.claims e t ≤ left := by
  have none (claimed : ∀ k p, b.payment k = some p → p.eventId = e → p.token = t →
      p.claimable (b.refundRatio e) = 0) : b.claims e t = 0 := by
    refine tableSum_eq_zero fun k p stored => ?_
    unfold inToken
    split
    · rename_i here
      exact claimed k p stored here.1.symm here.2.symm
    · rfl
  cases pool with
  | none =>
    rw [takes.2, none fun k p stored event token =>
      PaymentRecord.claimable_eq_zero (part k p stored event token)]
  | some r =>
    obtain ⟨pooled, undisputed, rfl, rfl⟩ := takes
    have stored : (b.config e).bind (·.withdrawableRatioBps) = some r := by
      unfold pool at pooled
      split at pooled
      · exact pooled
      · cases pooled
    have ratio : b.refundRatio e = 10000 - r := by
      unfold refundRatio
      rw [stored, Option.getD_some]
    split
    · rename_i full
      refine (none fun k p stored event token => ?_).le
      refine PaymentRecord.claimable_eq_zero fun _ _ => ?_
      rw [ratio, full, Nat.sub_self, bpsOf_zero]
      exact (kept.recorded.inRange k p stored).nonneg
    · rename_i below
      have intact := part.resolve_left below
      obtain ⟨c, config, cancelled⟩ := Option.bind_eq_some_iff.mp stored
      have le := kept.configured.ratio e c r config cancelled
      exact (h.backed intact.unpaid).claims_le_left kept.recorded intact undisputed le ratio

theorem post_pooled (kept : b.Kept) (h : Pooled e t b) (sound : Sound self b posting)
    (keeps : b.KeepsPool e t posting) : Pooled e t (b.post self posting) := by
  have backed : ¬ (b.post self posting).PaidOut e t → Backed e t (b.post self posting) := by
    intro unpaid
    refine post_backed kept.recorded (h.backed fun paid => unpaid (post_paidOut sound paid)) sound
      ?_ unpaid
    rintro p d rfl event token
    exact (keeps event token).1
  refine ⟨backed, ?_⟩
  -- until a payout the claims are part of what backs the payments
  by_cases paid : (b.post self posting).PaidOut e t
  swap
  · exact (backed paid).claims_le (post_recorded kept.recorded sound)
  have step (same : ∀ c, posting ≠ .cancel e c)
      (change : posting.change (inToken (·.claimable (b.refundRatio e)) e t) ≤
        b.revenueChange e t posting) :
      (b.post self posting).claims e t ≤ (b.post self posting).revenue e t := by
    rw [post_claims kept.recorded sound same, post_revenue]
    exact add_le_add h.claims change
  have payout {e' : Symbol} {t' : Address} {pool : Option ℕ} {total left : ℤ}
      (takes : b.Takes e' t' pool total left)
      (part : e' = e → t' = t → b.TakesOrganizerPart e t pool) :
      b.claims e t ≤ b.revenue e t +
        if e = e' ∧ t = t' then left - b.revenue e t else 0 := by
    split
    · rename_i here
      obtain ⟨rfl, rfl⟩ := here
      rw [add_sub_cancel]
      exact claims_le_left kept h takes (part rfl rfl)
    · rw [add_zero]
      exact h.claims
  by_cases other : posting.entry ∉ [.freeze, .payout, .settle, .cancel]
  · have still : posting.entry ∉ [.freeze, .payout, .settle] := fun mem => other (by grind)
    refine step (fun c same => other ?_) (change_claims_le kept.recorded sound keeps still)
    simp [same, Posting.entry]
  · cases posting with
    | freeze p d =>
      by_cases here : p.eventId = e ∧ p.token = t
      · exact absurd paid (keeps here.1 here.2).2
      · refine step (fun _ => Posting.noConfusion) (le_of_eq ?_)
        have elsewhere : ¬ (e = p.eventId ∧ t = p.token) :=
          fun same => here ⟨same.1.symm, same.2.symm⟩
        simp [Posting.change, revenueChange, inToken, elsewhere]
    | payout e' t' pool total net left dst time =>
      rw [post_claims kept.recorded sound (fun _ => Posting.noConfusion), post_revenue]
      exact (add_zero _).trans_le (payout sound.takes keeps)
    | settle e' t' pool total net left =>
      rw [post_claims kept.recorded sound (fun _ => Posting.noConfusion), post_revenue]
      exact (add_zero _).trans_le (payout sound.takes keeps)
    | cancel e' c =>
      have lower : (b.post self (.cancel e' c)).refundRatio e ≤ b.refundRatio e := by
        unfold refundRatio
        by_cases here : e = e'
        · subst here
          have higher := (keeps rfl).resolve_left (not_not_intro paid)
          simp only [post, Function.update_self, Option.bind_some]
          omega
        · simp [post, here]
      refine le_trans (tableSum_le fun k p stored => ?_) h.claims
      have range := kept.recorded.inRange k p stored
      exact inToken_mono (PaymentRecord.claimable_mono range lower) e t
    | _ => exact absurd (by simp [Posting.entry]) other

theorem post_hasRatio (sound : Sound self b posting) {r : ℕ}
    (stored : (b.config e).bind (·.withdrawableRatioBps) = some r) :
    ∃ r, ((b.post self posting).config e).bind (·.withdrawableRatioBps) = some r := by
  by_cases cancels : ∃ c, posting = .cancel e c
  · obtain ⟨c, rfl⟩ := cancels
    obtain ⟨r', ratio, -⟩ := sound.ratio
    exact ⟨r', by simpa [post] using ratio⟩
  · exact ⟨r, (post_storedRatio sound (not_exists.mp cancels)).trans stored⟩

/-- A dispute that runs out leaves open what a payout may take. -/
theorem post_takesOrganizerPart (recorded : Recorded b.toRecords) {p : PaymentRecord}
    (sound : Sound self b (.unfreeze p)) {pool : Option ℕ} (h : b.TakesOrganizerPart e t pool) :
    (b.post self (.unfreeze p)).TakesOrganizerPart e t pool := by
  have old {k : ℕ} {q : PaymentRecord} (stored : (b.post self (.unfreeze p)).payment k = some q) :
      ∃ q', b.payment k = some q' ∧ q'.eventId = q.eventId ∧ q'.token = q.token ∧
        q'.privacyLevel = q.privacyLevel ∧ q'.amount = q.amount ∧
        q'.refundedAmount = q.refundedAmount ∧ (q.status ≠ .refunded → q'.status ≠ .refunded) := by
    obtain ⟨rfl, rfl⟩ | ⟨-, stored⟩ := update_eq_some.mp stored
    · exact ⟨p, sound.stored, rfl, rfl, rfl, rfl, rfl, fun _ => by simp [sound.disputed]⟩
    · exact ⟨q, stored, rfl, rfl, rfl, rfl, rfl, id⟩
  cases pool with
  | none =>
    intro k q stored event token standard open_
    obtain ⟨q', stored', event', token', level, amount, part, still⟩ := old stored
    have claimed := h k q' stored' (event'.trans event) (token'.trans token) (level.trans standard)
      (still open_)
    rw [amount, part] at claimed
    exact claimed
  | some r =>
    refine h.imp_right fun intact => ⟨intact.unpaid, ?_, fun k q stored event token => ?_⟩
    · rw [post_total recorded sound]
      exact intact.volume.trans (add_eq_left.mpr (sub_self _)).symm
    · obtain ⟨q', stored', event', token', -, amount, part, -⟩ := old stored
      have within := intact.within k q' stored' (event'.trans event) (token'.trans token)
      rw [amount, part] at within
      exact within

end Pool

end Zicket.Payments
