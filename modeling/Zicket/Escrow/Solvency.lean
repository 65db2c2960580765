import Zicket.Escrow.Revenue
import Zicket.Escrow.Shares

/-! Solvency of one event in one token: what was received for it covers what was sent, what
is owed to the platform and to split recipients, and what its payments have in escrow. -/

namespace Zicket.Payments

open Host Foundation Book

def Transfer.surplus (tr : Transfer) : ℤ := tr.received - tr.sent

theorem Transfer.surplus_eq (tr : Transfer) :
    tr.surplus =
      match tr.purpose with
      | .ticketPayment _ | .resalePrice _ => tr.amount
      | _ => -tr.amount := by
  cases kind : tr.purpose <;>
    simp [surplus, received, sent, paid, resaleKept, refunded, withdrawn, kind]

def Posting.freeChange (e : Symbol) (t : Address) : Posting → ℤ
  | .sale p _ _ => inToken (·.amount) e t p
  | .refund p _ x _ => -inToken (fun _ => x) e t p
  | .approve p _ => -inToken (·.unrefunded) e t p
  | .payout e' t' _ total _ _ _ _ | .settle e' t' _ total _ _ =>
    if e = e' ∧ t = t' then -total else 0
  | .resale ticket t' _ _ royalty _ _ => if e = ticket.eventId ∧ t = t' then royalty else 0
  | _ => 0

namespace Book

variable (b : Book) (e : Symbol) (t : Address)

/-- The revenue, and what open disputes took out of it. -/
def held : ℤ := b.revenue e t + b.total (inToken (·.frozen) e t)

def owedPlatform : ℤ := if b.acceptedToken = some t then b.platform e else 0

def owedShares : ℤ :=
  match b.settlement e with
  | some s => if s.token = t then s.netDistributable - tally (Transfer.shareOf e) b.transfers else 0
  | none => 0

/-- What is left of an event's money once the debts of the contract are set aside. -/
def free : ℤ :=
  tallyAt Transfer.surplus b.transfers e t - b.owedPlatform e t - b.owedShares e t

def heldChange (e : Symbol) (t : Address) : Posting → ℤ
  | .sale p _ _ => inToken (·.amount) e t p
  | .refund p _ x _ => -inToken (fun _ => x) e t p
  | .approve p _ => -inToken (·.amount) e t p
  | .payout e' t' _ _ _ left _ _ | .settle e' t' _ _ _ left =>
    if e = e' ∧ t = t' then left - b.revenue e t else 0
  | .resale ticket t' _ _ royalty _ _ => if e = ticket.eventId ∧ t = t' then royalty else 0
  | _ => 0

end Book

section Changes

variable {b : Book} {self : Address} {e : Symbol} {t : Address} {posting : Posting}

theorem post_held (recorded : Recorded b.toRecords) (sound : Sound self b posting) :
    (b.post self posting).held e t = b.held e t + b.heldChange e t posting := by
  have frozen : b.revenueChange e t posting + posting.change (inToken (·.frozen) e t) =
      b.heldChange e t posting := by
    cases posting with
    | sale p ticket payer =>
      have none : inToken (·.frozen) e t p = 0 := by
        simp [inToken, PaymentRecord.frozen, sound.held]
      exact (congrArg _ none).trans (add_zero _)
    | refund p payer x status =>
      have none : inToken (fun _ => 0) e t p = 0 := ite_self 0
      have same : inToken (fun _ => 0) e t p =
          inToken (·.frozen) e t { p with refundedAmount := p.refundedAmount + x, status } -
            inToken (·.frozen) e t p := by
        refine inToken_sub fun _ _ => ?_
        obtain rfl | ⟨rfl, -⟩ := sound.status <;> simp [PaymentRecord.frozen, sound.held]
      exact (congrArg _ (same.symm.trans none)).trans (add_zero _)
    | freeze p d =>
      have gain : inToken (·.amount) e t p =
          inToken (·.frozen) e t { p with status := .disputed } - inToken (·.frozen) e t p :=
        inToken_sub fun _ _ => by simp [PaymentRecord.frozen, sound.held]
      exact (congrArg _ gain.symm).trans (neg_add_cancel _)
    | unfreeze p =>
      have loss : inToken (fun p => -p.amount) e t p =
          inToken (·.frozen) e t { p with status := .held } - inToken (·.frozen) e t p :=
        inToken_sub fun _ _ => by simp [PaymentRecord.frozen, sound.disputed]
      rw [inToken_neg (·.amount)] at loss
      exact (congrArg _ loss.symm).trans (add_neg_cancel _)
    | approve p payer =>
      have loss : inToken (fun p => -p.amount) e t p =
          inToken (·.frozen) e t { p with refundedAmount := p.amount, status := .refunded } -
            inToken (·.frozen) e t p :=
        inToken_sub fun _ _ => by simp [PaymentRecord.frozen, sound.1.disputed]
      rw [inToken_neg (·.amount)] at loss
      exact (zero_add _).trans loss.symm
    | bindReceipt p commitment => exact (zero_add _).trans (sub_self _)
    | _ => exact add_zero _
  unfold held
  rw [post_revenue, post_total recorded sound, ← frozen]
  ring

theorem owedPlatform_credit (b' : Book) (e' : Symbol) (x : ℤ)
    (accepted : b'.acceptedToken = b.acceptedToken)
    (platform : b'.platform = Function.update b.platform e' (b.platform e' + x)) :
    b'.owedPlatform e t =
      b.owedPlatform e t + if e = e' ∧ b.acceptedToken = some t then x else 0 := by
  unfold owedPlatform
  rw [accepted, platform]
  by_cases he : e = e' <;> by_cases token : b.acceptedToken = some t <;> simp [he, token]

theorem owedShares_record {b' : Book} {tr : Transfer} (settlement : b'.settlement = b.settlement)
    (transfers : b'.transfers = tr :: b.transfers)
    (share : ∀ s, b.settlement e = some s → s.token = t → tr.shareOf e = 0) :
    b'.owedShares e t = b.owedShares e t := by
  unfold owedShares
  rw [settlement, transfers, tally_cons]
  split
  · rename_i s settled
    split
    · rename_i token
      rw [share s settled token, zero_add]
    · rfl
  · rfl

theorem surplus_record {b' : Book} {tr : Transfer} (transfers : b'.transfers = tr :: b.transfers) :
    tallyAt Transfer.surplus b'.transfers e t = tallyAt Transfer.surplus b.transfers e t +
      if e = tr.eventId ∧ t = tr.token then tr.surplus else 0 := by
  rw [transfers, tallyAt_cons]
  exact put_add_eq rfl

theorem resale_surplus (self : Address) (b : Book) (ticket : Ticket) (t' : Address)
    (price proceeds : ℤ) (buyer seller : Address) :
    tallyAt Transfer.surplus
        (recordResale self b ticket t' price proceeds buyer seller).transfers e t =
      tallyAt Transfer.surplus b.transfers e t +
        if e = ticket.eventId ∧ t = t' then price - max proceeds 0 else 0 := by
  have paidIn : ∀ id, Transfer.surplus ⟨t', buyer, self, price, ticket.eventId, .resalePrice id⟩ =
      price := fun _ => Transfer.surplus_eq _
  have paidOn : ∀ id,
      Transfer.surplus ⟨t', self, seller, proceeds, ticket.eventId, .resaleProceeds id⟩ =
        -proceeds := fun _ => Transfer.surplus_eq _
  unfold recordResale
  dsimp only
  split
  · rename_i positive
    rw [surplus_record (b := b.record _) rfl, surplus_record (b := b) rfl, paidIn, paidOn,
      max_eq_left positive.le]
    split <;> ring
  · rename_i none
    rw [surplus_record (b := b) rfl, paidIn, max_eq_right (not_lt.mp none), sub_zero]

theorem unsettled_shares (shared : Shared self b) (unsettled : b.settlement e = none) :
    tally (Transfer.shareOf e) b.transfers = 0 := by
  rw [shared.total]
  refine tally_eq_zero fun split _ => le_antisymm (not_lt.mp fun paid => ?_) (shared.nonneg e _)
  have settled := (shared.listed e _ paid).1
  rw [unsettled] at settled
  cases settled

theorem Book.Nets.taken {t' : Address} {total net : ℤ} (nets : b.Nets t' total net)
    (e' : Symbol) :
    (if e = e' ∧ t = t' then -net else 0) -
        (if e = e' ∧ b.acceptedToken = some t then total - net else 0) =
      if e = e' ∧ t = t' then -total else 0 := by
  obtain rfl | ⟨accepted, -⟩ := nets
  · simp
  · rw [accepted]
    by_cases he : e = e' <;> by_cases token : t = t'
    · simp only [he, token, and_self, if_true]
      ring
    · simp [he, token, Ne.symm token]
    · simp [he]
    · simp [he]

theorem free_record (b' : Book) (tr : Transfer) (owed : ℤ)
    (transfers : b'.transfers = tr :: b.transfers) (settlement : b'.settlement = b.settlement)
    (share : ∀ s, b.settlement e = some s → s.token = t → tr.shareOf e = 0)
    (platform : b'.owedPlatform e t = b.owedPlatform e t + owed) :
    b'.free e t =
      b.free e t + ((if e = tr.eventId ∧ t = tr.token then tr.surplus else 0) - owed) := by
  unfold free
  rw [surplus_record transfers, owedShares_record settlement transfers share, platform]
  ring

theorem settle_owedShares {e' : Symbol} (t' : Address) (pool : Option ℕ) (total net left : ℤ)
    (shared : Shared self b) (unsettled : b.settlement e' = none) :
    (b.post self (.settle e' t' pool total net left)).owedShares e t =
      b.owedShares e t + if e = e' ∧ t = t' then net else 0 := by
  have log : (b.post self (.settle e' t' pool total net left)).transfers = b.transfers := rfl
  unfold owedShares
  by_cases he : e = e'
  · subst he
    have settled : (b.post self (.settle e t' pool total net left)).settlement e =
        some ⟨t', net⟩ := Function.update_self ..
    rw [settled, unsettled, log, unsettled_shares shared unsettled]
    simp [eq_comm]
  · have settled : (b.post self (.settle e' t' pool total net left)).settlement e =
        b.settlement e := Function.update_of_ne he ..
    rw [settled, if_neg fun same => he same.1, add_zero]
    rfl

theorem share_owedShares {who dst : Address} {s : SplitSettlement} {amount : ℤ} {time : ℕ}
    (stored : b.settlement e = some s) :
    (b.post self (.share e who dst s amount time)).owedShares e s.token =
      b.owedShares e s.token - amount := by
  have settled : (b.post self (.share e who dst s amount time)).settlement e = some s := stored
  have log : (b.post self (.share e who dst s amount time)).transfers =
      ⟨s.token, self, dst, amount, e, .splitShare who⟩ :: b.transfers := rfl
  have share : Transfer.shareOf e ⟨s.token, self, dst, amount, e, .splitShare who⟩ = amount :=
    if_pos rfl
  unfold owedShares
  rw [settled, stored, log, tally_cons, share]
  simp only [if_true]
  ring

theorem resale_owedShares {ticket : Ticket} {t' buyer seller : Address} {price fee royalty : ℤ} :
    (b.post self (.resale ticket t' price fee royalty buyer seller)).owedShares e t =
      b.owedShares e t := by
  obtain ⟨-, -, accounts, -⟩ :=
    recordResale_frame self b ticket t' price (price - fee - royalty) buyer seller
  have settlement : (b.post self (.resale ticket t' price fee royalty buyer seller)).settlement =
      b.settlement := (congrArg Accounts.settlement accounts :)
  have none : tally (Transfer.shareOf e)
      (b.added self (.resale ticket t' price fee royalty buyer seller)) = 0 := by
    refine tally_eq_zero fun tr mem => ?_
    obtain ⟨kind, -⟩ | ⟨kind, -⟩ := mem_resaleTransfers mem <;> simp [Transfer.shareOf, kind]
  unfold owedShares
  rw [settlement, post_transfers, tally_append, none, zero_add]

theorem post_free (kept : b.Kept) (shared : Shared self b) (sound : Sound self b posting)
    (proceeds : ∀ ticket t price fee royalty buyer seller,
      posting = .resale ticket t price fee royalty buyer seller → ticket.eventId = e →
        fee + royalty ≤ price) :
    (b.post self posting).free e t = b.free e t + posting.freeChange e t := by
  cases posting with
  | sale p ticket payer =>
    refine (free_record (b.post self (.sale p ticket payer)) (paymentTransfer self p payer) 0 rfl rfl
      (fun _ _ _ => rfl) (add_zero _).symm).trans ?_
    simp [Posting.freeChange, inToken, paymentTransfer, Transfer.surplus_eq]
  | refund p payer x status =>
    refine (free_record (b.post self (.refund p payer x status)) (refundTransfer self p payer x) 0
      rfl rfl (fun _ _ _ => rfl) (add_zero _).symm).trans ?_
    rw [Posting.freeChange, ← inToken_neg (fun _ => x)]
    simp [inToken, refundTransfer, Transfer.surplus_eq]
  | approve p payer =>
    refine (free_record (b.post self (.approve p payer))
      (refundTransfer self p payer (p.amount - p.refundedAmount)) 0 rfl rfl (fun _ _ _ => rfl)
      (add_zero _).symm).trans ?_
    rw [Posting.freeChange, ← inToken_neg (·.unrefunded)]
    simp [inToken, refundTransfer, Transfer.surplus_eq, PaymentRecord.unrefunded]
  | payout e' t' pool total net left dst time =>
    refine (free_record (b.post self (.payout e' t' pool total net left dst time))
      ⟨t', self, dst, net, e', .revenue⟩ _ rfl rfl (fun _ _ _ => rfl)
      (owedPlatform_credit _ e' (total - net) rfl rfl)).trans ?_
    rw [Posting.freeChange, ← sound.nets.taken e']
    simp [Transfer.surplus_eq]
  | settle e' t' pool total net left =>
    have nets : b.Nets t' total net := .inr ⟨sound.accepted, sound.net⟩
    have owed := settle_owedShares (e := e) (t := t) t' pool total net left shared sound.unsettled
    have platform := owedPlatform_credit (b := b) (e := e) (t := t)
      (b.post self (.settle e' t' pool total net left)) e' (total - net) rfl rfl
    have log : (b.post self (.settle e' t' pool total net left)).transfers = b.transfers := rfl
    have taken := nets.taken (e := e) (t := t) e'
    have minus : (if e = e' ∧ t = t' then -net else 0) =
        -(if e = e' ∧ t = t' then net else 0) := by split <;> simp
    rw [free, free, owed, platform, log, Posting.freeChange, ← taken, minus]
    ring
  | share e' who dst s amount time =>
    have surplus : Transfer.surplus ⟨s.token, self, dst, amount, e', .splitShare who⟩ = -amount :=
      Transfer.surplus_eq _
    by_cases here : e = e' ∧ t = s.token
    · -- the share leaves the log and the debt together
      obtain ⟨rfl, rfl⟩ := here
      have log : (b.post self (.share e who dst s amount time)).transfers =
          ⟨s.token, self, dst, amount, e, .splitShare who⟩ :: b.transfers := rfl
      have platform : (b.post self (.share e who dst s amount time)).owedPlatform e s.token =
          b.owedPlatform e s.token := rfl
      rw [free, free, share_owedShares sound.settled, platform, surplus_record log, surplus,
        if_pos ⟨rfl, rfl⟩]
      change _ = _ + (0 : ℤ)
      ring
    · refine (free_record (b.post self (.share e' who dst s amount time))
        ⟨s.token, self, dst, amount, e', .splitShare who⟩ 0 rfl rfl ?_ (add_zero _).symm).trans ?_
      · intro s' settled token
        refine if_neg fun event => here ⟨event.symm, ?_⟩
        rw [← event, sound.settled] at settled
        cases settled
        exact token.symm
      · rw [if_neg here, sub_zero]
        rfl
  | sweep e' t' dst =>
    have platform : (b.post self (.sweep e' t' dst)).platform =
        Function.update b.platform e' (b.platform e' + -b.platform e') := by
      rw [add_neg_cancel]
      rfl
    refine (free_record (b.post self (.sweep e' t' dst))
      ⟨t', self, dst, b.platform e', e', .platformSweep⟩ _ rfl rfl (fun _ _ _ => rfl)
      (owedPlatform_credit _ e' _ rfl platform)).trans ?_
    rw [sound.2]
    by_cases he : e = e' <;> by_cases token : t = t' <;>
      simp [he, token, eq_comm, Posting.freeChange, Transfer.surplus_eq]
  | resale ticket t' price fee royalty buyer seller =>
    obtain ⟨c, stored, token, -⟩ := sound.config
    have accepted : b.acceptedToken = some t' := token ▸ kept.configured.accepted _ c stored
    obtain ⟨-, terms, -⟩ :=
      recordResale_frame self b ticket t' price (price - fee - royalty) buyer seller
    have surplus := resale_surplus self b (e := e) (t := t) ticket t' price
      (price - fee - royalty) buyer seller
    have platform := owedPlatform_credit (b := b) (e := e) (t := t)
      (b.post self (.resale ticket t' price fee royalty buyer seller)) ticket.eventId fee
      (congrArg Terms.acceptedToken terms) rfl
    have log : tallyAt Transfer.surplus
        (b.post self (.resale ticket t' price fee royalty buyer seller)).transfers e t = _ := surplus
    rw [free, free, resale_owedShares, platform, log, accepted, Posting.freeChange]
    by_cases he : e = ticket.eventId
    · have le := proceeds _ _ _ _ _ _ _ rfl he.symm
      by_cases token : t = t'
      · simp only [he, token, and_self, if_true, max_eq_left (show 0 ≤ price - fee - royalty by omega)]
        ring
      · simp only [he, token, Ne.symm token, and_false, if_false, Option.some.injEq]
        ring
    · simp only [he, false_and, if_false]
      ring
  | start admin token eventContract feeBps =>
    have idle := (kept.configured.idle sound.2.1 e).2
    have before : b.owedPlatform e t = 0 := by
      rw [owedPlatform, sound.2.1]
      simp
    have after : (b.post self (.start admin token eventContract feeBps)).owedPlatform e t = 0 := by
      have platform : (b.post self (.start admin token eventContract feeBps)).platform e = 0 := idle
      rw [owedPlatform, platform, ite_self]
    rw [free, free, before, after]
    exact (add_zero _).symm
  | _ => exact (add_zero _).symm

end Changes

/-- The free money of an event covers what its payments have in escrow. -/
structure Solvent (e : Symbol) (t : Address) (b : Book) : Prop where
  nonneg : 0 ≤ b.free e t
  held : b.held e t ≤ b.free e t

/-- Refunds, dispute approvals and cancellation pools stay within what the event holds;
fee and royalty stay within a resale's price. -/
def Book.Covers (b : Book) (e : Symbol) (t : Address) : Posting → Prop
  | .refund p _ x _ => p.eventId = e → p.token = t → x ≤ b.held e t
  | .approve p _ => p.eventId = e → p.token = t → p.unrefunded ≤ b.held e t
  | .payout e' t' (some _) total _ _ _ _ | .settle e' t' (some _) total _ _ =>
    e' = e → t' = t → total ≤ b.held e t
  | .resale ticket _ price fee royalty _ _ => ticket.eventId = e → fee + royalty ≤ price
  | _ => True

section Solvent

variable {b : Book} {self : Address} {e : Symbol} {t : Address} {posting : Posting}

theorem frozen_nonneg (recorded : Recorded b.toRecords) : 0 ≤ b.total (inToken (·.frozen) e t) := by
  refine tableSum_nonneg fun k p stored => inToken_nonneg ?_ e t
  have := (recorded.inRange k p stored).positive
  unfold PaymentRecord.frozen
  split <;> omega

theorem frozen_of_undisputed (recorded : Recorded b.toRecords) (undisputed : b.disputes e = []) :
    b.total (inToken (·.frozen) e t) = 0 := by
  refine tableSum_eq_zero fun k p stored => ?_
  unfold inToken PaymentRecord.frozen
  split
  · rename_i here
    refine if_neg fun disputed => ?_
    have listed := recorded.mem_disputes stored disputed
    rw [← here.1, undisputed] at listed
    cases listed
  · rfl

/-- Taking the whole revenue, or a pool that is covered, keeps the event solvent. -/
theorem Solvent.takes (h : Solvent e t b) (recorded : Recorded b.toRecords) {pool : Option ℕ}
    {total left : ℤ} (takes : b.Takes e t pool total left)
    (covered : ∀ r, pool = some r → total ≤ b.held e t) :
    0 ≤ b.free e t - total ∧ b.held e t + (left - b.revenue e t) ≤ b.free e t - total := by
  have nonneg := h.nonneg
  have held := h.held
  have frozen := frozen_nonneg (e := e) (t := t) recorded
  have split : b.held e t = b.revenue e t + b.total (inToken (·.frozen) e t) := rfl
  cases pool with
  | none =>
    obtain ⟨rfl, rfl⟩ := takes
    omega
  | some r =>
    obtain ⟨-, undisputed, -, rfl⟩ := takes
    have covered := covered r rfl
    have idle := frozen_of_undisputed (t := t) recorded undisputed
    constructor
    · omega
    · by_cases full : r = 10000
      · rw [if_pos full]
        omega
      · rw [if_neg full]
        omega

theorem post_solvent (h : Solvent e t b) (kept : b.Kept) (shared : Shared self b)
    (sound : Sound self b posting) (covers : b.Covers e t posting) :
    Solvent e t (b.post self posting) := by
  have proceeds : ∀ ticket t price fee royalty buyer seller,
      posting = .resale ticket t price fee royalty buyer seller → ticket.eventId = e →
        fee + royalty ≤ price := by
    rintro ticket t price fee royalty buyer seller rfl
    exact covers
  have changed (free : 0 ≤ b.free e t + posting.freeChange e t)
      (held : b.held e t + b.heldChange e t posting ≤ b.free e t + posting.freeChange e t) :
      Solvent e t (b.post self posting) := by
    have newFree := post_free (t := t) kept shared sound proceeds
    have newHeld := post_held (e := e) (t := t) kept.recorded sound
    exact ⟨newFree ▸ free, newFree ▸ newHeld ▸ held⟩
  have nonneg := h.nonneg
  have held := h.held
  cases posting with
  | sale p ticket payer =>
    have positive : 0 ≤ inToken (·.amount) e t p := inToken_nonneg sound.positive.le e t
    apply changed <;> simp only [Posting.freeChange, heldChange] <;> omega
  | refund p payer x status =>
    have le : inToken (fun _ => x) e t p ≤ b.held e t ∨ inToken (fun _ => x) e t p = 0 := by
      unfold inToken
      split
      · rename_i here
        exact .inl (covers here.1.symm here.2.symm)
      · exact .inr rfl
    apply changed <;> simp only [Posting.freeChange, heldChange] <;> omega
  | approve p payer =>
    have range := kept.recorded.inRange _ p sound.1.stored
    have le : inToken (·.unrefunded) e t p ≤ b.held e t ∨ inToken (·.unrefunded) e t p = 0 := by
      unfold inToken
      split
      · rename_i here
        exact .inl (covers here.1.symm here.2.symm)
      · exact .inr rfl
    have part : inToken (·.unrefunded) e t p ≤ inToken (·.amount) e t p :=
      inToken_mono (sub_le_self _ range.nonneg) e t
    apply changed <;> simp only [Posting.freeChange, heldChange] <;> omega
  | payout e' t' pool total net left dst time =>
    by_cases here : e = e' ∧ t = t'
    · obtain ⟨rfl, rfl⟩ := here
      obtain ⟨free, held⟩ := h.takes kept.recorded sound.takes
        (by rintro r rfl; exact covers rfl rfl)
      apply changed <;> simp only [Posting.freeChange, heldChange, and_self, if_true] <;> omega
    · apply changed <;> simp only [Posting.freeChange, heldChange, if_neg here] <;> omega
  | settle e' t' pool total net left =>
    by_cases here : e = e' ∧ t = t'
    · obtain ⟨rfl, rfl⟩ := here
      obtain ⟨free, held⟩ := h.takes kept.recorded sound.takes
        (by rintro r rfl; exact covers rfl rfl)
      apply changed <;> simp only [Posting.freeChange, heldChange, and_self, if_true] <;> omega
    · apply changed <;> simp only [Posting.freeChange, heldChange, if_neg here] <;> omega
  | resale ticket t' price fee royalty buyer seller =>
    obtain ⟨c, -, -, share⟩ := sound.config
    have positive : 0 ≤ royalty := share ▸ bpsOf_nonneg sound.positive.le _
    apply changed <;> simp only [Posting.freeChange, heldChange] <;> split <;> omega
  | _ =>
    exact changed (by simpa [Posting.freeChange] using nonneg)
      (by simpa [Posting.freeChange, heldChange] using held)

theorem owedShares_nonneg (shared : Shared self b) : 0 ≤ b.owedShares e t := by
  unfold owedShares
  split
  · rename_i s settled
    split
    · obtain ⟨split, positive⟩ := shared.settled e s settled
      obtain ⟨splits, stored⟩ := Option.isSome_iff_exists.mp split
      rw [shared.paid_total settled, sub_sub_cancel]
      refine tally_nonneg fun split _ => ?_
      split
      · exact le_rfl
      · rw [stored]
        exact splitShare_nonneg (shared.valid e splits stored) positive.le _
    · exact le_rfl
  · exact le_rfl

/-- What went out for a solvent event never exceeds what came in. -/
theorem Solvent.sent_le (h : Solvent e t b) (kept : b.Kept) (shared : Shared self b) :
    tallyAt Transfer.sent b.transfers e t ≤ tallyAt Transfer.received b.transfers e t := by
  have shares := owedShares_nonneg (e := e) (t := t) shared
  have platform : 0 ≤ b.owedPlatform e t := by
    unfold owedPlatform
    split
    · exact kept.configured.platform e
    · exact le_rfl
  have free := h.nonneg
  have surplus : tallyAt Transfer.surplus b.transfers e t =
      tallyAt Transfer.received b.transfers e t - tallyAt Transfer.sent b.transfers e t :=
    tallyAt_sub ..
  have split : b.free e t = tallyAt Transfer.surplus b.transfers e t - b.owedPlatform e t -
      b.owedShares e t := rfl
  omega

end Solvent

end Zicket.Payments
