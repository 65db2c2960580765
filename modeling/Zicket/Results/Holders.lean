import Zicket.Escrow.Repayments
import Zicket.Refinement.Calls

/-! Who holds a ticket and who gets its refund. Resales hand the ticket over; the payment
keeps its payer, and three refund paths read the payer from the payment. -/

namespace Zicket.Payments

open Host Foundation Book

def Posting.soldTo (k : ℕ) : Posting → Option Address
  | .handover ticket buyer => if ticket.ticketId = k then some buyer else none
  | _ => none

/-- The ticket `k` is held by its last buyer on resale, else by the payer of its payment. -/
structure Book.HeldBy (k : ℕ) (buyer : Option Address) (b : Book) : Prop where
  issued : 1 ≤ k → k ≤ b.tickets → b.ticket k ≠ none
  unissued : b.ticket k = none → buyer = none
  owner : ∀ ticket p, b.ticket k = some ticket → b.payment k = some p →
    ticket.owner = buyer.or p.payer

section HeldBy

variable {b : Book} {self : Address} {posting : Posting} {k : ℕ} {o : Option Address}

theorem Book.HeldBy.same_ticket (h : b.HeldBy k o) (recorded : Recorded b.toRecords)
    (sound : Sound self b posting) (same : (b.post self posting).ticket k = b.ticket k)
    (tickets : k ≤ (b.post self posting).tickets → k ≤ b.tickets) :
    (b.post self posting).HeldBy k o where
  issued pos le := same ▸ h.issued pos (tickets le)
  unissued absent := h.unissued (same ▸ absent)
  owner ticket p hticket hp := by
    rw [same] at hticket
    obtain ⟨old, stored, -⟩ := recorded.ticketed k ticket hticket
    obtain ⟨p', stored', follows⟩ := post_payment sound stored
    rw [hp] at stored'
    cases stored'
    rw [h.owner ticket old hticket stored, follows.payer]

theorem post_heldBy (h : b.HeldBy k o) (recorded : Recorded b.toRecords)
    (sound : Sound self b posting) : (b.post self posting).HeldBy k ((posting.soldTo k).or o) := by
  cases posting with
  | sale p ticket payer =>
    by_cases hk : k = ticket.ticketId
    · -- a new ticket was never sold before
      have number : ticket.ticketId = p.paymentId := by
        rw [sound.ticket, sound.next, ← recorded.lockstep]
        rfl
      have unissued : b.ticket k = none := by
        by_contra issued
        obtain ⟨old, hold⟩ := Option.ne_none_iff_exists'.mp issued
        obtain ⟨p', stored, -⟩ := recorded.ticketed k old hold
        rw [hk, number, sound.fresh] at stored
        cases stored
      rw [h.unissued unissued]
      have newTicket : (b.post self (.sale p ticket payer)).ticket k = some ticket := by
        rw [hk]
        exact Function.update_self ..
      have newPayment : (b.post self (.sale p ticket payer)).payment k = some p := by
        rw [hk, number]
        exact Function.update_self ..
      refine ⟨fun _ _ => by simp [newTicket], fun _ => rfl, ?_⟩
      intro ticket' p' hticket hp
      rw [newTicket] at hticket
      rw [newPayment] at hp
      cases hticket
      cases hp
      rw [sound.ticket]
      rfl
    · refine h.same_ticket recorded sound (Function.update_of_ne hk ..) fun le => ?_
      have next : ticket.ticketId = b.tickets + 1 := (congrArg Ticket.ticketId sound.ticket :)
      change k ≤ ticket.ticketId at le
      omega
  | handover ticket buyer =>
    by_cases hk : ticket.ticketId = k
    · subst hk
      have sold : (b.post self (.handover ticket buyer)).ticket ticket.ticketId =
          some { ticket with owner := some buyer } := Function.update_self ..
      rw [Posting.soldTo, if_pos rfl, Option.some_or]
      refine ⟨fun _ _ => by simp [sold], fun absent => by simp [sold] at absent, ?_⟩
      intro ticket' p' hticket hp
      rw [sold] at hticket
      cases hticket
      rfl
    · rw [Posting.soldTo, if_neg hk, Option.none_or]
      exact h.same_ticket recorded sound (Function.update_of_ne (Ne.symm hk) ..) id
  | resale ticket t price fee royalty buyer seller =>
    have records :=
      (recordResale_frame self b ticket t price (price - fee - royalty) buyer seller).1
    exact h.same_ticket recorded sound (congrArg (Records.ticket · k) records)
      fun le => (congrArg Records.tickets records) ▸ le
  | _ => exact h.same_ticket recorded sound rfl id

end HeldBy

def resoldTo (d : Deployment) (k : ℕ) (w : World) : Step → Option Address
  | .call invocation (.buyResaleTicket buyer ticketId) =>
    if ticketId = k ∧ (Call.buyResaleTicket buyer ticketId).succeeds ⟨d, invocation⟩ w = true then
      some buyer
    else none
  | _ => none

variable {d : Deployment}

theorem Wrote.soldTo {w : World} {step : Step} {ps : List Posting} (kept : w.book.Kept)
    (wrote : Wrote d w ps step) (k : ℕ) :
    latest (post d.currentContract) (fun _ posting => posting.soldTo k) w.book ps =
      resoldTo d k w step := by
  have silent (other : ∀ posting ∈ ps, posting.entry ≠ .handover) :
      latest (post d.currentContract) (fun _ posting => posting.soldTo k) w.book ps = none := by
    refine latest_eq_none fun posting mem _ => ?_
    cases posting with
    | handover => exact absurd rfl (other _ mem)
    | _ => rfl
  cases step with
  | call invocation c =>
    obtain ⟨w', result, posts⟩ | ⟨⟨e, result⟩, rfl⟩ := wrote
    · have success := succeeds_iff.mpr ⟨w', result⟩
      have kinds : ∀ posting ∈ ps, posting.entry ∈ c.entries := fun _ mem => posts.entries mem
      cases c with
      | buyResaleTicket buyer ticketId =>
        obtain ⟨ticket, listing, stored, -, shape⟩ := posts
        obtain ⟨p, -, built, -⟩ := kept.recorded.ticketed ticketId ticket stored
        have number : ticket.ticketId = ticketId := (congrArg Ticket.ticketId built :)
        have sold : Posting.soldTo k (.handover ticket buyer) =
            resoldTo d k w (.call invocation (.buyResaleTicket buyer ticketId)) := by
          simp [Posting.soldTo, resoldTo, success, number]
        obtain rfl | ⟨t, fee, royalty, seller, rfl⟩ := shape
        · exact sold
        · exact (Option.or_none).trans sold
      | _ =>
        refine silent fun posting mem same => ?_
        have kind := kinds posting mem
        rw [same] at kind
        simp [Call.entries] at kind
    · have failed : c.succeeds ⟨d, invocation⟩ w = false := by
        simp [Call.succeeds, result, Except.isOk, Except.toBool]
      cases c with
      | buyResaleTicket => simp [resoldTo, failed, latest]
      | _ => rfl
  | mint | pay =>
    obtain rfl := wrote
    rfl

theorem next_heldBy {w : World} {k : ℕ} {o : Option Address} (kept : w.book.Kept)
    (h : w.book.HeldBy k o) (step : Step) :
    (w.next d step).book.HeldBy k ((resoldTo d k w step).or o) := by
  obtain ⟨ps, wrote, sound, effect⟩ := next_wrote kept step
  rw [← effect, ← wrote.soldTo kept]
  have each : ∀ o b posting, b.Kept ∧ b.HeldBy k o → Sound d.currentContract b posting →
      (b.post d.currentContract posting).Kept ∧
        (b.post d.currentContract posting).HeldBy k ((posting.soldTo k).or o) :=
    fun o b posting inv sound =>
      ⟨post_kept inv.1 sound, post_heldBy inv.2 inv.1.recorded sound⟩
  exact (latest_invariant (I := fun o b => b.Kept ∧ b.HeldBy k o) each sound ⟨kept, h⟩).2

theorem reachable_heldBy (d : Deployment) (balances : Balances Address Address)
    (steps : List Step) (k : ℕ) :
    (run (World.next d) (deployed balances) steps).book.HeldBy k
      (latest (World.next d) (resoldTo d k) (deployed balances) steps) := by
  have base : (deployed balances).book.HeldBy k none :=
    ⟨fun pos le => absurd le (by change ¬ k ≤ 0; omega), fun _ => rfl,
      fun ticket p hticket => by cases hticket⟩
  have each : ∀ o (w : World) step, w.book.Kept ∧ w.book.HeldBy k o → True →
      (w.next d step).book.Kept ∧ (w.next d step).book.HeldBy k ((resoldTo d k w step).or o) :=
    fun o w step inv _ => ⟨next_kept w step inv.1, next_heldBy inv.1 inv.2 step⟩
  have reached := (latest_invariant (I := fun o (w : World) => w.book.Kept ∧ w.book.HeldBy k o)
    each (along_of_forall (fun _ _ => trivial) _ steps) ⟨deployed_kept balances, base⟩).2
  rwa [Option.or_none] at reached

def Sample.resold : List Step :=
  Sample.opening ++ [.mint Sample.token Sample.amy 1000,
    Sample.call 1 (.setTicketContract Sample.admin ⟨9⟩),
    Sample.sale 2 1 Sample.bob Sample.concert 100,
    Sample.call 3 (.listTicketForResale Sample.bob 1 10),
    Sample.call 3 (.buyResaleTicket Sample.amy 1)]

/-- The ticket whose refund the call asks for; ticket and payment have one number. -/
def Call.refundedTicket : Call → Option ℕ
  | .requestPostponementRefund _ ticketId | .approveRefund ticketId => some ticketId
  | .claimRefund _ paymentId => some paymentId
  | _ => none

/-- The call sends its refund to the owner of the ticket, or is made by the owner. -/
def RefundsOwner (d : Deployment) (invocation : Invocation) (w : World) (c : Call) : Prop :=
  match c with
  | .requestPostponementRefund _ ticketId | .approveRefund ticketId =>
    ∃ ticket tr, w.getTicket ticketId = .ok ticket ∧
      (w.next d (.call invocation c)).transfers = tr :: w.transfers ∧
      tr.src = d.currentContract ∧ ticket.owner = some tr.dst
  | .claimRefund payer paymentId =>
    ∃ ticketId ticket, w.getTicket ticketId = .ok ticket ∧ ticket.paymentId = paymentId ∧
      ticket.owner = some payer
  | _ => True

def World.PaidBy (w : World) (k : ℕ) (payer : Address) : Prop :=
  ∃ p ∈ (w.get (.payment k) : Option PaymentRecord), p.payer = some payer

instance (w : World) (k : ℕ) (payer : Address) : Decidable (w.PaidBy k payer) :=
  inferInstanceAs (Decidable (∃ _ ∈ _, _))

theorem Book.HeldBy.ticketed {b : Book} {k : ℕ} {buyer : Option Address} (h : b.HeldBy k buyer)
    (recorded : Recorded b.toRecords) {p : PaymentRecord} (stored : b.payment k = some p) :
    ∃ ticket, b.ticket k = some ticket ∧ { ticket with owner := p.payer } = buildTicket p k ∧
      ticket.paymentId = k ∧ ticket.owner = buyer.or p.payer := by
  obtain ⟨number, pos, le⟩ := recorded.numbered k p stored
  obtain ⟨ticket, hticket⟩ :=
    Option.ne_none_iff_exists'.mp (h.issued pos (recorded.lockstep ▸ le))
  obtain ⟨p', stored', built, -⟩ := recorded.ticketed k ticket hticket
  rw [stored] at stored'
  cases stored'
  exact ⟨ticket, hticket, built, (congrArg Ticket.paymentId built :).trans number,
    h.owner ticket p hticket stored⟩

/-- Every refund of a ticket goes to the payer of its payment, whoever owns the ticket. -/
theorem refund_payer {w : World} {invocation : Invocation} {c : Call} {k : ℕ}
    {buyer : Option Address} (kept : w.book.Kept) (held : w.book.HeldBy k buyer)
    (asked : c.refundedTicket = some k) (success : c.succeeds ⟨d, invocation⟩ w = true) :
    ∃ p payer, w.book.payment k = some p ∧ p.payer = some payer ∧
      (RefundsOwner d invocation w c ↔ buyer.or p.payer = some payer) := by
  obtain ⟨ps, posts, sound, effect⟩ := succeeds_written kept success
  have sent {p : PaymentRecord} {payer : Address} {tr : Transfer}
      (stored : w.book.payment k = some p)
      (logged : (w.next d (.call invocation c)).transfers = tr :: w.transfers)
      (src : tr.src = d.currentContract) (dst : tr.dst = payer) :
      (∃ ticket tr, w.getTicket k = .ok ticket ∧
        (w.next d (.call invocation c)).transfers = tr :: w.transfers ∧
        tr.src = d.currentContract ∧ ticket.owner = some tr.dst) ↔
          buyer.or p.payer = some payer := by
    obtain ⟨ticket, hticket, -, -, owner⟩ := held.ticketed kept.recorded stored
    constructor
    · rintro ⟨ticket', tr', hticket', logged', -, owner'⟩
      rw [logged] at logged'
      cases logged'
      rw [show ticket' = ticket from Option.some.inj ((okOr_eq_ok.mp hticket').symm.trans hticket),
        owner, dst] at owner'
      exact owner'
    · intro same
      exact ⟨ticket, tr, okOr_eq_ok.mpr hticket, logged, src, by rw [owner, dst, same]⟩
  cases c with
  | requestPostponementRefund caller ticketId =>
    cases asked
    obtain ⟨p, payer, stored, -, rfl⟩ := posts
    have left := sent stored (congrArg (fun b : Book => b.transfers) effect).symm rfl rfl
    exact ⟨p, payer, stored, sound.1.payer, left⟩
  | approveRefund ticketId =>
    cases asked
    obtain ⟨p, payer, stored, rfl⟩ := posts
    have left := sent stored (congrArg (fun b : Book => b.transfers) effect).symm rfl rfl
    exact ⟨p, payer, stored, sound.1.2, left⟩
  | claimRefund payer paymentId =>
    cases asked
    obtain ⟨p, stored, -, rfl⟩ := posts
    refine ⟨p, payer, stored, sound.1.payer, ?_⟩
    obtain ⟨ticket, hticket, -, number, owner⟩ := held.ticketed kept.recorded stored
    constructor
    · rintro ⟨k', ticket', hticket', number', owner'⟩
      obtain ⟨p', stored', built, -⟩ :=
        kept.recorded.ticketed k' ticket' (okOr_eq_ok.mp hticket')
      have same : k' = k := by
        have := (kept.recorded.numbered k' p' stored').1
        have : ticket'.paymentId = p'.paymentId := (congrArg Ticket.paymentId built :)
        omega
      rw [same] at hticket'
      rw [← owner, Option.some.inj (hticket.symm.trans (okOr_eq_ok.mp hticket'))]
      exact owner'
    · intro same
      exact ⟨k, ticket, okOr_eq_ok.mpr hticket, number, owner.trans same⟩
  | _ => cases asked

theorem refund_owner {w : World} {invocation : Invocation} {c : Call} {k : ℕ}
    {buyer : Option Address} (kept : w.book.Kept) (held : w.book.HeldBy k buyer)
    (asked : c.refundedTicket = some k) (success : c.succeeds ⟨d, invocation⟩ w = true) :
    RefundsOwner d invocation w c ↔ ∀ who ∈ buyer, w.PaidBy k who := by
  obtain ⟨p, payer, stored, paid, reaches⟩ := refund_payer kept held asked success
  rw [reaches]
  cases buyer with
  | none => simp [paid]
  | some buyer =>
    rw [Option.some_or]
    constructor
    · rintro same who mem
      cases Option.some.inj same
      cases mem
      exact ⟨p, stored, paid⟩
    · intro back
      obtain ⟨p', stored', paid'⟩ := back buyer rfl
      rw [Option.some.inj (Eq.trans (Eq.symm stored) stored'), paid'] at paid
      exact paid

/-- A refund reaches the owner of the ticket exactly when the last resale of the ticket,
if there was one, sold it to the payer of its payment. -/
theorem refund_reaches_owner (d : Deployment) (balances : Balances Address Address)
    (steps : List Step) (invocation : Invocation) (c : Call) (k : ℕ)
    (asked : c.refundedTicket = some k)
    (success : c.succeeds ⟨d, invocation⟩ (run (World.next d) (deployed balances) steps) = true) :
    RefundsOwner d invocation (run (World.next d) (deployed balances) steps) c ↔
      ∀ buyer ∈ latest (World.next d) (resoldTo d k) (deployed balances) steps,
        (run (World.next d) (deployed balances) steps).PaidBy k buyer :=
  refund_owner (reachable_kept d balances steps) (reachable_heldBy d balances steps k) asked success

def Sample.boughtBack : List Step :=
  Sample.resold ++ [Sample.call 4 (.listTicketForResale Sample.amy 1 10),
    Sample.call 4 (.buyResaleTicket Sample.bob 1)]

theorem refund_reaches_owner_sample :
    RefundsOwner Sample.deployment (Sample.invocation 10)
      (run (World.next Sample.deployment) (deployed Sample.noBalances)
        (Sample.boughtBack ++ [Sample.call 5 (.cancelEvent Sample.concert Sample.organizer)]))
      (.claimRefund Sample.bob 1) :=
  (refund_reaches_owner Sample.deployment Sample.noBalances _ (Sample.invocation 10) _ 1 rfl
    (by decide)).mpr (by decide)

/-- After a resale all three refund paths still pay the payer, who no longer owns the ticket:
Amy asks for the refund of her ticket and Bob gets it. -/
theorem refund_misses_owner :
    let after (steps : List Step) :=
      run (World.next Sample.deployment) (deployed Sample.noBalances) (Sample.resold ++ steps)
    let misses (w : World) (c : Call) :=
      c.succeeds ⟨Sample.deployment, Sample.invocation 12⟩ w = true ∧
        ¬ RefundsOwner Sample.deployment (Sample.invocation 12) w c
    misses (after [Sample.call 5 (.cancelEvent Sample.concert Sample.organizer)])
        (.claimRefund Sample.bob 1) ∧
      misses (after [Sample.call 5 (.postponeEvent Sample.concert Sample.organizer 20)])
        (.requestPostponementRefund Sample.amy 1) ∧
      misses (after [Sample.call 10 (.raiseDispute 1 0 none)]) (.approveRefund 1) := by
  have misses (steps : List Step) (c : Call) (asked : c.refundedTicket = some 1)
      (success : c.succeeds ⟨Sample.deployment, Sample.invocation 12⟩
        (run (World.next Sample.deployment) (deployed Sample.noBalances) steps) = true)
      (other : ¬ ∀ buyer ∈ latest (World.next Sample.deployment) (resoldTo Sample.deployment 1)
        (deployed Sample.noBalances) steps,
          (run (World.next Sample.deployment) (deployed Sample.noBalances) steps).PaidBy 1 buyer) :
      c.succeeds ⟨Sample.deployment, Sample.invocation 12⟩
          (run (World.next Sample.deployment) (deployed Sample.noBalances) steps) = true ∧
        ¬ RefundsOwner Sample.deployment (Sample.invocation 12)
          (run (World.next Sample.deployment) (deployed Sample.noBalances) steps) c := by
    refine ⟨success, fun reaches => other ?_⟩
    exact (refund_owner (reachable_kept _ _ _) (reachable_heldBy _ _ _ _) asked success).mp reaches
  exact ⟨misses _ _ rfl (by decide) (by decide),
    misses _ _ rfl (by decide) (by decide),
    misses _ _ rfl (by decide) (by decide)⟩

end Zicket.Payments
