import Zicket.Escrow.Repayments
import Zicket.Results.Titles
import Zicket.Refinement.Calls

/-! Tickets on offer and the payments behind them. A listing outlives the refund or the dispute
of its ticket's payment, and a ticket can be listed after either; no purchase looks. -/

namespace Zicket.Payments

open Host Foundation Book

variable {d : Deployment} {env : Env} {w w' : World} {k id : ℕ}

section Payments

/-- Refunded, or waiting for a verdict on its refund. -/
def PaymentRecord.Closed (p : PaymentRecord) : Prop := p.status = .refunded ∨ p.status = .disputed

instance (p : PaymentRecord) : Decidable p.Closed := inferInstanceAs (Decidable (_ ∨ _))

def Book.Closed (b : Book) (k : ℕ) : Prop := ∃ p, b.payment k = some p ∧ p.Closed

variable {self : Address} {b : Book} {posting : Posting}

theorem Book.closed_update {p q : PaymentRecord} (stored : b.payment p.paymentId = some p)
    (closed : q.Closed → p.Closed)
    (after : ∃ p', Function.update b.payment p.paymentId (some q) k = some p' ∧ p'.Closed) :
    b.Closed k := by
  obtain ⟨p', written, closed'⟩ := after
  obtain ⟨rfl, rfl⟩ | ⟨-, old⟩ := update_eq_some.mp written
  · exact ⟨p, stored, closed closed'⟩
  · exact ⟨p', old, closed'⟩

theorem post_closed (sound : Sound self b posting) (unpaid : posting.entry ≠ .refund)
    (undisputed : posting.entry ≠ .freeze) (closed : (b.post self posting).Closed k) :
    b.Closed k := by
  cases posting with
  | refund => exact absurd rfl unpaid
  | freeze => exact absurd rfl undisputed
  | sale p ticket payer =>
    obtain ⟨p', written, closed⟩ := closed
    obtain ⟨-, rfl⟩ | ⟨-, old⟩ := update_eq_some.mp written
    · simp [PaymentRecord.Closed, sound.held] at closed
    · exact ⟨p', old, closed⟩
  | unfreeze p => exact closed_update sound.stored (by simp [PaymentRecord.Closed]) closed
  | approve p payer => exact closed_update sound.1.stored (fun _ => .inr sound.1.disputed) closed
  | bindReceipt p commitment =>
    refine closed_update sound ?_ closed
    exact id
  | resale ticket t price fee royalty buyer seller =>
    have records :=
      (recordResale_frame self b ticket t price (price - fee - royalty) buyer seller).1
    obtain ⟨p, stored, closed⟩ := closed
    exact ⟨p, (congrArg (Records.payment · k) records).symm.trans stored, closed⟩
  | _ => exact closed

end Payments

section Calls

/-- The payment that the call closes if it succeeds; a partial refund leaves it open. -/
def Call.closes (w : World) : Call → Option ℕ
  | .refund _ id amount => (w.get (.payment id)).bind fun p : PaymentRecord =>
    if p.refundedAmount + amount.getD (w.book.maxRefund p) = p.amount then some id else none
  | .claimRefund _ id | .requestPostponementRefund _ id | .raiseDispute id _ _ => some id
  | _ => none

theorem refund_settles {admin : Address} {amount : Option ℤ} (kept : w.book.Kept)
    (h : refund env admin id amount w = .ok w') :
    ∃ p q, w.book.payment id = some p ∧
      w'.book.payment = Function.update w.book.payment id (some q) ∧ q.status =
        if p.refundedAmount + amount.getD (w.book.maxRefund p) = p.amount then .refunded
        else .held := by
  simp only [refund, bind_eq_ok, require_eq_ok, okOr_eq_ok, World.getPayment, i128_eq_ok] at h
  obtain ⟨-, -, -, -, p, stored, -, standard, -, -, -, held, -, -, maximum, hmax, -, -,
    _, ⟨-, rfl⟩, paid⟩ := h
  have stored : w.book.payment id = some p := stored
  obtain ⟨payer, payee⟩ : ∃ payer, p.payer = some payer := by
    have identified := (kept.recorded.inRange id p stored).identified
    rw [PaymentRecord.Identified, standard] at identified
    exact Option.isSome_iff_exists.mp identified.1
  have written := congrArg (fun b : Book => b.payment) (payRefund_book payee paid)
  rw [maxRefund_eq_ok hmax, held] at written
  refine ⟨p, { p with
    refundedAmount := p.refundedAmount + amount.getD (w.book.maxRefund p)
    status := _ }, stored, ?_, rfl⟩
  rw [← (kept.recorded.numbered id p stored).1]
  exact written

theorem exec_closes {c : Call} (kept : w.book.Kept) (closes : c.closes w = some k)
    (h : c.exec env w = .ok w') : w'.book.Closed k := by
  obtain ⟨ps, posts, -, effect⟩ := exec_written kept h
  have written {p q : PaymentRecord} {id : ℕ} (stored : w.book.payment id = some p)
      (after : w'.book.payment = Function.update w.book.payment p.paymentId (some q))
      (closed : q.Closed) : w'.book.Closed id := by
    refine ⟨q, ?_, closed⟩
    rw [after, (kept.recorded.numbered id p stored).1, Function.update_self]
  cases c with
  | refund admin id amount =>
    obtain ⟨p, q, stored, after, status⟩ := refund_settles kept h
    obtain ⟨p', stored', closes⟩ := Option.bind_eq_some_iff.mp closes
    obtain rfl : p' = p := Option.some.inj (stored'.symm.trans stored)
    split at closes
    · rename_i settled
      cases closes
      rw [if_pos settled] at status
      exact ⟨q, by rw [after, Function.update_self], .inl status⟩
    · cases closes
  | claimRefund payer id =>
    cases closes
    obtain ⟨p, stored, -, rfl⟩ := posts
    exact written stored (congrArg (fun b : Book => b.payment) effect.symm) (.inl rfl)
  | requestPostponementRefund caller id =>
    cases closes
    obtain ⟨p, payer, stored, -, rfl⟩ := posts
    exact written stored (congrArg (fun b : Book => b.payment) effect.symm) (.inl rfl)
  | raiseDispute id reason proof =>
    cases closes
    obtain ⟨p, dispute, stored, rfl⟩ := posts
    exact written stored (congrArg (fun b : Book => b.payment) effect.symm) (.inr rfl)
  | _ => cases closes

theorem exec_leaves_open {c : Call} (kept : w.book.Kept) (other : c.closes w ≠ some k)
    (h : c.exec env w = .ok w') (closed : w'.book.Closed k) : w.book.Closed k := by
  obtain ⟨ps, posts, sound, effect⟩ := exec_written kept h
  have elsewhere {p q : PaymentRecord} {id : ℕ} (stored : w.book.payment id = some p)
      (after : w'.book.payment = Function.update w.book.payment p.paymentId (some q))
      (apart : k ≠ id) : w.book.Closed k := by
    obtain ⟨p', written, closed⟩ := closed
    rw [after, (kept.recorded.numbered id p stored).1, Function.update_of_ne apart] at written
    exact ⟨p', written, closed⟩
  cases c with
  | refund admin id amount =>
    obtain ⟨p, q, stored, after, status⟩ := refund_settles kept h
    obtain ⟨p', written, closed⟩ := closed
    rw [after] at written
    obtain ⟨rfl, rfl⟩ | ⟨-, old⟩ := update_eq_some.mp written
    · split at status
      · rename_i settled
        refine absurd ?_ other
        exact Option.bind_eq_some_iff.mpr ⟨p, stored, if_pos settled⟩
      · simp [PaymentRecord.Closed, status] at closed
    · exact ⟨p', old, closed⟩
  | claimRefund payer id =>
    obtain ⟨p, stored, -, rfl⟩ := posts
    refine elsewhere stored (congrArg (fun b : Book => b.payment) effect.symm) ?_
    rintro rfl
    exact other rfl
  | requestPostponementRefund caller id =>
    obtain ⟨p, payer, stored, -, rfl⟩ := posts
    refine elsewhere stored (congrArg (fun b : Book => b.payment) effect.symm) ?_
    rintro rfl
    exact other rfl
  | raiseDispute id reason proof =>
    obtain ⟨p, dispute, stored, rfl⟩ := posts
    refine elsewhere stored (congrArg (fun b : Book => b.payment) effect.symm) ?_
    rintro rfl
    exact other rfl
  | _ =>
    rw [← effect] at closed
    have step : ∀ b posting, (b.Closed k → w.book.Closed k) →
        Sound env.currentContract b posting ∧ posting.entry ≠ .refund ∧ posting.entry ≠ .freeze →
        (b.post env.currentContract posting).Closed k → w.book.Closed k :=
      fun b posting before ⟨sound, unpaid, undisputed⟩ closed =>
        before (post_closed sound unpaid undisputed closed)
    have quiet : Along (post env.currentContract) (fun _ posting =>
        posting.entry ≠ .refund ∧ posting.entry ≠ .freeze) w.book ps := by
      refine along_of_mem (fun posting mem _ => ?_) _
      have kind := posts.entries mem
      constructor
      all_goals
        intro same
        rw [same] at kind
        simp [Call.entries] at kind
    exact run_invariant (I := fun b => b.Closed k → w.book.Closed k) step (sound.and quiet)
      (fun closed => closed) closed

end Calls

section Listings

def DataKey.IsListing : DataKey → Bool
  | .resaleListing _ => true
  | _ => false

def Call.Trades : Call → Bool
  | .listTicketForResale .. | .delistTicket .. | .buyResaleTicket .. => true
  | _ => false

theorem listing_free (k : DataKey) (routine : k.IsRoutine = true) : k.IsListing = false := by
  cases k <;> first | rfl | cases routine

theorem createPayment_listings {params : PaymentParams}
    (h : createPayment env params w = .ok (id, w')) : w.Leaves DataKey.IsListing w' := by
  have replay (k : DataKey) (h : k.IsReplay = true) : k.IsListing = false := by
    cases k <;> first | rfl | cases h
  have payer (k : DataKey) (h : k.IsPayerEntry = true) : k.IsListing = false := by
    cases k <;> first | rfl | cases h
  have owner (k : DataKey) (h : k.IsOwnerEntry = true) : k.IsListing = false := by
    cases k <;> first | rfl | cases h
  have token (k : DataKey) (h : k.IsTokenEntry = true) : k.IsListing = false := by
    cases k <;> first | rfl | cases h
  obtain ⟨p, ticketId, paid, listed, before, owned, -, earlier, lists, between, -, owns, later⟩ :=
    createPayment_phases listing_free replay payer h
  have enlisted := addEventToken_leaves paid token listed lists
  have stored : before.Leaves DataKey.IsListing
      (before.set (.ticket ticketId) (buildTicket p ticketId)) := .set _ rfl
  have indexed := indexOwner_leaves _ owner p ticketId owned owns
  exact earlier.trans (enlisted.trans (between.trans (stored.trans (indexed.trans later))))

theorem exec_listings {c : Call} (other : c.Trades = false) (h : c.exec env w = .ok w') :
    w.Leaves DataKey.IsListing w' := by
  cases c with
  | payForTicket | payForTicketWithCommitment | payForTicketWithOptions =>
    rw [exec_params rfl] at h
    simp only [bind_eq_ok, pure_eq_ok] at h
    obtain ⟨⟨id, w₁⟩, sold, rfl⟩ := h
    exact createPayment_listings sold
  | listTicketForResale | delistTicket | buyResaleTicket => cases other
  | syncEventPrivacy => exact Yields.skip (fun _ => .skip fun _ => .pure (.set _ rfl)) w' h
  | setPaused => exact Yields.skip (fun _ => .pure (.set _ rfl)) w' h
  | _ =>
    refine exec_leaves w listing_free ?_ (fun lists => ?_) (fun _ k entry => ?_) w' h
    · rfl
    · cases lists
    · cases k <;> first | rfl | cases entry

def World.Offered (w : World) (k : ℕ) : Prop := w.getResaleListing k ≠ none

theorem listTicketForResale_offers {seller : Address} {price : ℤ}
    (h : listTicketForResale env seller id price w = .ok w') :
    w'.Offered k ↔ k = id ∨ w.Offered k := by
  simp only [listTicketForResale, bind_eq_ok, pure_eq_ok] at h
  obtain ⟨-, -, -, -, ticket, -, -, -, -, -, -, -, -, -, -, -, -, -, -, -, rfl⟩ := h
  by_cases same : k = id
  · subst same
    have stored : (w.saveResaleListing k { price, seller }).getResaleListing k =
        some { price, seller } := Store.get_set_self ..
    simp [World.Offered, stored]
  · have kept : (w.saveResaleListing id { price, seller }).getResaleListing k =
        w.getResaleListing k := Store.get_set_of_ne _ _ (by simpa using same)
    simp [World.Offered, kept, same]

/-- A ticket that leaves the market is delisted or sold; no other is touched. -/
theorem removeResaleListing_offered {before : World} (leaves : w.Leaves DataKey.IsListing before)
    (offered : (before.removeResaleListing id).Offered k) : w.Offered k := by
  by_cases same : k = id
  · subst same
    exact absurd (Store.get_remove_self ..) offered
  · have kept : (before.removeResaleListing id).getResaleListing k = before.getResaleListing k :=
      Store.get_remove_of_ne _ (by simpa using same)
    have before_eq : before.getResaleListing k = w.getResaleListing k := leaves _ rfl
    rwa [World.Offered, kept, before_eq] at offered

theorem buyResaleTicket_offered {buyer : Address} (h : buyResaleTicket env buyer id w = .ok w')
    (offered : w'.Offered k) : w.Offered k := by
  have owner (k : DataKey) (h : k.IsOwnerEntry = true) : k.IsListing = false := by
    cases k <;> first | rfl | cases h
  obtain ⟨ticket, seller, paid, moved, -, -, pays, moves, rfl⟩ := buyResaleTicket_ok listing_free h
  have handed : paid.Leaves DataKey.IsListing
      (paid.set (.ticket id) { ticket with owner := some buyer }) := .set _ rfl
  have taken := removeOwnerTicketMap_leaves (P := DataKey.IsListing) (paid.set (.ticket id)
    { ticket with owner := some buyer }) owner seller id
  have given := addOwnerTicketMap_leaves _ owner buyer id moved moves
  exact removeResaleListing_offered (pays.trans (handed.trans (taken.trans given))) offered

end Listings

section Steps

/-- No ticket is on offer whose payment is closed. -/
def World.OffersOpen (w : World) : Prop := ∀ k, w.Offered k → ¬ w.book.Closed k

/-- A ticket is offered only while its payment is open, and no payment is closed whose ticket is
on offer. -/
def WithdrawnFirst (_ : Env) (w : World) (c : Call) : Prop :=
  match c with
  | .listTicketForResale _ id _ => ∀ p ∈ (w.get (.payment id) : Option PaymentRecord), ¬ p.Closed
  | c => ∀ id ∈ c.closes w, w.getResaleListing id = none

instance (env : Env) (w : World) (c : Call) : Decidable (WithdrawnFirst env w c) := by
  apply @Call.casesOn (fun c => Decidable (WithdrawnFirst env w c)) c <;> intros <;>
    dsimp only [WithdrawnFirst] <;> infer_instance

theorem exec_offersOpen_iff {c : Call} (kept : w.book.Kept) (clear : w.OffersOpen)
    (h : c.exec env w = .ok w') : w'.OffersOpen ↔ WithdrawnFirst env w c := by
  cases trades : c.Trades with
  | false =>
    have listings := exec_listings trades h
    have offered (k : ℕ) : w'.Offered k ↔ w.Offered k := by
      rw [World.Offered, World.Offered, World.getResaleListing, listings _ rfl]
      rfl
    have condition : WithdrawnFirst env w c ↔ ∀ id ∈ c.closes w, ¬ w.Offered id := by
      unfold WithdrawnFirst World.Offered
      split
      · cases trades
      · simp only [ne_eq, not_not]
    rw [condition]
    constructor
    · intro clear' k closes on
      exact clear' k ((offered k).mpr on) (exec_closes kept closes h)
    · intro withdrawn k on closed
      have on := (offered k).mp on
      exact clear k on (exec_leaves_open kept (fun closes => withdrawn k closes on) h closed)
  | true =>
    cases c with
    | listTicketForResale seller id price =>
      obtain ⟨ps, rfl, -, effect⟩ := exec_written kept h
      have same : w.book = w'.book := effect
      have listed (k : ℕ) := listTicketForResale_offers (k := k) h
      constructor
      · intro clear' p stored closed
        refine clear' id ((listed id).mpr (.inl rfl)) ?_
        rw [← same]
        exact ⟨p, stored, closed⟩
      · intro open_ k on closed
        rw [← same] at closed
        obtain rfl | on := (listed k).mp on
        · obtain ⟨p, stored, closed⟩ := closed
          exact open_ p stored closed
        · exact clear k on closed
    | delistTicket seller id =>
      refine ⟨fun _ _ closes => by simp [Call.closes] at closes, fun _ k on closed => ?_⟩
      have before := exec_leaves_open kept (by simp [Call.closes]) h closed
      simp only [Call.exec, delistTicket, bind_eq_ok, pure_eq_ok] at h
      obtain ⟨-, -, -, -, -, -, -, -, rfl⟩ := h
      exact clear k (removeResaleListing_offered (.refl _ w) on) before
    | buyResaleTicket buyer id =>
      refine ⟨fun _ _ closes => by simp [Call.closes] at closes, fun _ k on closed => ?_⟩
      have before := exec_leaves_open kept (by simp [Call.closes]) h closed
      exact clear k (buyResaleTicket_offered h on) before
    | _ => cases trades

theorem next_offersOpen_iff (d : Deployment) {step : Step} (kept : w.book.Kept)
    (clear : w.OffersOpen) : (w.next d step).OffersOpen ↔ Succeeding d WithdrawnFirst w step := by
  cases step with
  | call invocation c =>
    rw [World.next]
    cases result : c.exec ⟨d, invocation⟩ w with
    | error e =>
      refine ⟨fun _ succeeds => ?_, fun _ => clear⟩
      simp [Call.succeeds, result, Except.isOk, Except.toBool] at succeeds
    | ok w' =>
      have succeeds : c.succeeds ⟨d, invocation⟩ w = true := succeeds_iff.mpr ⟨w', result⟩
      rw [commit_ok, exec_offersOpen_iff kept clear result]
      exact ⟨fun meets _ => meets, fun meets => meets succeeds⟩
  | mint token dst amount =>
    refine ⟨fun _ => trivial, fun _ => ?_⟩
    unfold World.next
    dsimp only
    split <;> exact clear
  | pay token src dst amount =>
    refine ⟨fun _ => trivial, fun _ => ?_⟩
    unfold World.next World.payOutside
    dsimp only
    split <;> exact clear

end Steps

section Runs

def World.PaidOpen (w : World) (id : ℕ) : Prop :=
  ∀ ticket p, w.getTicket id = .ok ticket → w.getPayment ticket.paymentId = .ok p →
    p.status ≠ .refunded ∧ p.status ≠ .disputed

/-- Only tickets whose payments are open are offered and sold. -/
structure World.SellsOpen (w : World) : Prop where
  offered : ∀ id, w.getResaleListing id ≠ none → w.PaidOpen id
  sold : ∀ env buyer id w', buyResaleTicket env buyer id w = .ok w' → w.PaidOpen id

theorem paidOpen_iff {ticket : Ticket} (kept : w.book.Kept) (issued : w.getTicket id = .ok ticket) :
    w.PaidOpen id ↔ ¬ w.book.Closed id := by
  obtain ⟨p, stored, built, -⟩ := kept.recorded.ticketed id ticket (okOr_eq_ok.mp issued)
  have number : ticket.paymentId = id := by
    have same : ticket.paymentId = p.paymentId := congrArg Ticket.paymentId built
    rw [same, (kept.recorded.numbered _ _ stored).1]
  constructor
  · rintro paid ⟨p', stored', closed⟩
    obtain ⟨unrefunded, undisputed⟩ :=
      paid ticket p' issued (okOr_eq_ok.mpr (by rw [number]; exact stored'))
    exact closed.elim unrefunded undisputed
  · intro open_ ticket' p' issued' stored'
    obtain rfl : ticket' = ticket := Except.ok.inj (issued'.symm.trans issued)
    rw [number] at stored'
    exact not_or.mp fun closed => open_ ⟨p', okOr_eq_ok.mp stored', closed⟩

theorem World.sellsOpen_iff (kept : w.book.Kept) (titled : w.Titled) :
    w.SellsOpen ↔ w.OffersOpen := by
  have issued {k : ℕ} (on : w.Offered k) : ∃ ticket, w.getTicket k = .ok ticket := by
    obtain ⟨listing, found⟩ := Option.ne_none_iff_exists'.mp on
    have owner := titled.listed k listing.seller (Option.map_eq_some_iff.mpr ⟨listing, found, rfl⟩)
    obtain ⟨ticket, stored, -⟩ := Option.bind_eq_some_iff.mp owner
    exact ⟨ticket, okOr_eq_ok.mpr stored⟩
  constructor
  · intro sells k on
    obtain ⟨ticket, found⟩ := issued on
    exact (paidOpen_iff kept found).mp (sells.offered k on)
  · intro clear
    have offered (k : ℕ) (on : w.Offered k) : w.PaidOpen k := by
      obtain ⟨ticket, found⟩ := issued on
      exact (paidOpen_iff kept found).mpr (clear k on)
    refine ⟨offered, fun env buyer id w' bought => offered id fun unlisted => ?_⟩
    simp only [buyResaleTicket, bind_eq_ok, okOr_eq_ok] at bought
    obtain ⟨-, -, -, -, listing, listed, -⟩ := bought
    rw [unlisted] at listed
    cases listed

theorem World.SellsOpen.bought {buyer : Address} {status : PaymentStatus} (sells : w.SellsOpen)
    (success : (Call.buyResaleTicket buyer id).succeeds env w = true)
    (ticketed : (w.getTicket id).map (·.paymentId) = .ok k)
    (stored : (w.getPayment k).map (·.status) = .ok status) :
    status ≠ .refunded ∧ status ≠ .disputed := by
  obtain ⟨w', result⟩ := succeeds_iff.mp success
  cases found : w.getTicket id with
  | error e => simp [found, Except.map] at ticketed
  | ok ticket =>
    cases paid : w.getPayment k with
    | error e => simp [paid, Except.map] at stored
    | ok p =>
      simp only [found, paid, Except.map, Except.ok.injEq] at ticketed stored
      rw [← stored]
      exact sells.sold env buyer id w' result ticket p found (by rw [ticketed, paid])

end Runs

/-- All along a run only tickets with open payments are offered and sold, exactly when each is
offered with its payment open and off the market before a refund or a dispute closes it. -/
theorem sells_open_iff (d : Deployment) (balances : Balances Address Address)
    (steps : List Step) :
    (∀ before, before <+: steps →
        (run (World.next d) (deployed balances) before).SellsOpen) ↔
      Along (World.next d) (Succeeding d WithdrawnFirst) (deployed balances) steps := by
  have inv : ∀ (w : World) (step : Step), w.book.Kept ∧ w.Titled → True →
      (w.next d step).book.Kept ∧ (w.next d step).Titled :=
    fun w step inv _ => ⟨next_kept w step inv.1, next_titled d inv.2 step⟩
  have along (steps : List Step) : Along (World.next d) (fun _ _ => True) (deployed balances) steps :=
    along_of_forall (fun _ _ => trivial) _ steps
  have base : (deployed balances).book.Kept ∧ (deployed balances).Titled :=
    ⟨deployed_kept balances, World.Titled.deployed balances⟩
  have step : ∀ (w : World) (step : Step), w.book.Kept ∧ w.Titled → True → w.OffersOpen →
      ((w.next d step).OffersOpen ∧ True ↔ Succeeding d WithdrawnFirst w step) :=
    fun w step inv _ clear => (and_iff_left trivial).trans (next_offersOpen_iff d inv.1 clear)
  have start : (deployed balances).OffersOpen := fun _ on => absurd rfl on
  rw [← prefixes_and_along_iff (P := fun _ _ => True) inv step (along steps) base start]
  refine Iff.trans ?_ (and_iff_left (along steps)).symm
  refine forall_congr' fun before => forall_congr' fun _ => ?_
  have reached := run_invariant inv (along before) base
  exact World.sellsOpen_iff reached.1 reached.2

namespace Sample

def resellable : List Step :=
  opening ++ [.mint token amy 1000, call 1 (.setTicketContract admin ⟨9⟩),
    sale 2 1 bob concert 100]

end Sample

theorem sells_open_sample :
    ∀ before, before <+: Sample.resellable ++
        [Sample.call 3 (.listTicketForResale Sample.bob 1 50),
          Sample.call 3 (.delistTicket Sample.bob 1), Sample.call 10 (.raiseDispute 1 0 none),
          Sample.call 11 (.rejectDispute 1),
          Sample.call 12 (.listTicketForResale Sample.bob 1 50),
          Sample.call 12 (.buyResaleTicket Sample.amy 1)] →
      (run (World.next Sample.deployment) (deployed Sample.noBalances) before).SellsOpen :=
  (sells_open_iff Sample.deployment Sample.noBalances _).mpr (by decide)

namespace Sample

def Resells (steps : List Step) (status : PaymentStatus) : Prop :=
  let w := run (World.next deployment) (deployed noBalances) (resellable ++ steps)
  Chronological (resellable ++ steps) ∧ (w.getTicket 1).map (·.paymentId) = .ok 1 ∧
    (w.getPayment 1).map (·.status) = .ok status ∧
    (Call.buyResaleTicket amy 1).succeeds ⟨deployment, invocation 20⟩ w = true

instance (steps : List Step) (status : PaymentStatus) : Decidable (Resells steps status) :=
  inferInstanceAs (Decidable (_ ∧ _ ∧ _ ∧ _))

end Sample

/-- Bob keeps the refund and sells the ticket: listed before the cancellation, or listed after a
dispute that is still open or was approved. -/
theorem refunded_ticket_resold :
    let lists (ledger : ℕ) := Sample.call ledger (.listTicketForResale Sample.bob 1 50)
    let sells (steps : List Step) (status : PaymentStatus) := Sample.Resells steps status ∧
      ¬ (run (World.next Sample.deployment) (deployed Sample.noBalances)
        (Sample.resellable ++ steps)).SellsOpen
    sells [lists 3, Sample.call 4 (.cancelEvent Sample.concert Sample.organizer),
        Sample.call 5 (.claimRefund Sample.bob 1)] .refunded ∧
      sells [Sample.call 10 (.raiseDispute 1 0 none), lists 11] .disputed ∧
      sells [Sample.call 10 (.raiseDispute 1 0 none), Sample.call 11 (.approveRefund 1), lists 12]
        .refunded := by
  have resold {steps : List Step} {status : PaymentStatus}
      (closed : status = .refunded ∨ status = .disputed) (resells : Sample.Resells steps status) :
      Sample.Resells steps status ∧ ¬ (run (World.next Sample.deployment)
        (deployed Sample.noBalances) (Sample.resellable ++ steps)).SellsOpen := by
    refine ⟨resells, fun sells => ?_⟩
    obtain ⟨-, ticketed, stored, success⟩ := resells
    obtain ⟨unrefunded, undisputed⟩ := sells.bought success ticketed stored
    exact closed.elim unrefunded undisputed
  exact ⟨resold (.inl rfl) (by decide), resold (.inr rfl) (by decide),
    resold (.inl rfl) (by decide)⟩

end Zicket.Payments
