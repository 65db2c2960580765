import Mathlib.Algebra.BigOperators.Finprod
import Zicket.Escrow.Revenue
import Zicket.Foundation.SlotIndex
import Zicket.Privacy.Sales
import Zicket.Results.Books

/-! The list of the tokens in which an event has revenue. A sale enlists its token, and so does
nothing else that credits revenue: a dispute gives back what a sale brought in, a royalty of a
resale need not be in an enlisted token. -/

namespace Zicket.Payments

open Host Foundation Book

variable {d : Deployment} {env : Env} {w w' : World} {e e' : Symbol} {t t' : Address}

section List

def World.tokenSlot (w : World) (e : Symbol) (i : ℕ) : Option Address :=
  w.get (.eventTokenIndex e i)

def World.Enlists (w : World) (e : Symbol) : Prop :=
  Flagged (w.getEventTokenCount e) (w.tokenSlot e) (w.hasEventToken e)

theorem World.Enlists.mem (enlists : w.Enlists e) :
    t ∈ w.getEventTokens e ↔ w.hasEventToken e t = true :=
  Flagged.mem enlists

theorem World.Leaves.hasEventToken (h : w.Leaves DataKey.IsTokenEntry w') :
    w'.hasEventToken = w.hasEventToken :=
  funext fun e => funext fun t => congrArg Option.isSome (h (.eventToken e t) rfl)

theorem World.Leaves.enlists (h : w.Leaves DataKey.IsTokenEntry w') (enlists : w.Enlists e) :
    w'.Enlists e := by
  have count : w'.getEventTokenCount e = w.getEventTokenCount e :=
    congrArg (fun stored => Option.getD stored 0) (h (.eventTokenCount e) rfl)
  have slots : w'.tokenSlot e = w.tokenSlot e := funext fun i => h _ rfl
  rw [World.Enlists, count, slots, h.hasEventToken]
  exact enlists

theorem addEventToken_grows (new : w.hasEventToken e t = false)
    (h : w.addEventToken e t = .ok w') :
    w'.hasEventToken = put w.hasEventToken e t true ∧
      w'.getEventTokenCount =
        Function.update w.getEventTokenCount e (w.getEventTokenCount e + 1) ∧
      w'.tokenSlot = put w.tokenSlot e (w.getEventTokenCount e) (some t) := by
  unfold World.addEventToken at h
  rw [if_neg (by simp [new])] at h
  simp only [bind_eq_ok, pure_eq_ok, u32_eq_ok] at h
  obtain ⟨_, ⟨-, rfl⟩, rfl⟩ := h
  have flags := Store.table₂_set DataKey.eventToken (by simp)
    (fun _ _ (stored : Option Bool) => stored.isSome) w.storage e t true
  have counts := Store.table_set DataKey.eventTokenCount (by simp)
    (fun _ (stored : Option ℕ) => stored.getD 0) w.storage e (w.getEventTokenCount e + 1)
  have slots := Store.table₂_set DataKey.eventTokenIndex (by simp)
    (fun _ _ (stored : Option Address) => stored) w.storage e (w.getEventTokenCount e) t
  exact ⟨flags, counts, slots⟩

theorem addEventToken_enlists (enlists : ∀ e, w.Enlists e) (h : w.addEventToken e t = .ok w') :
    (∀ e, w'.Enlists e) ∧ w'.hasEventToken e t = true ∧
      ∀ e' t', w.hasEventToken e' t' = true → w'.hasEventToken e' t' = true := by
  by_cases present : w.hasEventToken e t = true
  · unfold World.addEventToken at h
    rw [if_pos present] at h
    obtain rfl := pure_eq_ok.mp h
    exact ⟨enlists, present, fun _ _ => id⟩
  · have new := Bool.eq_false_iff.mpr present
    obtain ⟨flags, counts, slots⟩ := addEventToken_grows new h
    refine ⟨fun e' => ?_, ?_, fun e' t' present => ?_⟩
    · rw [World.Enlists, flags, counts, slots]
      by_cases same : e' = e
      · subst same
        rw [Function.update_self, put_row_self, put_row_self]
        exact (enlists e').add new
      · rw [Function.update_of_ne same, put_row_of_ne same, put_row_of_ne same]
        exact enlists e'
    · rw [flags, put_self]
    · rw [flags, put_apply]
      split
      · rfl
      · exact present

end List

section Drain

theorem drainToken_revenue {recipient : Address} (h : drainToken env w e t recipient = .ok w')
    (t' : Address) :
    w'.getEventTokenRevenue e t' = if t' = t then 0 else w.getEventTokenRevenue e t' := by
  have out : w'.book.revenue e t' = put w.book.revenue e t 0 e t' := by
    rw [drainToken_book h]
    rfl
  rw [put_apply] at out
  exact out.trans (by simp only [true_and]; rfl)

/-- After the loop no token it went through has revenue, and the others have what they had. -/
theorem releaseTokens_revenue {organizer : Address} (tokens : List Address) :
    ∀ {total total' : ℤ} {w w' : World},
      releaseTokens env e organizer tokens total w = .ok (total', w') →
      ∀ t, w'.getEventTokenRevenue e t =
        if t ∈ tokens then min (w.getEventTokenRevenue e t) 0 else w.getEventTokenRevenue e t := by
  induction tokens with
  | nil =>
    intro total total' w w' h t
    cases h
    simp
  | cons first rest ih =>
    intro total total' w w' h t
    rw [releaseTokens] at h
    split at h <;> rename_i available
    · simp only [bind_eq_ok] at h
      obtain ⟨w₁, drained, _, -, h⟩ := h
      have left := drainToken_revenue drained t
      rw [ih h t, left]
      grind
    · rw [ih h t]
      grind

theorem drainTokens_revenue {organizer : Address} (tokens : List Address) :
    ∀ {found found' : Bool} {w w' : World},
      drainTokens env e organizer tokens found w = .ok (found', w') →
      ∀ t, w'.getEventTokenRevenue e t =
        if t ∈ tokens then min (w.getEventTokenRevenue e t) 0 else w.getEventTokenRevenue e t := by
  induction tokens with
  | nil =>
    intro found found' w w' h t
    cases h
    simp
  | cons first rest ih =>
    intro found found' w w' h t
    rw [drainTokens] at h
    split at h <;> rename_i available
    · simp only [bind_eq_ok] at h
      obtain ⟨w₁, drained, h⟩ := h
      have left := drainToken_revenue drained t
      have emitted : (emitWithdrawn env w₁ e organizer (w.getEventTokenRevenue e first)
        first).getEventTokenRevenue e t = w₁.getEventTokenRevenue e t := rfl
      rw [ih h t, emitted, left]
      grind
    · rw [ih h t]
      grind

end Drain

section Postings

variable {K : Symbol → Address → Prop} {self : Address} {b : Book} {posting : Posting}

structure Book.Paid (K : Symbol → Address → Prop) (b : Book) : Prop where
  payment : ∀ k p, b.payment k = some p → K p.eventId p.token
  volume : ∀ e t, b.volume e t ≠ 0 → K e t

def Book.Complete (K : Symbol → Address → Prop) (b : Book) : Prop :=
  ∀ e t, b.revenue e t ≠ 0 → K e t

def Posting.Lists (K : Symbol → Address → Prop) : Posting → Prop
  | .sale p _ _ => K p.eventId p.token
  | .recount _ => False
  | _ => True

theorem Book.Paid.mono {L : Symbol → Address → Prop} (paid : b.Paid K) (le : ∀ e t, K e t → L e t) :
    b.Paid L :=
  ⟨fun k p stored => le _ _ (paid.payment k p stored), fun e t moved => le _ _ (paid.volume e t moved)⟩

theorem post_paid (sound : Sound self b posting) (lists : posting.Lists K) (paid : b.Paid K) :
    (b.post self posting).Paid K where
  payment k p stored := by
    by_cases sale : posting.entry = .sale
    · cases posting with
      | sale p' ticket payer =>
        obtain ⟨-, rfl⟩ | ⟨-, old⟩ := update_eq_some.mp stored
        · exact lists
        · exact paid.payment k p old
      | _ => cases sale
    · obtain ⟨p', old, follows⟩ := post_payment_old sound sale stored
      rw [follows.eventId, follows.token]
      exact paid.payment k p' old
  volume e t moved := by
    cases posting with
    | sale p ticket payer =>
      change put b.volume p.eventId p.token _ e t ≠ 0 at moved
      rw [put_apply] at moved
      split at moved
      · rename_i here
        rw [here.1, here.2]
        exact lists
      · exact paid.volume e t moved
    | recount counters => exact lists.elim
    | resale ticket t' price fee royalty buyer seller =>
      have counters :=
        (recordResale_frame self b ticket t' price (price - fee - royalty) buyer seller).2.2.2
      have same := congrArg (Counters.volume · e t) counters
      exact paid.volume e t fun zero => moved (same.trans zero)
    | _ => exact paid.volume e t moved

theorem inToken_ne_zero {f : PaymentRecord → ℤ} {p : PaymentRecord} (h : inToken f e t p ≠ 0) :
    e = p.eventId ∧ t = p.token := by
  unfold inToken at h
  split at h
  · assumption
  · exact absurd rfl h

/-- Revenue comes from payments, and from the royalties of resales. -/
theorem post_complete (sound : Sound self b posting) (lists : posting.Lists K) (paid : b.Paid K)
    (unsold : posting.entry ≠ .resale) (complete : b.Complete K) :
    (b.post self posting).Complete K := by
  intro e t moved
  rw [post_revenue] at moved
  by_cases before : b.revenue e t = 0
  · rw [before, zero_add] at moved
    have paidIn {f : PaymentRecord → ℤ} {p : PaymentRecord} (stored : b.payment p.paymentId = some p)
        (h : inToken f e t p ≠ 0) : K e t := by
      obtain ⟨rfl, rfl⟩ := inToken_ne_zero h
      exact paid.payment _ p stored
    cases posting with
    | sale p ticket payer =>
      obtain ⟨rfl, rfl⟩ := inToken_ne_zero moved
      exact lists
    | unfreeze p => exact paidIn sound.stored moved
    | refund p payer x status => exact paidIn sound.stored (neg_ne_zero.mp moved)
    | freeze p d => exact paidIn sound.stored (neg_ne_zero.mp moved)
    | payout e' t' pool total net left dst time =>
      simp only [revenueChange] at moved
      split at moved
      · rename_i here
        obtain ⟨rfl, rfl⟩ := here
        exact absurd before sound.available.ne'
      · exact absurd rfl moved
    | settle e' t' pool total net left =>
      simp only [revenueChange] at moved
      split at moved
      · rename_i here
        obtain ⟨rfl, rfl⟩ := here
        refine paid.volume e t fun idle => ?_
        have total : total = 0 := by
          have takes := sound.takes
          cases pool with
          | none => exact takes.1.trans before
          | some r => rw [takes.2.2.1, idle, bpsOf, zero_mul, Int.zero_tdiv]
        exact absurd total sound.positive.ne'
      · exact absurd rfl moved
    | resale => exact absurd rfl unsold
    | _ => exact absurd rfl moved
  · exact complete e t before

end Postings

section Calls

structure World.Indexed (w : World) : Prop where
  enlists : ∀ e, w.Enlists e
  paid : w.book.Paid fun e t => w.hasEventToken e t = true

def World.Complete (w : World) : Prop :=
  w.book.Complete fun e t => w.hasEventToken e t = true

theorem entry_free (k : DataKey) (routine : k.IsRoutine = true) : k.IsTokenEntry = false := by
  cases k <;> first | rfl | cases routine

theorem entry_of_replay (k : DataKey) (h : k.IsReplay = true) : k.IsTokenEntry = false := by
  cases k <;> first | rfl | cases h

theorem entry_of_payer (k : DataKey) (h : k.IsPayerEntry = true) : k.IsTokenEntry = false := by
  cases k <;> first | rfl | cases h

theorem entry_of_owner (k : DataKey) (h : k.IsOwnerEntry = true) : k.IsTokenEntry = false := by
  cases k <;> first | rfl | cases h

theorem createPayment_lists {params : PaymentParams} {id : ℕ}
    (h : createPayment env params w = .ok (id, w')) :
    ∃ paid listed, w.Leaves DataKey.IsTokenEntry paid ∧
      paid.addEventToken params.eventId params.tokenAddress = .ok listed ∧
      listed.Leaves DataKey.IsTokenEntry w' := by
  obtain ⟨p, ticketId, paid, listed, before, owned, -, earlier, lists, between, -, owns, later⟩ :=
    createPayment_phases entry_free entry_of_replay entry_of_payer h
  have stored : before.Leaves DataKey.IsTokenEntry
      (before.set (.ticket ticketId) (buildTicket p ticketId)) := .set _ rfl
  have indexed := indexOwner_leaves _ entry_of_owner p ticketId owned owns
  exact ⟨paid, listed, earlier, lists, between.trans (stored.trans (indexed.trans later))⟩

theorem buyResaleTicket_entries {buyer : Address} {id : ℕ}
    (h : buyResaleTicket env buyer id w = .ok w') : w.Leaves DataKey.IsTokenEntry w' := by
  obtain ⟨ticket, seller, paid, moved, -, -, pays, moves, rfl⟩ := buyResaleTicket_ok entry_free h
  have handed : paid.Leaves DataKey.IsTokenEntry
      (paid.set (.ticket id) { ticket with owner := some buyer }) := .set _ rfl
  have taken := removeOwnerTicketMap_leaves (P := DataKey.IsTokenEntry) (paid.set (.ticket id)
    { ticket with owner := some buyer }) entry_of_owner seller id
  have given := addOwnerTicketMap_leaves _ entry_of_owner buyer id moved moves
  exact pays.trans (handed.trans (taken.trans (given.trans (.remove rfl))))

theorem exec_enlists {c : Call} (unmigrated : c.Enlists = false) (enlists : ∀ e, w.Enlists e)
    (h : c.exec env w = .ok w') :
    (∀ e, w'.Enlists e) ∧
      (∀ e t, w.hasEventToken e t = true → w'.hasEventToken e t = true) ∧
      ∀ params, c.params = some params →
        w'.hasEventToken params.eventId params.tokenAddress = true := by
  have same (leaves : w.Leaves DataKey.IsTokenEntry w') : (∀ e, w'.Enlists e) ∧
      ∀ e t, w.hasEventToken e t = true → w'.hasEventToken e t = true :=
    ⟨fun e => leaves.enlists (enlists e), fun e t => by rw [leaves.hasEventToken]; exact id⟩
  cases paying : c.params with
  | some params =>
    rw [exec_params paying] at h
    simp only [bind_eq_ok, pure_eq_ok] at h
    obtain ⟨⟨id, _⟩, sold, rfl⟩ := h
    obtain ⟨paid, listed, before, adds, after⟩ := createPayment_lists sold
    obtain ⟨grown, here, kept⟩ := addEventToken_enlists (fun e => before.enlists (enlists e)) adds
    rw [before.hasEventToken] at kept
    refine ⟨fun e => after.enlists (grown e), ?_, ?_⟩
    · rw [after.hasEventToken]
      exact kept
    · rintro _ ⟨⟩
      rw [after.hasEventToken]
      exact here
  | none =>
    suffices leaves : w.Leaves DataKey.IsTokenEntry w' from
      ⟨(same leaves).1, (same leaves).2, fun _ found => by cases found⟩
    cases c with
    | payForTicket | payForTicketWithCommitment | payForTicketWithOptions => cases paying
    | buyResaleTicket => exact buyResaleTicket_entries h
    | syncEventPrivacy => exact Yields.skip (fun _ => .skip fun _ => .pure (.set _ rfl)) w' h
    | setPaused => exact Yields.skip (fun _ => .pure (.set _ rfl)) w' h
    | migrateEvent => cases unmigrated
    | _ =>
      refine exec_leaves w entry_free ?_ (fun lists => ?_) (fun enlists => ?_) w' h
      · rfl
      · intro id
        rfl
      · cases enlists

theorem Posts.lists {K : Symbol → Address → Prop} {ps : List Posting} {c : Call}
    (posts : Posts env w ps c) (unmigrated : c.Enlists = false)
    (pays : ∀ params, c.params = some params → K params.eventId params.tokenAddress) {posting : Posting}
    (mem : posting ∈ ps) : posting.Lists K := by
  have kind := posts.entries mem
  cases posting with
  | sale p ticket payer =>
    cases c with
    | payForTicket | payForTicketWithCommitment | payForTicketWithOptions =>
      obtain ⟨p', ticket', rfl, -, rfl, rfl⟩ := posts
      obtain ⟨rfl, -⟩ : p = p' ∧ ticket = ticket' ∧ _ := by simpa using mem
      exact pays _ rfl
    | _ => simp [Call.entries, Posting.entry] at kind
  | recount counters =>
    cases c with
    | migrateEvent => cases unmigrated
    | _ => simp [Call.entries, Posting.entry] at kind
  | _ => trivial

/-- A successful call keeps the stored lists in order, and keeps them complete if it is no
resale. -/
theorem exec_indexed {c : Call} (kept : w.book.Kept) (indexed : w.Indexed)
    (unmigrated : c.Enlists = false) (h : c.exec env w = .ok w') :
    w'.Indexed ∧ ((∀ buyer id, c ≠ .buyResaleTicket buyer id) → w.Complete → w'.Complete) := by
  obtain ⟨enlists, grows, pays⟩ := exec_enlists unmigrated indexed.enlists h
  obtain ⟨ps, posts, sound, effect⟩ := exec_written kept h
  let K : Symbol → Address → Prop := fun e t => w'.hasEventToken e t = true
  have lists : Along (post env.currentContract) (fun _ posting => posting.Lists K) w.book ps :=
    along_of_mem (fun posting mem _ => posts.lists unmigrated pays mem) _
  have base : w.book.Paid K := indexed.paid.mono grows
  have paid : w'.book.Paid K := by
    rw [← effect]
    exact run_invariant (I := Book.Paid K) (fun b posting paid meets =>
      post_paid meets.1 meets.2 paid) (sound.and lists) base
  refine ⟨⟨enlists, paid⟩, fun unsold complete => ?_⟩
  have others : Along (post env.currentContract) (fun _ posting => posting.entry ≠ .resale)
      w.book ps := by
    refine along_of_mem (fun posting mem _ same => ?_) _
    have kind := posts.entries mem
    rw [same] at kind
    cases c with
    | buyResaleTicket buyer id => exact unsold buyer id rfl
    | _ => simp [Call.entries] at kind
  have step : ∀ b posting, b.Paid K ∧ b.Complete K →
      (Sound env.currentContract b posting ∧ posting.Lists K) ∧ posting.entry ≠ .resale →
      (b.post env.currentContract posting).Paid K ∧ (b.post env.currentContract posting).Complete K :=
    fun b posting inv meets => ⟨post_paid meets.1.1 meets.1.2 inv.1,
      post_complete meets.1.1 meets.1.2 inv.1 meets.2 inv.2⟩
  have reached := run_invariant step ((sound.and lists).and others)
    ⟨base, fun e t moved => grows e t (complete e t moved)⟩
  rw [effect] at reached
  exact reached.2

end Calls

section Resales

/-- A resale with a royalty is in a token of the event's list. -/
def RoyaltyListed (_ : Env) (w : World) : Call → Prop
  | .buyResaleTicket _ ticketId =>
    ∀ listing ∈ w.getResaleListing ticketId, ∀ ticket ∈ (w.get (.ticket ticketId) : Option Ticket),
      ∀ config ∈ w.getEventConfig ticket.eventId,
        0 < bpsOf listing.price config.resaleRoyaltyBps →
          config.payoutToken ∈ w.getEventTokens ticket.eventId
  | _ => True

instance (env : Env) (w : World) (c : Call) : Decidable (RoyaltyListed env w c) := by
  apply @Call.casesOn (fun c => Decidable (RoyaltyListed env w c)) c <;> intros <;>
    dsimp only [RoyaltyListed] <;> infer_instance

theorem buyResaleTicket_revenue {buyer : Address} {id : ℕ} (kept : w.book.Kept)
    (h : buyResaleTicket env buyer id w = .ok w') :
    ∃ listing ticket config, w.getResaleListing id = some listing ∧
      w.get (.ticket id) = some ticket ∧ w.getEventConfig ticket.eventId = some config ∧
      ∀ e t, w'.getEventTokenRevenue e t = w.getEventTokenRevenue e t +
        if e = ticket.eventId ∧ t = config.payoutToken then
          max 0 (bpsOf listing.price config.resaleRoyaltyBps) else 0 := by
  simp only [buyResaleTicket, bind_eq_ok, pure_eq_ok, require_eq_ok, okOr_eq_ok,
    World.getTicket] at h
  obtain ⟨-, -, -, -, listing, listed, ticket, stored, -, owner, config, configured, w₁, h₁, _, -, -,
    -, w₂, h₂, rfl⟩ := h
  refine ⟨listing, ticket, config, listed, stored, configured, fun e t => ?_⟩
  obtain ⟨p, hp, built, -⟩ := kept.recorded.ticketed id ticket stored
  have number : ticket.ticketId = id := congrArg Ticket.ticketId built
  have moved : w₂.getEventTokenRevenue e t = w₁.getEventTokenRevenue e t := by
    have book : w₂.book = (w₁.set (.ticket id) { ticket with owner := some buyer }).book := by
      rw [World.addOwnerTicketMap_book h₂, World.removeOwnerTicketMap_book]
    exact congrArg (fun b : Book => b.revenue e t) book
  change w₂.getEventTokenRevenue e t = _
  rw [moved]
  by_cases positive : 0 < listing.price
  · have paid := settleResale_pays number positive h₁
    have revenue : w₁.getEventTokenRevenue e t = _ := congrArg (fun b : Book => b.revenue e t) paid
    rw [post_revenue] at revenue
    rw [revenue, max_eq_right (bpsOf_nonneg positive.le _)]
    rfl
  · rw [settleResale, if_neg positive] at h₁
    cases h₁
    have none : bpsOf listing.price config.resaleRoyaltyBps ≤ 0 := by
      have mirrored := bpsOf_nonneg (neg_nonneg.mpr (not_lt.mp positive)) config.resaleRoyaltyBps
      rwa [bpsOf, neg_mul, Int.neg_tdiv, neg_nonneg] at mirrored
    rw [max_eq_left none, ite_self, add_zero]

theorem buyResaleTicket_complete_iff {buyer : Address} {id : ℕ} (kept : w.book.Kept)
    (indexed : w.Indexed) (complete : w.Complete) (h : buyResaleTicket env buyer id w = .ok w') :
    w'.Complete ↔ RoyaltyListed env w (.buyResaleTicket buyer id) := by
  obtain ⟨listing, ticket, config, listed, stored, configured, revenue⟩ :=
    buyResaleTicket_revenue kept h
  have flags : w'.hasEventToken = w.hasEventToken := (buyResaleTicket_entries h).hasEventToken
  simp only [RoyaltyListed, listed, stored, configured, Option.mem_some_iff, forall_eq',
    (indexed.enlists _).mem]
  constructor
  · intro complete' royalty
    by_contra absent
    have idle : w.getEventTokenRevenue ticket.eventId config.payoutToken = 0 := by
      by_contra moved
      exact absent (complete _ _ moved)
    have moved := revenue ticket.eventId config.payoutToken
    rw [idle, if_pos ⟨rfl, rfl⟩, max_eq_right royalty.le, zero_add] at moved
    have present := complete' ticket.eventId config.payoutToken
      (by change w'.getEventTokenRevenue _ _ ≠ 0; rw [moved]; exact royalty.ne')
    rw [flags] at present
    exact absent present
  · intro meets e t moved
    rw [flags]
    by_cases before : w.getEventTokenRevenue e t = 0
    · change w'.getEventTokenRevenue e t ≠ 0 at moved
      rw [revenue, before, zero_add] at moved
      split at moved
      · rename_i here
        obtain ⟨rfl, rfl⟩ := here
        refine meets (lt_of_not_ge fun none => moved (max_eq_left none))
      · exact absurd rfl moved
    · exact complete e t before

end Resales

section Steps

theorem next_indexed (d : Deployment) {step : Step} (kept : w.book.Kept) (indexed : w.Indexed)
    (unmigrated : step.migrates = false) : (w.next d step).Indexed := by
  cases step with
  | call invocation c =>
    refine commit_induction indexed fun w' h => (exec_indexed kept indexed ?_ h).1
    cases c <;> first | rfl | cases unmigrated
  | mint token dst amount =>
    unfold World.next
    dsimp only
    split
    · exact ⟨indexed.enlists, indexed.paid.payment, indexed.paid.volume⟩
    · exact indexed
  | pay token src dst amount =>
    unfold World.next World.payOutside
    dsimp only
    split
    · exact indexed
    · exact ⟨indexed.enlists, indexed.paid.payment, indexed.paid.volume⟩

/-- A step keeps the lists complete unless it credits a royalty in a token off the list. -/
theorem next_complete_iff (d : Deployment) {step : Step} (kept : w.book.Kept)
    (indexed : w.Indexed) (unmigrated : step.migrates = false) (complete : w.Complete) :
    (w.next d step).Complete ↔ Succeeding d RoyaltyListed w step := by
  cases step with
  | call invocation c =>
    rw [World.next]
    cases result : c.exec ⟨d, invocation⟩ w with
    | error e =>
      refine ⟨fun _ succeeds => ?_, fun _ => complete⟩
      simp [Call.succeeds, result, Except.isOk, Except.toBool] at succeeds
    | ok w' =>
      have succeeds : c.succeeds ⟨d, invocation⟩ w = true := succeeds_iff.mpr ⟨w', result⟩
      rw [commit_ok]
      by_cases resale : ∃ buyer id, c = .buyResaleTicket buyer id
      · obtain ⟨buyer, id, rfl⟩ := resale
        rw [buyResaleTicket_complete_iff kept indexed complete result]
        exact ⟨fun meets _ => meets, fun meets => meets succeeds⟩
      · have unsold : ∀ buyer id, c ≠ .buyResaleTicket buyer id :=
          fun buyer id same => resale ⟨buyer, id, same⟩
        have unlisting : c.Enlists = false := by
          cases c <;> first | rfl | cases unmigrated
        refine ⟨fun _ _ => ?_, fun _ => (exec_indexed kept indexed unlisting result).2 unsold complete⟩
        unfold RoyaltyListed
        split
        · exact absurd rfl (unsold _ _)
        · trivial
  | mint token dst amount =>
    refine ⟨fun _ => trivial, fun _ => ?_⟩
    unfold World.next
    dsimp only
    split <;> exact complete
  | pay token src dst amount =>
    refine ⟨fun _ => trivial, fun _ => ?_⟩
    unfold World.next World.payOutside
    dsimp only
    split <;> exact complete

theorem deployed_indexed (balances : Balances Address Address) : (deployed balances).Indexed where
  enlists _ := Flagged.empty
  paid := ⟨fun _ _ => nofun, fun _ _ moved => absurd rfl moved⟩

theorem deployed_complete (balances : Balances Address Address) : (deployed balances).Complete :=
  fun _ _ moved => absurd rfl moved

end Steps

section Totals

theorem sum_map_eq_finsum {α : Type} {f : α → ℤ} {xs : List α} (nodup : xs.Nodup)
    (complete : ∀ a, f a ≠ 0 → a ∈ xs) : (xs.map f).sum = ∑ᶠ a, f a := by
  classical
  have support : Function.support f ⊆ (xs.toFinset : Set α) := fun a moved => by
    simpa using complete a moved
  rw [finsum_eq_sum_of_support_subset f support, List.sum_toFinset f nodup]

/-- The list of the event's tokens as a reader relies on it: the event's revenue is what the
list adds up to, and the two payouts of all tokens leave nothing. -/
structure World.ListsTokens (w : World) (e : Symbol) : Prop where
  nodup : (w.getEventTokens e).Nodup
  complete : ∀ t, w.getEventTokenRevenue e t ≠ 0 → t ∈ w.getEventTokens e
  total : ∀ x, w.getEventRevenue e = .ok x ↔ x = ∑ᶠ t, w.getEventTokenRevenue e t ∧
    ∀ ts, ts <+: w.getEventTokens e → InI128 (ts.map (w.getEventTokenRevenue e)).sum
  released : ∀ env w', releaseIfExpired env e w = .ok w' → ∀ t, w'.getEventTokenRevenue e t ≤ 0
  withdrawn : ∀ env organizer w', withdrawAllTokens env organizer e w = .ok w' →
    ∀ t, w'.getEventTokenRevenue e t ≤ 0

theorem validateRevenueInvariant_lists (kept : w.book.Kept) (indexed : w.Indexed)
    (complete : w.Complete) (h : validateRevenueInvariant env e w = .ok w') :
    w'.Indexed ∧ w'.Complete := by
  obtain ⟨ps, sweeps, sound, effect⟩ := validateRevenueInvariant_swept kept h
  have leaves := validateRevenueInvariant_leaves w (free_of_swept entry_free) w' h
  let K : Symbol → Address → Prop := fun e t => w.hasEventToken e t = true
  have returns : Along (post env.currentContract) (fun _ posting =>
      posting.entry = .unfreeze) w.book ps :=
    along_of_mem (fun posting mem _ => sweeps.entries mem) _
  have step : ∀ b posting, b.Paid K ∧ b.Complete K →
      Sound env.currentContract b posting ∧ posting.entry = .unfreeze →
      (b.post env.currentContract posting).Paid K ∧
        (b.post env.currentContract posting).Complete K := by
    rintro b posting ⟨paid, complete⟩ ⟨sound, kind⟩
    have lists : posting.Lists K := by
      cases posting <;> trivial
    have unsold : posting.entry ≠ .resale := by
      rw [kind]
      nofun
    exact ⟨post_paid sound lists paid, post_complete sound lists paid unsold complete⟩
  have reached := run_invariant step (sound.and returns) ⟨indexed.paid, complete⟩
  rw [effect] at reached
  refine ⟨⟨fun e => leaves.enlists (indexed.enlists e), ?_⟩, ?_⟩
  · rw [leaves.hasEventToken]
    exact reached.1
  · rw [World.Complete, leaves.hasEventToken]
    exact reached.2

theorem World.Complete.drained (complete : w.Complete) (enlists : w.Enlists e) {t : Address} :
    (if t ∈ w.getEventTokens e then min (w.getEventTokenRevenue e t) 0
      else w.getEventTokenRevenue e t) ≤ 0 := by
  split
  · exact min_le_right _ _
  · rename_i absent
    by_contra moved
    exact absent (enlists.mem.mpr (complete e t (not_le.mp moved).ne'))

theorem releaseIfExpired_empties (kept : w.book.Kept) (indexed : w.Indexed)
    (complete : w.Complete) (h : releaseIfExpired env e w = .ok w') (t : Address) :
    w'.getEventTokenRevenue e t ≤ 0 := by
  simp only [releaseIfExpired, bind_eq_ok, pure_eq_ok] at h
  obtain ⟨-, -, -, -, escrow, -, -, -, -, -, -, -, -, -, w₁, swept, ⟨total, w₂⟩, released, rfl⟩ := h
  obtain ⟨indexed₁, complete₁⟩ := validateRevenueInvariant_lists kept indexed complete swept
  change w₂.getEventTokenRevenue e t ≤ 0
  rw [releaseTokens_revenue _ released]
  exact complete₁.drained (indexed₁.enlists e)

theorem withdrawAllTokens_empties {organizer : Address} (kept : w.book.Kept) (indexed : w.Indexed)
    (complete : w.Complete) (h : withdrawAllTokens env organizer e w = .ok w') (t : Address) :
    w'.getEventTokenRevenue e t ≤ 0 := by
  simp only [withdrawAllTokens, bind_eq_ok, pure_eq_ok] at h
  obtain ⟨-, -, -, -, -, -, -, -, w₁, swept, ⟨found, w₂⟩, drained, -, -, rfl⟩ := h
  obtain ⟨indexed₁, complete₁⟩ := validateRevenueInvariant_lists kept indexed complete swept
  rw [drainTokens_revenue _ drained]
  exact complete₁.drained (indexed₁.enlists e)

theorem getEventRevenue_eq_ok {x : ℤ} : w.getEventRevenue e = .ok x ↔
    x = ((w.getEventTokens e).map (w.getEventTokenRevenue e)).sum ∧
      ∀ ys, ys <+: w.getEventTokens e → InI128 (ys.map (w.getEventTokenRevenue e)).sum := by
  have fold : w.getEventRevenue e = .ok x ↔ _ :=
    foldlM_i128_eq_ok (w.getEventTokenRevenue e) (w.getEventTokens e) (by decide)
  simpa only [zero_add] using fold

theorem World.listsTokens_iff (kept : w.book.Kept) (indexed : w.Indexed) :
    (∀ e, w.ListsTokens e) ↔ w.Complete := by
  constructor
  · intro lists e t moved
    exact (indexed.enlists e).mem.mp ((lists e).complete t moved)
  · intro complete e
    have listed (t : Address) (moved : w.getEventTokenRevenue e t ≠ 0) : t ∈ w.getEventTokens e :=
      (indexed.enlists e).mem.mpr (complete e t moved)
    have nodup : (w.getEventTokens e).Nodup := (indexed.enlists e).nodup
    refine ⟨nodup, listed, fun x => ?_, fun env w' h => ?_, fun env organizer w' h => ?_⟩
    · rw [← sum_map_eq_finsum nodup listed]
      exact getEventRevenue_eq_ok
    · exact releaseIfExpired_empties kept indexed complete h
    · exact withdrawAllTokens_empties kept indexed complete h

end Totals

/-- The list of an event's tokens is complete all along exactly when every royalty comes in a
token that the event is sold in already. -/
theorem event_tokens_complete_iff (d : Deployment) (balances : Balances Address Address)
    (steps : List Step) (unmigrated : ∀ step ∈ steps, step.migrates = false) :
    (∀ before, before <+: steps → ∀ e,
        (run (World.next d) (deployed balances) before).ListsTokens e) ↔
      Along (World.next d) (Succeeding d RoyaltyListed) (deployed balances) steps := by
  have inv : ∀ (w : World) (step : Step), w.book.Kept ∧ w.Indexed → step.migrates = false →
      (w.next d step).book.Kept ∧ (w.next d step).Indexed :=
    fun w step inv unmigrated =>
      ⟨next_kept w step inv.1, next_indexed d inv.1 inv.2 unmigrated⟩
  have step : ∀ (w : World) (step : Step), w.book.Kept ∧ w.Indexed → step.migrates = false →
      w.Complete → ((w.next d step).Complete ∧ True ↔ Succeeding d RoyaltyListed w step) :=
    fun w step inv unmigrated complete =>
      (and_iff_left trivial).trans (next_complete_iff d inv.1 inv.2 unmigrated complete)
  have along : Along (World.next d) (fun _ step => step.migrates = false) (deployed balances)
      steps := along_of_mem (fun step mem _ => unmigrated step mem) _
  have base : (deployed balances).book.Kept ∧ (deployed balances).Indexed :=
    ⟨deployed_kept balances, deployed_indexed balances⟩
  rw [← prefixes_and_along_iff (P := fun _ _ => True) inv step along base
    (deployed_complete balances)]
  have reached (before : List Step) (le : before <+: steps) :
      let w := run (World.next d) (deployed balances) before
      w.book.Kept ∧ w.Indexed := by
    obtain ⟨rest, rfl⟩ := le
    exact run_invariant inv (along_append.mp along).1 base
  refine Iff.trans ?_ (and_iff_left (along_of_forall (fun _ _ => trivial) _ _)).symm
  refine forall_congr' fun before => forall_congr' fun le => ?_
  exact World.listsTokens_iff (reached before le).1 (reached before le).2

namespace Sample

def royalties : List Step :=
  [.mint token bob 1000, .mint token amy 1000, .mint ⟨8⟩ bob 1000,
    call 1 (.initialise admin token 0 admin eventContract),
    call 1 (.addSupportedToken admin ⟨8⟩), call 1 (.setTicketContract admin ⟨9⟩),
    call 1 (.syncEventConfig eventContract concert { terms with resaleRoyaltyBps := 1000 })]

def soldOnIn (t : Address) : List Step :=
  royalties ++ [call 2 (.payForTicket 1 bob concert 100 none t .standard none none),
    call 3 (.listTicketForResale bob 1 100), call 4 (.buyResaleTicket amy 1)]

end Sample

theorem event_tokens_complete_iff_sample :
    (∀ step ∈ Sample.soldOnIn Sample.token, step.migrates = false) ∧
      ∀ before, before <+: Sample.soldOnIn Sample.token → ∀ e,
        (run (World.next Sample.deployment) (deployed Sample.noBalances) before).ListsTokens e :=
  ⟨by decide,
    (event_tokens_complete_iff Sample.deployment Sample.noBalances _ (by decide)).mpr (by decide)⟩

/-- The only sale was in the second token, the royalty comes in the payout token: the list
misses it, and so does the event's revenue. -/
theorem royalty_off_the_list :
    let w := run (World.next Sample.deployment) (deployed Sample.noBalances) (Sample.soldOnIn ⟨8⟩)
    Chronological (Sample.soldOnIn ⟨8⟩) ∧
      (∀ step ∈ Sample.soldOnIn ⟨8⟩, step.migrates = false) ∧
      w.getEventTokens Sample.concert = [⟨8⟩] ∧
      w.getEventTokenRevenue Sample.concert Sample.token = 10 ∧
      w.getEventRevenue Sample.concert = .ok 100 ∧
      ¬ w.ListsTokens Sample.concert := by
  have revenue : (run (World.next Sample.deployment) (deployed Sample.noBalances)
      (Sample.soldOnIn ⟨8⟩)).getEventTokenRevenue Sample.concert Sample.token = 10 := by decide
  have tokens : (run (World.next Sample.deployment) (deployed Sample.noBalances)
      (Sample.soldOnIn ⟨8⟩)).getEventTokens Sample.concert = [⟨8⟩] := by decide
  refine ⟨by decide, by decide, tokens, revenue, by decide, fun lists => ?_⟩
  have listed := lists.complete Sample.token (by rw [revenue]; decide)
  rw [tokens] at listed
  exact absurd listed (by decide)

end Zicket.Payments
