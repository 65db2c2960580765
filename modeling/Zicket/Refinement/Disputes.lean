import Zicket.Refinement.Refunds

/-! What the dispute operations write. The sweep of timed-out disputes rewrites the
event's dispute list once, at its end; the book drops each dispute as it goes. -/

namespace Zicket.Payments

open Host Foundation Book

variable {env : Env} {w w' : World}

def Swept (self : Address) (e : Symbol) (b b' : Book) : Prop :=
  ∃ ps, Sweeps e ps ∧ Along (post self) (Sound self) b ps ∧ run (post self) b ps = b'

theorem returnDisputed_book (env : Env) (self : Address) {b : Book} {D : Symbol → List ℕ} {e : Symbol} {p : PaymentRecord}
    (view : w.book = { b with disputes := D }) (stored : b.payment p.paymentId = some p)
    (disputed : p.status = .disputed) (event : p.eventId = e)
    (h : returnDisputed w e p.paymentId = .ok w') :
    ((w'.removeDispute p.paymentId).emitDisputeTimedOut env e p.paymentId).book = { b.post self (.unfreeze p) with
      disputes := D } := by
  have stored' : w.get (.payment p.paymentId) = some p := by
    change w.book.payment p.paymentId = some p
    rw [view]
    exact stored
  simp only [returnDisputed, stored', disputed, if_true, bind_eq_ok, pure_eq_ok, i128_eq_ok] at h
  obtain ⟨w₁, h₁, w₂, h₂, _, ⟨-, rfl⟩, rfl⟩ := h
  rw [World.emitDisputeTimedOut, World.book_emit, World.removeDispute, World.book_remove_dispute,
    World.setEventTokenRevenue_book rfl, World.shiftEventRevenue_book h₂, World.updatePayment_book h₁, view, ← event]
  rfl

theorem filter_passed {done rest : List ℕ} {id : ℕ} (distinct : (done ++ id :: rest).Nodup) :
    (done ++ id :: rest).filter (· ≠ id) = done ++ rest := by
  rw [List.nodup_middle, List.nodup_cons, List.mem_append, not_or] at distinct
  obtain ⟨⟨notDone, notRest⟩, -⟩ := distinct
  rw [List.filter_append, List.filter_cons_of_neg (by simp)]
  congr 1 <;> apply List.filter_eq_self.mpr <;> intro k hk <;> simp only [decide_eq_true_eq] <;>
    rintro rfl <;> contradiction

section Unfreezing

variable (self : Address) (b : Book) (p : PaymentRecord)

theorem post_unfreeze_dispute : (b.post self (.unfreeze p)).dispute =
    Function.update b.dispute p.paymentId none := rfl

theorem post_unfreeze_disputes : (b.post self (.unfreeze p)).disputes =
    Function.update b.disputes p.eventId ((b.disputes p.eventId).filter (· ≠ p.paymentId)) := rfl

theorem post_unfreeze_payment_of_ne {k : ℕ} (other : k ≠ p.paymentId) :
    (b.post self (.unfreeze p)).payment k = b.payment k := Function.update_of_ne other ..

end Unfreezing

/-- What the sweep writes for the listed tickets: the payment of each timed-out dispute returns. -/
def Book.returns (env : Env) (b : Book) (ids : List ℕ) : List Posting :=
  ids.filterMap fun k =>
    if (b.dispute k).any (disputeExpired env) then (b.payment k).map .unfreeze else none

theorem returns_cons (self : Address) {b : Book} {id : ℕ} {rest : List ℕ} {d : DisputeRecord}
    {p : PaymentRecord} (hd : b.dispute id = some d) (expired : disputeExpired env d = true)
    (hp : b.payment id = some p) (number : p.paymentId = id) (later : id ∉ rest) :
    b.returns env (id :: rest) =
      .unfreeze p :: (b.post self (.unfreeze p)).returns env rest := by
  have same : (b.post self (.unfreeze p)).returns env rest = b.returns env rest := by
    refine List.filterMap_congr fun k mem => ?_
    have other : k ≠ p.paymentId := by
      rintro rfl
      exact later (number ▸ mem)
    rw [post_unfreeze_dispute, Function.update_of_ne other, post_unfreeze_payment_of_ne _ _ _ other]
  rw [same]
  refine List.filterMap_cons_some ?_
  rw [if_pos (any_expired hd expired), hp, Option.map_some]

/-- The loop keeps the stale list `D` in storage; `done` are the tickets it has passed. -/
theorem sweepDisputes_book {self : Address} {D : Symbol → List ℕ} {e : Symbol} (ids : List ℕ) :
    ∀ {b : Book} {done remaining : List ℕ} {modified : Bool} {w w' : World},
      Recorded b.toRecords → w.book = { b with disputes := D } → b.disputes e = done ++ ids →
      sweepDisputes env e ids w = .ok (remaining, modified, w') →
      Sweeps e (b.returns env ids) ∧ Along (post self) (Sound self) b (b.returns env ids) ∧
        w'.book = { run (post self) b (b.returns env ids) with disputes := D } ∧
        (run (post self) b (b.returns env ids)).disputes =
          Function.update b.disputes e (done ++ remaining) ∧
        (modified = false → b.returns env ids = []) := by
  induction ids with
  | nil =>
    intro b done remaining modified w w' _ view listed h
    simp only [sweepDisputes, pure_eq_ok] at h
    cases h
    refine ⟨by simp [Sweeps, returns], trivial, view, ?_, fun _ => rfl⟩
    rw [returns, List.filterMap_nil, run_nil, ← listed, Function.update_eq_self]
  | cons id rest ih =>
    intro b done remaining modified w w' recorded view listed h
    obtain ⟨d, hd, event⟩ := (recorded.listed e id).mp (by simp [listed])
    obtain ⟨-, payment, p, hp, disputed, event'⟩ := recorded.disputed id d hd
    have hd' : w.getDispute id = some d := by
      change w.book.dispute id = some d
      rw [view]
      exact hd
    cases expired : disputeExpired env d with
    | true =>
      rw [sweepDisputes_expired hd' expired] at h
      simp only [bind_eq_ok, pure_eq_ok] at h
      obtain ⟨w₁, h₁, ⟨remaining', modified', w₂⟩, h₂, h₃⟩ := h
      cases h₃
      have number := (recorded.numbered id p hp).1
      rw [payment, ← number] at h₁
      have event : p.eventId = e := event'.trans event
      have stored : b.payment p.paymentId = some p := recorded.stored hp
      have view₁ := returnDisputed_book env self view stored disputed event h₁
      rw [number] at view₁
      have sound : Sound self b (.unfreeze p) := ⟨stored, disputed⟩
      have distinct := recorded.distinct e
      rw [listed] at distinct
      have listed₁ : (b.post self (.unfreeze p)).disputes e = done ++ rest := by
        rw [post_unfreeze_disputes, event, Function.update_self, listed, number,
          filter_passed distinct]
      obtain ⟨sweeps, sounds, view₂, disputes, -⟩ :=
        ih (post_recorded recorded sound) view₁ listed₁ h₂
      have later : id ∉ rest := (List.nodup_cons.mp (List.nodup_append.mp distinct).2.1).1
      rw [returns_cons self hd expired hp number later]
      refine ⟨?_, ⟨sound, sounds⟩, view₂, ?_, fun h => by cases h⟩
      · intro posting mem
        obtain rfl | mem := List.mem_cons.mp mem
        · exact ⟨p, rfl, event⟩
        · exact sweeps posting mem
      · rw [run_cons, disputes, post_unfreeze_disputes, event, Function.update_idem]
    | false =>
      have stays : b.returns env (id :: rest) = b.returns env rest :=
        List.filterMap_cons_none (if_neg (any_waiting hd expired))
      rw [sweepDisputes_waiting hd' expired] at h
      simp only [bind_eq_ok, pure_eq_ok] at h
      obtain ⟨⟨remaining', modified', w₁⟩, h₁, h₂⟩ := h
      cases h₂
      have passed : b.disputes e = (done ++ [id]) ++ rest := by simp [listed]
      obtain ⟨sweeps, sound, view', disputes, unmodified⟩ := ih recorded view passed h₁
      rw [stays]
      refine ⟨sweeps, sound, view', ?_, unmodified⟩
      rw [disputes, List.append_assoc, List.singleton_append]

theorem processTimedOutDisputes_returns {e : Symbol} (kept : w.book.Kept)
    (h : processTimedOutDisputes env e w = .ok w') :
    let ps := w.book.returns env (w.getEventDisputes e)
    Sweeps e ps ∧ Along (post env.currentContract) (Sound env.currentContract) w.book ps ∧
      run (post env.currentContract) w.book ps = w'.book := by
  simp only [processTimedOutDisputes, bind_eq_ok, pure_eq_ok] at h
  obtain ⟨⟨remaining, modified, w₁⟩, h₁, rfl⟩ := h
  have view : w.book = { w.book with disputes := w.book.disputes } := rfl
  have listed : w.book.disputes e = [] ++ w.getEventDisputes e := rfl
  obtain ⟨sweeps, sound, view, disputes, unmodified⟩ :=
    sweepDisputes_book _ kept.recorded view listed h₁
  refine ⟨sweeps, sound, ?_⟩
  cases modified with
  | false =>
    rw [unmodified rfl] at view ⊢
    exact view.symm
  | true =>
    change _ = (w₁.setEventDisputes e remaining).book
    rw [World.setEventDisputes, World.book_set_eventDisputes, view]
    rw [List.nil_append] at disputes
    change _ = { run (post env.currentContract) w.book _ with
      disputes := Function.update w.book.disputes e remaining }
    rw [← disputes]

theorem processTimedOutDisputes_swept {e : Symbol} (kept : w.book.Kept)
    (h : processTimedOutDisputes env e w = .ok w') :
    Swept env.currentContract e w.book w'.book :=
  ⟨_, processTimedOutDisputes_returns kept h⟩

section Swept

variable {self : Address} {e : Symbol} {b b' : Book}

theorem Swept.kept (swept : Swept self e b b') (kept : b.Kept) : b'.Kept := by
  obtain ⟨ps, -, sound, rfl⟩ := swept
  exact run_kept sound kept

theorem Swept.andThen {b₁ : Book} {ps : List Posting} (swept : Swept self e b b₁)
    (sound : Along (post self) (Sound self) b₁ ps) (effect : run (post self) b₁ ps = b') :
    ∃ sweep, Sweeps e sweep ∧ Along (post self) (Sound self) b (sweep ++ ps) ∧
      run (post self) b (sweep ++ ps) = b' := by
  obtain ⟨sweep, sweeps, sounds, rfl⟩ := swept
  refine ⟨sweep, sweeps, along_append.mpr ⟨sounds, sound⟩, ?_⟩
  rw [run_append, effect]

theorem Sweeps.frame {ps : List Posting} (sweeps : Sweeps e ps) (b : Book) :
    (run (post self) b ps).toTerms = b.toTerms ∧
      (run (post self) b ps).toCounters = b.toCounters ∧
      (run (post self) b ps).toWallet = b.toWallet ∧
      (run (post self) b ps).platform = b.platform ∧
      (run (post self) b ps).settlement = b.settlement ∧
      (run (post self) b ps).splitPaid = b.splitPaid := by
  induction ps generalizing b with
  | nil => exact ⟨rfl, rfl, rfl, rfl, rfl, rfl⟩
  | cons posting ps ih =>
    obtain ⟨p, rfl, -⟩ := sweeps posting (List.mem_cons_self ..)
    exact ih (fun posting mem => sweeps posting (List.mem_cons_of_mem _ mem)) _

theorem Swept.terms (swept : Swept self e b b') : b'.toTerms = b.toTerms := by
  obtain ⟨ps, sweeps, -, rfl⟩ := swept
  exact (sweeps.frame b).1

theorem Swept.pool (swept : Swept self e b b') : b.pool = b'.pool := by
  funext e
  have terms := swept.terms
  rw [Book.pool, Book.pool, congrArg Terms.status terms, congrArg Terms.config terms]

theorem Swept.settlement (swept : Swept self e b b') : b'.settlement = b.settlement := by
  obtain ⟨ps, sweeps, -, rfl⟩ := swept
  exact (sweeps.frame b).2.2.2.2.1

theorem Swept.splitPaid (swept : Swept self e b b') : b'.splitPaid = b.splitPaid := by
  obtain ⟨ps, sweeps, -, rfl⟩ := swept
  exact (sweeps.frame b).2.2.2.2.2

end Swept

theorem validateRevenueInvariant_swept {e : Symbol} (kept : w.book.Kept)
    (h : validateRevenueInvariant env e w = .ok w') :
    Swept env.currentContract e w.book w'.book := by
  simp only [validateRevenueInvariant, bind_eq_ok, pure_eq_ok] at h
  obtain ⟨w₁, h₁, -, -, rfl⟩ := h
  exact processTimedOutDisputes_swept kept h₁

theorem processDisputeTimeouts_written {e : Symbol} (kept : w.book.Kept)
    (h : processTimedOutDisputes env e w = .ok w') :
    Written env w (.processDisputeTimeouts e) w'.book :=
  processTimedOutDisputes_swept kept h

theorem raiseDispute_written {ticketId reasonCode : ℕ} {proof : Option Bytes}
    (kept : w.book.Kept) (h : raiseDispute env ticketId reasonCode proof w = .ok w') :
    Written env w (.raiseDispute ticketId reasonCode proof) w'.book := by
  simp only [raiseDispute, bind_eq_ok, pure_eq_ok, require_eq_ok, okOr_eq_ok, World.getTicket,
    World.getPayment, i128_eq_ok] at h
  obtain ⟨-, -, -, -, ticket, hticket, -, -, -, -, -, -, -, -, -, -, p, stored, -, held, w₁, h₁,
    w₂, h₂, _, ⟨-, rfl⟩, rfl⟩ := h
  obtain ⟨p', stored', built, -⟩ := kept.recorded.ticketed ticketId ticket hticket
  have id : ticket.paymentId = p'.paymentId := congrArg Ticket.paymentId built
  have event : ticket.eventId = p'.eventId := congrArg Ticket.eventId built
  have number := (kept.recorded.numbered _ _ stored').1
  rw [id, number] at stored
  have same : some p' = some p := stored'.symm.trans stored
  cases same
  let d : DisputeRecord :=
    { ticketId, eventId := p.eventId, paymentId := p.paymentId, reasonCode,
      raisedAtLedger := env.sequence }
  refine .one ⟨p, d, stored, rfl⟩
    ⟨kept.recorded.stored stored, held, number.symm, rfl, rfl⟩ ?_
  rw [event, World.emitDisputeRaised, World.book_emit, World.setEventDisputes,
    World.book_set_eventDisputes, World.getEventDisputes_eq, World.setDispute,
    World.book_set_dispute, World.setEventTokenRevenue_book (sub_eq_add_neg _ _),
    World.shiftEventRevenue_book h₂, World.updatePayment_book h₁]
  rfl

theorem closeDispute_book (d : DisputeRecord) (ticketId : ℕ) :
    (closeDispute w d ticketId).book = w.book.dropDispute d.eventId ticketId := by
  rw [closeDispute, World.setEventDisputes, World.book_set_eventDisputes, World.removeDispute,
    World.book_remove_dispute]
  rfl

theorem Recorded.dispute_payment {r : Records} (recorded : Recorded r) {ticketId : ℕ}
    {d : DisputeRecord} (hd : r.dispute ticketId = some d) {p : PaymentRecord}
    (hp : r.payment d.paymentId = some p) :
    p.paymentId = ticketId ∧ r.payment p.paymentId = some p ∧ p.eventId = d.eventId ∧
      p.status = .disputed := by
  obtain ⟨-, payment, p', hp', disputed, event⟩ := recorded.disputed ticketId d hd
  rw [payment, hp'] at hp
  cases hp
  exact ⟨(recorded.numbered _ _ hp').1, recorded.stored hp', event, disputed⟩

theorem approveRefund_written {ticketId : ℕ} (kept : w.book.Kept)
    (h : approveRefund env ticketId w = .ok w') :
    Written env w (.approveRefund ticketId) w'.book := by
  simp only [approveRefund, bind_eq_ok, pure_eq_ok, require_eq_ok, okOr_eq_ok, World.getPayment,
    i128_eq_ok] at h
  obtain ⟨-, -, -, -, -, -, d, hd, -, -, p, hp, -, -, remaining, ⟨-, rfl⟩, payer, payee, w₁, h₁,
    _, ⟨-, rfl⟩, w₂, h₂, w₃, h₃, w₄, h₄, rfl⟩ := h
  have hd : w.book.dispute ticketId = some d := hd
  have hp : w.book.payment d.paymentId = some p := hp
  obtain ⟨number, stored, event, disputed⟩ := kept.recorded.dispute_payment hd hp
  refine .one ⟨p, payer, number ▸ stored, rfl⟩ ⟨⟨stored, disputed⟩, payee⟩ ?_
  have whole : p.refundedAmount + (p.amount - p.refundedAmount) = p.amount := by omega
  rw [World.emitDisputeResolved, World.book_emit, closeDispute_book,
    World.addTotalTokenRefunds_book h₄, World.addTotalRefunds_book h₃,
    World.updatePayment_book h₂, (World.transfer_book h₁).2, whole, ← event, ← number]
  rfl

theorem rejectDispute_written {ticketId : ℕ} (kept : w.book.Kept)
    (h : rejectDispute env ticketId w = .ok w') :
    Written env w (.rejectDispute ticketId) w'.book := by
  simp only [rejectDispute, bind_eq_ok, pure_eq_ok, require_eq_ok, okOr_eq_ok, World.getPayment,
    i128_eq_ok] at h
  obtain ⟨-, -, -, -, -, -, d, hd, p, hp, -, -, w₁, h₁, w₂, h₂, _, ⟨-, rfl⟩, rfl⟩ := h
  have hd : w.book.dispute ticketId = some d := hd
  have hp : w.book.payment d.paymentId = some p := hp
  obtain ⟨number, stored, event, disputed⟩ := kept.recorded.dispute_payment hd hp
  refine .one ⟨p, number ▸ stored, rfl⟩ ⟨stored, disputed⟩ ?_
  rw [World.emitDisputeResolved, World.book_emit, closeDispute_book,
    World.setEventTokenRevenue_book rfl, World.shiftEventRevenue_book h₂,
    World.updatePayment_book h₁, ← event, ← number]
  rfl

end Zicket.Payments
