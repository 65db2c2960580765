import Zicket.Escrow.Repayments
import Zicket.Privacy.Sales
import Zicket.Refinement.Calls

/-! What a step does to the payments on record: a purchase stores a new one, every other step
keeps the terms of those it finds. -/

namespace Zicket.Payments

open Host Foundation Book

/-- The payment that a step makes: its number, and what it was asked for. -/
def paidFor (d : Deployment) (w : World) : Step → Option (ℕ × PaymentParams)
  | .call invocation c => c.params.bind fun params =>
    match createPayment ⟨d, invocation⟩ params w with
    | .ok (id, _) => some (id, params)
    | .error _ => none
  | _ => none

structure Book.Carries (b b' : Book) : Prop where
  forth : ∀ k p, b.payment k = some p → ∃ q, b'.payment k = some q ∧ p.Follows q
  back : ∀ k q, b'.payment k = some q → ∃ p, b.payment k = some p ∧ p.Follows q

namespace Book.Carries

variable {b b' b'' : Book}

theorem refl (b : Book) : b.Carries b := ⟨fun _ p hp => ⟨p, hp, .refl p⟩, fun _ p hp => ⟨p, hp, .refl p⟩⟩

theorem trans (h : b.Carries b') (h' : b'.Carries b'') : b.Carries b'' where
  forth k p hp := by
    obtain ⟨q, hq, follows⟩ := h.forth k p hp
    obtain ⟨r, hr, follows'⟩ := h'.forth k q hq
    exact ⟨r, hr, follows.trans follows'⟩
  back k r hr := by
    obtain ⟨q, hq, follows'⟩ := h'.back k r hr
    obtain ⟨p, hp, follows⟩ := h.back k q hq
    exact ⟨p, hp, follows.trans follows'⟩

theorem absent (h : b.Carries b') {k : ℕ} (absent : b.payment k = none) : b'.payment k = none := by
  refine Option.eq_none_iff_forall_ne_some.mpr fun q hq => ?_
  obtain ⟨p, hp, -⟩ := h.back k q hq
  rw [absent] at hp
  cases hp

end Book.Carries

theorem post_carries {b : Book} {self : Address} {posting : Posting} (sound : Sound self b posting)
    (unsold : posting.entry ≠ .sale) : b.Carries (b.post self posting) :=
  ⟨fun _ _ => post_payment sound, fun _ _ => post_payment_old sound unsold⟩

variable {d : Deployment} {w : World}

theorem unsold_of_params {c : Call} (other : c.params = none) : .sale ∉ c.entries := by
  cases c with
  | payForTicket | payForTicketWithCommitment | payForTicketWithOptions => cases other
  | _ => simp [Call.entries]

theorem next_carries (kept : w.book.Kept) {step : Step} (unpaid : paidFor d w step = none) :
    w.book.Carries (w.next d step).book := by
  obtain ⟨ps, wrote, sound, effect⟩ := next_wrote (d := d) kept step
  have unsold : ∀ posting ∈ ps, posting.entry ≠ .sale := by
    cases step with
    | call invocation c =>
      obtain ⟨w', result, posts⟩ | ⟨-, rfl⟩ := wrote
      · cases asked : c.params with
        | none =>
          intro posting mem sale
          exact unsold_of_params asked (sale ▸ posts.entries mem)
        | some params =>
          rw [exec_params asked, bind_eq_ok] at result
          obtain ⟨⟨id, w'⟩, result, -⟩ := result
          simp [paidFor, asked, result] at unpaid
      · intro posting mem
        cases mem
    | mint | pay =>
      obtain rfl := wrote
      intro posting mem
      rw [List.mem_singleton.mp mem]
      simp [Posting.entry]
  have carried : ∀ b posting, w.book.Carries b →
      Sound d.currentContract b posting ∧ posting.entry ≠ .sale →
      w.book.Carries (b.post d.currentContract posting) :=
    fun b posting before meets => before.trans (post_carries meets.1 meets.2)
  rw [← effect]
  exact run_invariant carried (sound.and (along_of_mem (fun posting mem _ => unsold posting mem) _))
    (.refl _)

/-- A payment on record stays on record, under its terms. -/
theorem run_follows (kept : w.book.Kept) (steps : List Step) {k : ℕ} {p : PaymentRecord}
    (stored : w.book.payment k = some p) :
    ∃ q, (run (World.next d) w steps).book.payment k = some q ∧ p.Follows q := by
  have posted : ∀ b posting, b.Kept → (∃ q, b.payment k = some q ∧ p.Follows q) →
      Sound d.currentContract b posting →
      ∃ q, (b.post d.currentContract posting).payment k = some q ∧ p.Follows q := by
    rintro b posting - ⟨q, hq, follows⟩ sound
    obtain ⟨r, hr, follows'⟩ := post_payment sound hq
    exact ⟨r, hr, follows.trans follows'⟩
  have each : ∀ (w : World) step, w.book.Kept ∧ (∃ q, w.book.payment k = some q ∧ p.Follows q) →
      True → (w.next d step).book.Kept ∧
        ∃ q, (w.next d step).book.payment k = some q ∧ p.Follows q :=
    fun w step inv _ => ⟨next_kept w step inv.1, next_posting_invariant posted step inv.1 inv.2⟩
  exact (run_invariant each (along_of_forall (fun _ _ => trivial) w steps)
    ⟨kept, p, stored, .refl p⟩).2

theorem paidFor_eq_some {step : Step} {id : ℕ} {params : PaymentParams}
    (paid : paidFor d w step = some (id, params)) :
    ∃ invocation, createPayment ⟨d, invocation⟩ params w = .ok (id, w.next d step) := by
  cases step with
  | call invocation c =>
    obtain ⟨asked, given, result⟩ := Option.bind_eq_some_iff.mp paid
    split at result
    · rename_i w' made
      cases result
      refine ⟨invocation, ?_⟩
      rw [World.next, exec_params given, made]
      rfl
    · cases result
  | mint | pay => cases paid

theorem createPayment_records {env : Env} {params : PaymentParams} {w' : World} {id : ℕ}
    (h : createPayment env params w = .ok (id, w')) :
    ∃ p, buildPaymentRecord env params id env.timestamp = .ok p ∧ w.book.payment id = none ∧
      w'.book.payment = Function.update w.book.payment id (some p) := by
  obtain ⟨p, ticket, built, sound, effect⟩ := createPayment_book h
  have number : p.paymentId = id := (buildPaymentRecord_builds built).id
  refine ⟨p, built, number ▸ sound.fresh, ?_⟩
  rw [effect, ← number]
  rfl

end Zicket.Payments
