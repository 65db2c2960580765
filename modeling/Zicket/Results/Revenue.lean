import Zicket.Escrow.Revenue
import Zicket.Results.Books

/-! The held revenue of an event, over runs up to its first payout: it is what the
undisputed payments have in escrow, unless a partly refunded payment is disputed. -/

namespace Zicket.Payments

open Host Foundation Book

variable {d : Deployment} {e : Symbol} {t : Address}

def Step.resells : Step → Bool
  | .call _ (.buyResaleTicket _ _) => true
  | _ => false

/-- Revenue of the event in the token was paid out, or settled for its split recipients. -/
def World.PaidOut (w : World) (e : Symbol) (t : Address) : Prop :=
  (∃ tr ∈ w.transfers, tr.eventId = e ∧ tr.token = t ∧ tr.purpose = .revenue) ∨
    ∃ s ∈ w.getSplitSettlement e, s.token = t

instance (w : World) (e : Symbol) (t : Address) : Decidable (w.PaidOut e t) :=
  inferInstanceAs (Decidable (_ ∨ _))

/-- `raise_dispute` is called for a payment of the event only while nothing of the payment
was refunded; ticket and payment have one number. -/
def DisputesWhole (e : Symbol) (t : Address) (_ : Env) (w : World) : Call → Prop
  | .raiseDispute ticketId _ _ => ∀ p ∈ (w.get (.payment ticketId) : Option PaymentRecord),
    p.eventId = e → p.token = t → p.refundedAmount = 0
  | _ => True

instance (e : Symbol) (t : Address) (env : Env) (w : World) (c : Call) :
    Decidable (DisputesWhole e t env w c) := by
  apply @Call.casesOn (fun c => Decidable (DisputesWhole e t env w c)) c <;> intros <;>
    dsimp only [DisputesWhole] <;> infer_instance

theorem Posts.freezes {env : Env} {w : World} {ps : List Posting} {c : Call}
    (posts : Posts env w ps c) {p : PaymentRecord} {dispute : DisputeRecord}
    (mem : .freeze p dispute ∈ ps) :
    ∃ ticketId reasonCode proof, c = .raiseDispute ticketId reasonCode proof ∧
      w.book.payment ticketId = some p := by
  have kind : Entry.freeze ∈ c.entries := posts.entries mem
  cases c with
  | raiseDispute ticketId reasonCode proof =>
    obtain ⟨p', dispute', stored, rfl⟩ := posts
    obtain ⟨rfl, -⟩ : p = p' ∧ dispute = dispute' := by simpa using mem
    exact ⟨ticketId, reasonCode, proof, rfl, stored⟩
  | _ => simp [Call.entries] at kind

theorem Wrote.freezesWhole {w : World} {step : Step} {ps : List Posting} (wrote : Wrote d w ps step)
    (meets : Succeeding d (DisputesWhole e t) w step) {posting : Posting} (mem : posting ∈ ps) :
    ∀ p dispute, posting = .freeze p dispute → p.eventId = e → p.token = t →
      p.refundedAmount = 0 := by
  rintro p dispute rfl event token
  cases step with
  | call invocation c =>
    obtain ⟨w', result, posts⟩ | ⟨-, rfl⟩ := wrote
    · obtain ⟨ticketId, reasonCode, proof, rfl, stored⟩ := posts.freezes mem
      exact meets (succeeds_iff.mpr ⟨w', result⟩) p stored event token
    · cases mem
  | mint | pay =>
    obtain rfl := wrote
    cases List.mem_singleton.mp mem

theorem Wrote.unsold {w : World} {step : Step} {ps : List Posting} (wrote : Wrote d w ps step)
    (unsold : step.resells = false) {posting : Posting} (mem : posting ∈ ps) :
    posting.entry ≠ .resale := by
  cases step with
  | call invocation c =>
    obtain ⟨w', -, posts⟩ | ⟨-, rfl⟩ := wrote
    · have kind := posts.entries mem
      intro same
      rw [same] at kind
      cases c <;> simp [Call.entries, Step.resells] at kind unsold
    · cases mem
  | mint | pay =>
    obtain rfl := wrote
    rw [List.mem_singleton.mp mem]
    simp [Posting.entry]

theorem run_exact {w : World} {steps : List Step} (kept : w.book.Kept)
    (base : Exact e t w.book) (unsold : ∀ step ∈ steps, step.resells = false)
    (meets : Along (World.next d) (Succeeding d (DisputesWhole e t)) w steps) :
    (run (World.next d) w steps).book.PaidOut e t ∨
      Exact e t (run (World.next d) w steps).book := by
  refine book_invariant (I := fun b => b.PaidOut e t ∨ Exact e t b)
    (P := fun w step => step.resells = false ∧ Succeeding d (DisputesWhole e t) w step)
    (Q := fun _ posting => posting.entry ≠ .resale ∧ ∀ p dispute, posting = .freeze p dispute →
      p.eventId = e → p.token = t → p.refundedAmount = 0)
    ?_ ?_ ((along_of_mem (fun step mem _ => unsold step mem) w).and meets) kept (.inr base)
  · rintro b posting kept (paid | exact_) sound ⟨unsold, whole⟩
    · exact .inl (post_paidOut sound paid)
    · exact post_exact kept.recorded exact_ sound whole unsold
  · rintro w step ps - - ⟨unsold, meets⟩ wrote -
    exact along_of_mem
      (fun posting mem _ => ⟨wrote.unsold unsold mem, wrote.freezesWhole meets mem⟩) _

/-- Up to the first payout, and while only unrefunded payments are disputed, the revenue
is what the undisputed payments have in escrow. -/
theorem revenue_exact (d : Deployment) (balances : Balances Address Address) (e : Symbol)
    (t : Address) (steps : List Step) (unsold : ∀ step ∈ steps, step.resells = false)
    (meets : Along (World.next d) (Succeeding d (DisputesWhole e t)) (deployed balances) steps)
    (unpaid : ¬ (run (World.next d) (deployed balances) steps).PaidOut e t) :
    let w := run (World.next d) (deployed balances) steps
    w.getEventTokenRevenue e t =
        w.sumPayments (inToken (fun p => if p.status = .disputed then 0
          else p.amount - p.refundedAmount) e t) ∧
      0 ≤ w.getEventTokenRevenue e t := by
  intro w
  have kept : w.book.Kept := reachable_kept d balances steps
  have base : Exact e t (deployed balances).book :=
    ⟨rfl, fun k p stored => by cases stored⟩
  have reached : Exact e t w.book :=
    (run_exact (deployed_kept balances) base unsold meets).resolve_left unpaid
  have revenue : w.getEventTokenRevenue e t = w.book.total (inToken (·.unfrozen) e t) :=
    reached.revenue
  refine ⟨revenue.trans (World.sumPayments_eq kept _).symm, revenue ▸ tableSum_nonneg ?_⟩
  intro k p stored
  have escrowed : 0 ≤ p.unfrozen := by
    have := (kept.recorded.inRange k p stored).le
    unfold PaymentRecord.unfrozen PaymentRecord.unrefunded
    split <;> omega
  exact inToken_nonneg escrowed e t

theorem revenue_exact_sample :
    let w := run (World.next Sample.deployment) (deployed Sample.noBalances)
      (Sample.opening ++ [Sample.sale 2 1 Sample.bob Sample.concert 100,
        Sample.sale 2 2 Sample.bob Sample.concert 50,
        Sample.call 3 (.refund Sample.admin 1 (some 30)),
        Sample.call 10 (.raiseDispute 2 0 none)])
    w.getEventTokenRevenue Sample.concert Sample.token =
        w.sumPayments (inToken (fun p => if p.status = .disputed then 0
          else p.amount - p.refundedAmount) Sample.concert Sample.token) ∧
      0 ≤ w.getEventTokenRevenue Sample.concert Sample.token :=
  revenue_exact Sample.deployment Sample.noBalances Sample.concert Sample.token _ (by decide)
    (by decide) (by decide)

def Sample.disputed : List Step :=
  Sample.opening ++ [Sample.sale 2 1 Sample.bob Sample.concert 100,
    Sample.call 3 (.refund Sample.admin 1 (some 30)),
    Sample.call 10 (.raiseDispute 1 0 none)]

/-- The dispute takes the full amount out of the revenue, which becomes negative. -/
theorem revenue_undershoots :
    let w := run (World.next Sample.deployment) (deployed Sample.noBalances) Sample.disputed
    Chronological Sample.disputed ∧ (∀ step ∈ Sample.disputed, step.resells = false) ∧
      (∀ step ∈ Sample.disputed, step.migrates = false) ∧
      ¬ w.PaidOut Sample.concert Sample.token ∧
      w.getEventTokenRevenue Sample.concert Sample.token = -30 ∧
      w.sumPayments (inToken (fun p => if p.status = .disputed then 0
        else p.amount - p.refundedAmount) Sample.concert Sample.token) = 0 := by
  refine ⟨by decide, by decide, by decide, by decide, by decide, ?_⟩
  rw [World.sumPayments_eq (reachable_kept _ _ _)]
  decide

end Zicket.Payments
