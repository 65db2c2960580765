import Zicket.Escrow.Repayments
import Zicket.Escrow.Totals
import Zicket.Refinement.Calls

/-! The contract's bookkeeping over whole runs: its counters are the sums they stand for,
its balance is what the counters say, and refunds stay within their payment. -/

namespace Zicket.Payments

open Host Foundation Book

variable {d : Deployment}

def Step.migrates : Step → Bool
  | .call _ (.migrateEvent _ _) => true
  | _ => false

noncomputable def World.sumPayments (w : World) (f : PaymentRecord → ℤ) : ℤ :=
  ∑ᶠ id, (w.get (.payment id)).elim 0 f

theorem World.sumPayments_eq {w : World} (kept : w.book.Kept) (f : PaymentRecord → ℤ) :
    w.sumPayments f = w.book.total f :=
  kept.recorded.finsum_eq_total f

/-- Only `migrate_event` rewrites counters, and no call moves balances unlogged. -/
theorem Wrote.entry {w : World} {step : Step} {ps : List Posting} (wrote : Wrote d w ps step)
    (unmigrated : step.migrates = false) {posting : Posting} (mem : posting ∈ ps) :
    posting.entry ≠ .recount := by
  cases step with
  | call invocation c =>
    obtain ⟨w', -, posts⟩ | ⟨-, rfl⟩ := wrote
    · have kind := posts.entries mem
      intro same
      rw [same] at kind
      cases c <;> simp [Call.entries, Step.migrates] at kind unmigrated
    · cases mem
  | mint | pay =>
    obtain rfl := wrote
    rw [List.mem_singleton.mp mem]
    simp [Posting.entry]

/-- Invariants kept by every sound posting but `recount` hold along runs without
`migrate_event`. -/
theorem unmigrated_invariant {I : Book → Prop}
    (keeps : ∀ b posting, b.Kept → I b → Sound d.currentContract b posting →
      (∀ counters, posting ≠ .recount counters) → I (b.post d.currentContract posting))
    {w : World} {steps : List Step} (unmigrated : ∀ step ∈ steps, step.migrates = false)
    (kept : w.book.Kept) (base : I w.book) : I (run (World.next d) w steps).book := by
  refine book_invariant (P := fun _ step => step.migrates = false)
    (Q := fun _ posting => posting.entry ≠ .recount) ?_ ?_
    (along_of_mem (fun step mem _ => unmigrated step mem) w) kept base
  · intro b posting kept inv sound counted
    refine keeps b posting kept inv sound ?_
    rintro counters rfl
    exact counted rfl
  · intro w step ps _ _ meets wrote _
    exact along_of_mem (fun posting mem _ => wrote.entry meets mem) w.book

section Totals

theorem deployed_summed (balances : Balances Address Address) : Summed (deployed balances).book where
  volume _ _ := rfl
  refunds _ _ := rfl
  totalPayments _ := rfl
  totalRefunds _ := rfl

theorem deployed_logged (balances : Balances Address Address) : Logged (deployed balances).book :=
  ⟨rfl, rfl, rfl⟩

theorem deployed_drawn (balances : Balances Address Address) : Drawn (deployed balances).book :=
  ⟨fun _ => rfl, fun _ => rfl⟩

/-- The counters of an event equal the sums over the records and log entries they summarise. -/
theorem running_totals (d : Deployment) (balances : Balances Address Address) (steps : List Step)
    (unmigrated : ∀ step ∈ steps, step.migrates = false) (e : Symbol) :
    let w := run (World.next d) (deployed balances) steps
    (∀ t, w.getTotalTokenVolume e t = w.sumPayments (inToken (·.amount) e t) ∧
        w.getTotalTokenRefunds e t = w.sumPayments (inToken (·.refundedAmount) e t)) ∧
      w.getTotalPayments e = w.sumPayments (ofEvent (·.amount) e) ∧
      w.getTotalRefunds e = w.sumPayments (ofEvent (·.refundedAmount) e) ∧
      w.getTotalWithdrawn e = ((w.getWithdrawalHistory e).map (·.amount)).sum ∧
      ∑ᶠ t, w.getTotalTokenWithdrawn e t = w.getTotalWithdrawn e +
        tally (fun tr => if tr.eventId = e then tr.swept else 0) w.transfers := by
  intro w
  have kept : w.book.Kept := reachable_kept d balances steps
  have summed : Summed w.book := unmigrated_invariant (I := Summed)
    (fun b posting kept inv sound counted => inv.post kept.recorded sound counted)
    unmigrated (deployed_kept balances) (deployed_summed balances)
  have logged : Logged w.book := unmigrated_invariant (I := Logged)
    (fun b posting _ inv _ counted => post_logged inv counted)
    unmigrated (deployed_kept balances) (deployed_logged balances)
  have drawn : Drawn w.book := unmigrated_invariant (I := Drawn)
    (fun b posting _ inv _ counted => post_drawn inv counted)
    unmigrated (deployed_kept balances) (deployed_drawn balances)
  simp only [World.sumPayments_eq kept]
  refine ⟨fun t => ⟨summed.volume e t, summed.refunds e t⟩, summed.totalPayments e,
    summed.totalRefunds e, drawn.history e, ?_⟩
  have withdrawn : ∀ t, w.getTotalTokenWithdrawn e t =
      tallyAt Transfer.withdrawn w.transfers e t := congrFun (congrFun logged.withdrawn e)
  have total : w.getTotalWithdrawn e =
      tally (fun tr => if tr.eventId = e then tr.drawn else 0) w.transfers := drawn.log e
  simp only [withdrawn, finsum_tallyAt_tokens, total, ← tally_add]
  apply tally_congr
  intro tr _
  split
  · exact tr.withdrawn_eq
  · rfl

theorem running_totals_sample :
    (run (World.next Sample.deployment) (deployed Sample.noBalances)
        (Sample.opening ++ [Sample.sale 2 1 Sample.bob Sample.concert 100])).getTotalPayments
          Sample.concert =
      (run (World.next Sample.deployment) (deployed Sample.noBalances)
        (Sample.opening ++ [Sample.sale 2 1 Sample.bob Sample.concert 100])).sumPayments
          (ofEvent (·.amount) Sample.concert) :=
  (running_totals Sample.deployment Sample.noBalances _ (by decide) Sample.concert).2.1

end Totals

section Wallet

def Step.gives (contract : Address) : Step → Bool
  | .mint _ dst _ | .pay _ _ dst _ => dst = contract
  | .call _ _ => false

/-- The balance of the contract is what its log brought in. -/
structure Booked (contract : Address) (b : Book) : Prop where
  balance : ∀ t, b.balances t contract =
    tally (fun tr => if tr.token = t then tr.gain contract else 0) b.transfers
  oriented : ∀ tr ∈ b.transfers, tr.Oriented contract

theorem post_booked {self : Address} {b : Book} {posting : Posting} (h : Booked self b)
    (steady : ∀ balances, posting = .outside balances → ∀ t, balances t self = b.balances t self) :
    Booked self (b.post self posting) where
  balance t := by
    by_cases outside : ∃ balances, posting = .outside balances
    · obtain ⟨balances, rfl⟩ := outside
      exact (steady balances rfl t).trans (h.balance t)
    · rw [post_balance (not_exists.mp outside), post_transfers, tally_append, h.balance, add_comm]
  oriented tr mem := by
    rw [post_transfers, List.mem_append] at mem
    exact mem.elim added_oriented (h.oriented tr)

theorem next_balance {w : World} {step : Step} (kept : step.gives d.currentContract = false)
    (outside : ∀ invocation c, step ≠ .call invocation c) (t : Address) :
    (w.next d step).balances t d.currentContract = w.balances t d.currentContract := by
  cases step with
  | call invocation c => exact absurd rfl (outside invocation c)
  | mint token dst amount =>
    have other : d.currentContract ≠ dst := by simpa [Step.gives, eq_comm] using kept
    rw [World.next]
    split
    · simp [other]
    · rfl
  | pay token src dst amount =>
    have other : d.currentContract ≠ dst := by simpa [Step.gives, eq_comm] using kept
    rw [World.next, World.payOutside]
    split
    · rfl
    · rename_i foreign
      cases moved : w.balances.transfer token src dst amount with
      | none => rfl
      | some balances =>
        obtain ⟨-, rfl⟩ := Balances.transfer_eq_some.mp moved
        simp [other, Ne.symm foreign]

theorem Wrote.steady {w : World} {step : Step} {ps : List Posting} (wrote : Wrote d w ps step)
    (kept : step.gives d.currentContract = false) {b : Book} (same : b = w.book) :
    Along (post d.currentContract)
      (fun b posting => ∀ balances, posting = .outside balances →
        ∀ t, balances t d.currentContract = b.balances t d.currentContract) b ps := by
  subst same
  cases step with
  | call invocation c =>
    obtain ⟨w', -, posts⟩ | ⟨-, rfl⟩ := wrote
    · refine along_of_mem ?_ _
      rintro posting mem b balances rfl
      have kind := posts.entries mem
      cases c <;> simp [Call.entries, Posting.entry] at kind
    · trivial
  | mint | pay =>
    obtain rfl := wrote
    refine along_singleton.mpr ?_
    rintro balances same t
    cases same
    exact next_balance kept (by simp) t

/-- The contract's balance of a token is what its counters say it holds for the events,
and what it kept of resale prices. -/
theorem books_match_wallet (d : Deployment) (balances : Balances Address Address)
    (steps : List Step) (unmigrated : ∀ step ∈ steps, step.migrates = false)
    (ungifted : ∀ step ∈ steps, step.gives d.currentContract = false)
    (unfunded : ∀ t, balances t d.currentContract = 0)
    (foreign : ∀ tr ∈ (run (World.next d) (deployed balances) steps).transfers, tr.src ≠ tr.dst)
    (t : Address) :
    let w := run (World.next d) (deployed balances) steps
    w.balances t d.currentContract =
      ∑ᶠ e, (w.getTotalTokenVolume e t - w.getTotalTokenRefunds e t -
        w.getTotalTokenWithdrawn e t) +
      tally (fun tr => if tr.token = t then tr.resaleKept else 0) w.transfers := by
  intro w
  have logged : Logged w.book := unmigrated_invariant (I := Logged)
    (fun b posting _ inv _ counted => post_logged inv counted)
    unmigrated (deployed_kept balances) (deployed_logged balances)
  have booked : Booked d.currentContract w.book := book_invariant
    (I := Booked d.currentContract) (P := fun _ step => step.gives d.currentContract = false)
    (Q := fun b posting => ∀ balances, posting = .outside balances →
      ∀ t, balances t d.currentContract = b.balances t d.currentContract)
    (fun b posting _ inv _ steady => post_booked inv steady)
    (fun w step ps _ _ kept wrote _ => wrote.steady kept rfl)
    (along_of_mem (fun step mem _ => ungifted step mem) _) (deployed_kept balances)
    ⟨unfunded, by simp [deployed, World.book]⟩
  have held : ∀ e, w.getTotalTokenVolume e t - w.getTotalTokenRefunds e t -
      w.getTotalTokenWithdrawn e t =
        tallyAt (fun tr => tr.paid - tr.refunded - tr.withdrawn) w.transfers e t := by
    intro e
    rw [tallyAt_sub, tallyAt_sub]
    exact congrArg₂ (· - ·) (congrArg₂ (· - ·) (congrFun (congrFun logged.volume e) t)
      (congrFun (congrFun logged.refunds e) t)) (congrFun (congrFun logged.withdrawn e) t)
  simp only [held, finsum_tallyAt_events, ← tally_add]
  refine (booked.balance t).trans (tally_congr fun tr mem => ?_)
  split
  · exact (booked.oriented tr mem).gain_eq (foreign tr mem)
  · rfl

def Sample.refunded : List Step :=
  Sample.opening ++ [Sample.sale 2 1 Sample.bob Sample.concert 100,
    Sample.call 3 (.refund Sample.admin 1 (some 30)),
    Sample.call 4 (.withdrawRevenue Sample.concert Sample.organizer)]

theorem books_match_wallet_sample :
    let w := run (World.next Sample.deployment) (deployed Sample.noBalances) Sample.refunded
    w.balances Sample.token Sample.deployment.currentContract =
      ∑ᶠ e, (w.getTotalTokenVolume e Sample.token - w.getTotalTokenRefunds e Sample.token -
        w.getTotalTokenWithdrawn e Sample.token) +
      tally (fun tr => if tr.token = Sample.token then tr.resaleKept else 0) w.transfers :=
  books_match_wallet Sample.deployment Sample.noBalances Sample.refunded (by decide) (by decide)
    (fun _ => rfl) (by decide) Sample.token

end Wallet

section RefundCap

theorem run_refunded {w : World} (kept : w.book.Kept) {k : ℕ} {p : PaymentRecord}
    (stored : w.book.payment k = some p) (final : p.status = .refunded) (steps : List Step) :
    (∃ q, (run (World.next d) w steps).book.payment k = some q ∧ q.status = .refunded) ∧
      (run (World.next d) w steps).transfers.filter (·.concerns k) =
        w.transfers.filter (·.concerns k) := by
  have step : ∀ (w' : World) step,
      w'.book.Kept ∧ (∃ q, w'.book.payment k = some q ∧ q.status = .refunded) ∧
        w'.book.transfers.filter (·.concerns k) = w.transfers.filter (·.concerns k) → True →
      (w'.next d step).book.Kept ∧
        (∃ q, (w'.next d step).book.payment k = some q ∧ q.status = .refunded) ∧
        (w'.next d step).book.transfers.filter (·.concerns k) =
          w.transfers.filter (·.concerns k) := by
    intro w' step ⟨kept, inv⟩ _
    refine ⟨next_kept w' step kept, next_posting_invariant (I := fun b =>
      (∃ q, b.payment k = some q ∧ q.status = .refunded) ∧
        b.transfers.filter (·.concerns k) = w.transfers.filter (·.concerns k)) ?_ step kept inv⟩
    rintro b posting - ⟨⟨q, stored, final⟩, same⟩ sound
    obtain ⟨q', stored', follows⟩ := post_payment sound stored
    exact ⟨⟨q', stored', (follows.final final).1⟩, (post_concerns sound stored final).trans same⟩
  exact (run_invariant step (along_of_forall (fun _ _ => trivial) w steps)
    ⟨kept, ⟨p, stored, final⟩, rfl⟩).2

/-- What a payment's payer got back is its `refunded_amount`, which stays within the
amount; ratios stay within 10000; and `Refunded` is the end of a payment. -/
theorem refund_cap (d : Deployment) (balances : Balances Address Address) (steps : List Step) :
    let w := run (World.next d) (deployed balances) steps
    (∀ id p, w.getPayment id = .ok p →
        0 ≤ p.refundedAmount ∧ p.refundedAmount ≤ p.amount ∧
        tally (Transfer.refundOf id) w.transfers = p.refundedAmount ∧
        ∀ tr ∈ w.transfers, tr.purpose = .refund id →
          p.payer = some tr.dst ∧ tr.src = d.currentContract ∧ tr.token = p.token) ∧
      (∀ e c r, w.getEventConfig e = some c → c.withdrawableRatioBps = some r → r ≤ 10000) ∧
      ∀ id p, w.getPayment id = .ok p → p.status = .refunded → ∀ after,
        (∃ q, (run (World.next d) w after).getPayment id = .ok q ∧ q.status = .refunded) ∧
          (run (World.next d) w after).transfers.filter (·.concerns id) =
            w.transfers.filter (·.concerns id) := by
  intro w
  have kept : w.book.Kept := reachable_kept d balances steps
  have repaid : Repaid d.currentContract w.book := (run_invariant
    (I := fun w : World => w.book.Kept ∧ Repaid d.currentContract w.book)
    (P := fun _ _ => True)
    (fun w step inv _ => ⟨next_kept w step inv.1, next_posting_invariant
      (fun _ _ _ inv sound => post_repaid inv sound) step inv.1 inv.2⟩)
    (along_of_forall (fun _ _ => trivial) _ steps)
    ⟨deployed_kept balances, fun _ => rfl, by simp [deployed, World.book]⟩).2
  refine ⟨fun id p hp => ?_, kept.configured.ratio, fun id p hp final after => ?_⟩
  · have stored : w.book.payment id = some p := okOr_eq_ok.mp hp
    obtain ⟨-, nonneg, le, -, -⟩ := kept.recorded.inRange id p stored
    refine ⟨nonneg, le, ?_, fun tr mem purpose => ?_⟩
    · refine (repaid.amount id).trans ?_
      rw [Records.repaid, stored, Option.elim_some]
    · obtain ⟨p', stored', payer, src, token, -⟩ := repaid.payer tr mem id purpose
      rw [stored] at stored'
      cases stored'
      exact ⟨payer, src, token⟩
  · obtain ⟨⟨q, stored, refunded⟩, same⟩ := run_refunded kept (okOr_eq_ok.mp hp) final after
    exact ⟨⟨q, okOr_eq_ok.mpr stored, refunded⟩, same⟩

end RefundCap

end Zicket.Payments
