import Zicket.Escrow.RefundPool
import Zicket.Results.Isolation
import Zicket.Results.Revenue

/-! The refund pool of a cancelled event over whole runs: the revenue covers what the held payments
can still claim, as long as nothing was paid out before the cancellation and payouts after it keep
to the organizer's part. -/

namespace Zicket.Payments

open Host Foundation Book

variable {d : Deployment} {e : Symbol} {t : Address}

namespace World

def paymentsIn (w : World) (e : Symbol) (t : Address) : List PaymentRecord :=
  tableFilter ((w.get .nextPaymentId).getD 0) (fun id => w.get (.payment id))
    fun p => p.eventId = e ∧ p.token = t

/-- What of the event's payments goes back to their payers: what the stored ratio leaves. -/
def refundShare (w : World) (e : Symbol) (p : PaymentRecord) : ℤ :=
  bpsOf p.amount (10000 - ((w.getEventConfig e).bind (·.withdrawableRatioBps)).getD 0)

/-- Every Standard payment that is not final was refunded its share. -/
def Claimed (w : World) (e : Symbol) (t : Address) : Prop :=
  ∀ p ∈ w.paymentsIn e t, p.privacyLevel = .standard → p.status ≠ .refunded →
    w.refundShare e p ≤ p.refundedAmount

/-- Nothing was paid out yet, the gross volume is the sum of the payments and none of them was
refunded beyond its share. -/
def PoolIntact (w : World) (e : Symbol) (t : Address) : Prop :=
  ¬ w.PaidOut e t ∧
    w.getTotalTokenVolume e t = ((w.paymentsIn e t).map (·.amount)).sum ∧
    ∀ p ∈ w.paymentsIn e t, p.refundedAmount ≤ w.refundShare e p

def PoolReady (w : World) (e : Symbol) (t : Address) : Prop :=
  ∀ config ∈ w.getEventConfig e, config.payoutToken = t →
    config.withdrawableRatioBps = some 10000 ∨ w.PoolIntact e t

instance (w : World) (e : Symbol) (t : Address) : Decidable (w.Claimed e t) :=
  inferInstanceAs (Decidable (∀ _ ∈ _, _))

instance (w : World) (e : Symbol) (t : Address) : Decidable (w.PoolIntact e t) :=
  inferInstanceAs (Decidable (_ ∧ _ ∧ _))

instance (w : World) (e : Symbol) (t : Address) : Decidable (w.PoolReady e t) :=
  inferInstanceAs (Decidable (∀ _ ∈ _, _))

end World

/-- A call on a cancelled event leaves the refund pool alone: disputes come before any payout and
for payments of which nothing was refunded, a second cancellation does not lower the ratio, the
organizer's pool is taken while it is intact, and everything only when all shares were claimed. -/
def SparesPool (e : Symbol) (t : Address) (env : Env) (w : World) : Call → Prop
  | .raiseDispute ticketId _ _ => ∀ p ∈ (w.get (.payment ticketId) : Option PaymentRecord),
    p.eventId = e → p.token = t → p.refundedAmount = 0 ∧ ¬ w.PaidOut e t
  | .cancelEvent e' _ => e' = e → ∀ config ∈ w.getEventConfig e, ¬ w.PaidOut e t ∨
      config.withdrawableRatioBps.getD 0 ≤ cancellationRatio config env.sequence
  | .withdraw _ e' => e' = e → w.PoolReady e t
  | .withdrawSplit _ e' | .resolveFlaggedShare e' _ _ =>
    e' = e → w.getSplitSettlement e = none → w.PoolReady e t
  | .withdrawRevenue e' _ => e' = e → w.getAcceptedToken = .ok t → w.Claimed e t
  | .releaseIfExpired e' => e' = e → w.Claimed e t
  | _ => True

instance (e : Symbol) (t : Address) (env : Env) (w : World) (c : Call) :
    Decidable (SparesPool e t env w c) := by
  apply @Call.casesOn (fun c => Decidable (SparesPool e t env w c)) c <;> intros <;>
    dsimp only [SparesPool] <;> infer_instance

def StaysCancelled (d : Deployment) (e : Symbol) (w : World) (step : Step) : Prop :=
  (w.next d step).getEventStatus e = some .cancelled

instance (d : Deployment) (e : Symbol) (w : World) (step : Step) :
    Decidable (StaysCancelled d e w step) :=
  inferInstanceAs (Decidable (_ = _))

section Payments

variable {w : World}

theorem World.mem_paymentsIn (kept : w.book.Kept) {k : ℕ} {p : PaymentRecord}
    (stored : w.book.payment k = some p) (event : p.eventId = e) (token : p.token = t) :
    p ∈ w.paymentsIn e t := by
  obtain ⟨-, pos, le⟩ := kept.recorded.numbered k p stored
  exact mem_tableFilter stored pos le (by simp [event, token])

theorem World.sum_paymentsIn (w : World) (f : PaymentRecord → ℤ) :
    ((w.paymentsIn e t).map f).sum = w.book.total (inToken f e t) := by
  refine (sum_tableFilter ..).trans (tableSum_congr fun k p _ => ?_)
  unfold inToken
  simp only [decide_eq_true_eq, @eq_comm _ e, @eq_comm _ t]

theorem World.Claimed.book (kept : w.book.Kept) (claimed : w.Claimed e t) :
    w.book.Claimed e t :=
  fun _ p stored event token => claimed p (w.mem_paymentsIn kept stored event token)

theorem World.PoolIntact.book (kept : w.book.Kept) (intact : w.PoolIntact e t) :
    w.book.PoolIntact e t where
  unpaid := intact.1
  volume := intact.2.1.trans (w.sum_paymentsIn _)
  within _ p stored event token := intact.2.2 p (w.mem_paymentsIn kept stored event token)

end Payments

section Postings

variable {self : Address} {b : Book} {ps : List Posting}

theorem Sweeps.takesOrganizerPart {e' : Symbol} (sweeps : Sweeps e' ps) (kept : b.Kept)
    (sound : Along (post self) (Sound self) b ps) {pool : Option ℕ}
    (h : b.TakesOrganizerPart e t pool) :
    (run (post self) b ps).TakesOrganizerPart e t pool := by
  have step : ∀ b posting, b.Kept ∧ b.TakesOrganizerPart e t pool →
      Sound self b posting ∧ (∃ p, posting = .unfreeze p ∧ p.eventId = e') →
      (b.post self posting).Kept ∧ (b.post self posting).TakesOrganizerPart e t pool := by
    rintro b _ ⟨kept, h⟩ ⟨sound, p, rfl, -⟩
    exact ⟨post_kept kept sound, post_takesOrganizerPart kept.recorded sound h⟩
  exact (run_invariant step (sound.and (along_of_mem (fun posting mem _ => sweeps posting mem) b))
    ⟨kept, h⟩).2

theorem Sweeps.keepsPool {e' : Symbol} (sweeps : Sweeps e' ps) (b : Book) :
    Along (post self) (fun b posting => b.KeepsPool e t posting) b ps := by
  refine along_of_mem (fun posting mem b => ?_) b
  obtain ⟨p, rfl, -⟩ := sweeps posting mem
  trivial

theorem Drains.keepsPool {e' : Symbol} {dst : Address} {time : ℕ} (drains : Drains e' dst time ps)
    (claimed : e' = e → b.Claimed e t) :
    Along (post self) (fun b posting => b.KeepsPool e t posting) b ps := by
  induction ps generalizing b with
  | nil => trivial
  | cons posting ps ih =>
    obtain ⟨t', total, rfl⟩ := drains posting (List.mem_cons_self ..)
    refine ⟨fun event _ => claimed event, ?_⟩
    exact ih (fun posting mem => drains posting (List.mem_cons_of_mem _ mem)) claimed

theorem keepsPool_of_entry {posting : Posting}
    (other : posting.entry ∉ [.refund, .freeze, .cancel, .payout, .settle]) :
    b.KeepsPool e t posting := by
  cases posting <;> first | trivial | simp [Posting.entry] at other

theorem World.PoolReady.book {w : World} (kept : w.book.Kept) {e' : Symbol} {c : EventConfig}
    (ready : e' = e → w.PoolReady e t) (stored : w.book.config e' = some c)
    (cancelled : w.book.status e = some .cancelled) {r : ℕ}
    (ratio : (w.book.config e).bind (·.withdrawableRatioBps) = some r)
    (event : e' = e) (token : c.payoutToken = t) :
    w.book.TakesOrganizerPart e t (w.book.pool e') := by
  subst event
  have pool : w.book.pool e' = some r := by
    unfold Book.pool
    rw [if_pos cancelled, ratio]
  rw [pool]
  refine (ready rfl c stored token).imp (fun full => ?_) (World.PoolIntact.book kept)
  rw [stored, Option.bind_some, full] at ratio
  exact (Option.some.inj ratio).symm

theorem Settles.keepsPool {e' : Symbol} (settles : Settles b e' ps) (kept : b.Kept)
    (sound : Along (post self) (Sound self) b ps)
    (ready : b.settlement e' = none → ∀ c, b.config e' = some c → e' = e → c.payoutToken = t →
      b.TakesOrganizerPart e t (b.pool e')) :
    Along (post self) (fun b posting => b.KeepsPool e t posting) b ps := by
  obtain ⟨-, rfl⟩ | ⟨unsettled, sweep, c, total, net, left, sweeps, stored, rfl⟩ := settles
  · trivial
  · rw [along_append] at sound ⊢
    refine ⟨sweeps.keepsPool b, fun event token => ?_, trivial⟩
    exact sweeps.takesOrganizerPart kept sound.1 (ready unsettled c stored event token)

end Postings

section Calls

variable {env : Env} {w w' : World}

theorem completed_of_withdrawToken {organizer : Address}
    (h : (Call.withdrawToken organizer e t).exec env w = .ok w') :
    w.getEventStatus e = some .completed := by
  simp only [Call.exec, withdrawToken, bind_eq_ok, require_eq_ok] at h
  obtain ⟨-, -, -, -, -, -, -, completed, -⟩ := h
  exact completed

theorem completed_of_withdrawAllTokens {organizer : Address}
    (h : (Call.withdrawAllTokens organizer e).exec env w = .ok w') :
    w.getEventStatus e = some .completed := by
  simp only [Call.exec, withdrawAllTokens, bind_eq_ok, require_eq_ok] at h
  obtain ⟨-, -, -, -, -, -, -, completed, -⟩ := h
  exact completed

/-- A call that spares the pool of the cancelled event writes postings that keep it. -/
theorem posts_keepsPool {c : Call} {ps : List Posting} {r : ℕ} (kept : w.book.Kept)
    (cancelled : w.getEventStatus e = some .cancelled)
    (ratio : (w.book.config e).bind (·.withdrawableRatioBps) = some r)
    (meets : SparesPool e t env w c) (result : c.exec env w = .ok w') (posts : Posts env w ps c)
    (sound : Along (post env.currentContract) (Sound env.currentContract) w.book ps) :
    Along (post env.currentContract) (fun b posting => b.KeepsPool e t posting) w.book ps := by
  cases c with
  | refund admin paymentId amount =>
    obtain ⟨p, payer, status, -, -, rfl⟩ := posts
    exact ⟨fun event => event ▸ cancelled, trivial⟩
  | claimRefund payer paymentId =>
    obtain ⟨p, -, -, rfl⟩ := posts
    exact ⟨fun event => event ▸ cancelled, trivial⟩
  | requestPostponementRefund caller ticketId =>
    obtain ⟨p, payer, -, -, rfl⟩ := posts
    exact ⟨fun event => event ▸ cancelled, trivial⟩
  | raiseDispute ticketId reasonCode proof =>
    obtain ⟨p, dispute, stored, rfl⟩ := posts
    exact ⟨meets p stored, trivial⟩
  | cancelEvent e' organizer =>
    obtain ⟨config, stored, rfl⟩ := posts
    refine ⟨fun event => ?_, trivial⟩
    subst event
    have stored' : w.book.config e' = some config := stored
    rw [stored']
    exact meets rfl config stored
  | withdraw organizer e' =>
    obtain ⟨sweep, config, total, net, left, sweeps, stored, -, rfl⟩ := posts
    rw [along_append] at sound ⊢
    refine ⟨sweeps.keepsPool _, fun event token => ?_, trivial, trivial⟩
    exact sweeps.takesOrganizerPart kept sound.1
      (World.PoolReady.book kept meets stored cancelled ratio event token)
  | withdrawSplit recipient e' =>
    obtain ⟨-, settling, s, share, settles, rfl⟩ := posts
    rw [along_append] at sound ⊢
    refine ⟨settles.keepsPool kept sound.1 fun unsettled config stored event token => ?_, trivial,
      trivial⟩
    exact World.PoolReady.book kept (fun event => meets event (event ▸ unsettled)) stored cancelled
      ratio event token
  | resolveFlaggedShare e' recipient resolution =>
    cases resolution with
    | releaseToRecipient =>
      obtain rfl := posts
      exact ⟨trivial, trivial⟩
    | reassignToPrimary =>
      obtain ⟨-, settling, s, dst, share, -, settles, rfl⟩ := posts
      rw [along_append] at sound ⊢
      refine ⟨settles.keepsPool kept sound.1 fun unsettled config stored event token => ?_,
        trivial, trivial⟩
      exact World.PoolReady.book kept (fun event => meets event (event ▸ unsettled)) stored
        cancelled ratio event token
  | withdrawRevenue e' recipient =>
    obtain ⟨sweep, t', total, net, sweeps, accepted, -, rfl⟩ := posts
    rw [along_append] at sound ⊢
    refine ⟨sweeps.keepsPool _, fun event token => ?_, along_of_mem (fun posting mem b => ?_) _⟩
    · subst token
      have claimed : w.book.TakesOrganizerPart e t' none :=
        (meets event (okOr_eq_ok.mpr accepted)).book kept
      exact sweeps.takesOrganizerPart kept sound.1 claimed
    · exact keepsPool_of_entry (by simp [latchPostings_entries mem])
  | releaseIfExpired e' =>
    obtain ⟨sweep, drains, escrow, sweeps, -, -, isDrain, rfl⟩ := posts
    rw [along_append, along_append] at sound ⊢
    refine ⟨⟨sweeps.keepsPool _, isDrain.keepsPool fun event => ?_⟩, trivial, trivial⟩
    have claimed : w.book.TakesOrganizerPart e t none := (meets event).book kept
    exact sweeps.takesOrganizerPart kept sound.1.1 claimed
  | withdrawToken organizer e' t' =>
    obtain ⟨sweep, total, sweeps, rfl⟩ := posts
    rw [along_append]
    refine ⟨sweeps.keepsPool _, fun event _ => ?_, trivial⟩
    have completed := completed_of_withdrawToken result
    rw [event, cancelled] at completed
    cases completed
  | withdrawAllTokens organizer e' =>
    obtain ⟨sweep, drains, sweeps, isDrain, rfl⟩ := posts
    rw [along_append]
    refine ⟨sweeps.keepsPool _, isDrain.keepsPool fun event => ?_⟩
    have completed := completed_of_withdrawAllTokens result
    rw [event, cancelled] at completed
    cases completed
  | _ =>
    refine along_of_mem (fun posting mem b => keepsPool_of_entry ?_) _
    have kind := posts.entries mem
    simp only [Call.entries] at kind
    generalize posting.entry = entry at kind ⊢
    revert kind
    cases entry <;> decide

end Calls

section Runs

variable {w : World}

/-- While only unrefunded payments are disputed, the revenue backs the payments until a payout. -/
theorem run_backed {steps : List Step} (kept : w.book.Kept) (base : Backed e t w.book)
    (meets : Along (World.next d) (Succeeding d (DisputesWhole e t)) w steps) :
    ¬ (run (World.next d) w steps).book.PaidOut e t →
      Backed e t (run (World.next d) w steps).book := by
  refine book_invariant (I := fun b => ¬ b.PaidOut e t → Backed e t b)
    (Q := fun _ posting => ∀ p dispute, posting = .freeze p dispute → p.eventId = e →
      p.token = t → p.refundedAmount = 0)
    ?_ (fun w step ps _ _ meets wrote _ => along_of_mem
      (fun posting mem _ => wrote.freezesWhole meets mem) _) meets kept fun _ => base
  intro b posting kept backed sound whole unpaid
  have before : ¬ b.PaidOut e t := fun paid => unpaid (post_paidOut sound paid)
  exact post_backed kept.recorded (backed before) sound whole unpaid

/-- A cancellation before any payout: the backed revenue covers the claims. -/
theorem next_cancelled {invocation : Invocation} {organizer : Address} (kept : w.book.Kept)
    (backed : Backed e t w.book) (unpaid : ¬ w.PaidOut e t)
    (success : (Call.cancelEvent e organizer).succeeds ⟨d, invocation⟩ w = true) :
    let w' := w.next d (.call invocation (.cancelEvent e organizer))
    w'.getEventStatus e = some .cancelled ∧ Pooled e t w'.book ∧
      ∃ r, (w'.book.config e).bind (·.withdrawableRatioBps) = some r := by
  intro w'
  obtain ⟨ps, ⟨config, stored, rfl⟩, ⟨sound, -⟩, effect⟩ := succeeds_written kept success
  have pooled : Pooled e t w.book := ⟨fun _ => backed, backed.claims_le kept.recorded⟩
  have keeps := post_pooled kept pooled sound fun _ => .inl unpaid
  have status := congrArg (fun b : Book => b.status e) effect
  have configured := congrArg (fun b : Book => b.config e) effect
  refine ⟨status.symm.trans (Function.update_self ..), effect ▸ keeps,
    cancellationRatio config invocation.sequence, ?_⟩
  rw [← configured]
  simp [post]

/-- While the event stays cancelled, calls that spare the pool leave the claims covered. -/
theorem run_pooled {steps : List Step} (kept : w.book.Kept)
    (cancelled : w.getEventStatus e = some .cancelled) (pooled : Pooled e t w.book)
    (ratio : ∃ r, (w.book.config e).bind (·.withdrawableRatioBps) = some r)
    (stays : Along (World.next d) (StaysCancelled d e) w steps)
    (meets : Along (World.next d) (Succeeding d (SparesPool e t)) w steps) :
    let w' := run (World.next d) w steps
    Pooled e t w'.book ∧ ∃ r, (w'.book.config e).bind (·.withdrawableRatioBps) = some r := by
  have still : Along (World.next d) (fun w _ => w.getEventStatus e = some .cancelled) w steps :=
    (stays.strengthen (I := fun w => w.getEventStatus e = some .cancelled)
      (fun _ _ _ stays => stays) cancelled).mono fun _ _ both => both.1
  refine book_invariant (I := fun b => Pooled e t b ∧
      ∃ r, (b.config e).bind (·.withdrawableRatioBps) = some r)
    (Q := fun b posting => b.KeepsPool e t posting) ?_ ?_ (still.and meets) kept ⟨pooled, ratio⟩
  · rintro b posting kept ⟨pooled, r, ratio⟩ sound keeps
    exact ⟨post_pooled kept pooled sound keeps, post_hasRatio sound ratio⟩
  · rintro w step ps kept ⟨-, r, ratio⟩ ⟨cancelled, meets⟩ wrote sound
    cases step with
    | call invocation c =>
      obtain ⟨w', result, posts⟩ | ⟨-, rfl⟩ := wrote
      · have spares := meets (succeeds_iff.mpr ⟨w', result⟩)
        have along := posts_keepsPool kept cancelled ratio spares result posts sound
        exact along
      · trivial
    | mint | pay =>
      obtain rfl := wrote
      exact ⟨trivial, trivial⟩

end Runs

/-- In every run in which an event is cancelled before any payout, and in every later state in
which it has stayed cancelled: the revenue covers what the held Standard payments can still claim
at the ratio in force, if the calls after the cancellation spare the pool and disputes before it
are for payments of which nothing was refunded. -/
theorem refund_pool_covered (d : Deployment) (balances : Balances Address Address)
    (before after : List Step) (invocation : Invocation) (organizer : Address) (e : Symbol)
    (t : Address)
    (whole : Along (World.next d) (Succeeding d (DisputesWhole e t)) (deployed balances) before) :
    let w := run (World.next d) (deployed balances) before
    let cancelled := w.next d (.call invocation (.cancelEvent e organizer))
    let w' := run (World.next d) cancelled after
    (Call.cancelEvent e organizer).succeeds ⟨d, invocation⟩ w = true → ¬ w.PaidOut e t →
    Along (World.next d) (StaysCancelled d e) cancelled after →
    Along (World.next d) (Succeeding d (SparesPool e t)) cancelled after →
    ∃ config r, w'.getEventConfig e = some config ∧ config.withdrawableRatioBps = some r ∧
      w'.sumPayments (inToken (fun p =>
          if p.status = .held ∧ p.privacyLevel = .standard then
            max 0 (bpsOf p.amount (10000 - r) - p.refundedAmount)
          else 0) e t) ≤ w'.getEventTokenRevenue e t := by
  intro w cancelled w' success unpaid stays meets
  have base : Backed e t (deployed balances).book :=
    ⟨le_rfl, fun k p stored => by cases stored⟩
  have kept : w.book.Kept := reachable_kept d balances before
  have backed : Backed e t w.book := run_backed (deployed_kept balances) base whole unpaid
  obtain ⟨status, pooled, ratio⟩ := next_cancelled kept backed unpaid success
  have kept₁ : cancelled.book.Kept := next_kept w _ kept
  obtain ⟨pooled, r, ratio⟩ := run_pooled kept₁ status pooled ratio stays meets
  obtain ⟨config, stored, inForce⟩ := Option.bind_eq_some_iff.mp ratio
  refine ⟨config, r, stored, inForce, ?_⟩
  rw [World.sumPayments_eq (run_next_kept kept₁ after)]
  have share : w'.book.refundRatio e = 10000 - r := by
    unfold refundRatio
    rw [ratio, Option.getD_some]
  have claims := pooled.claims
  unfold Book.claims at claims
  rw [share] at claims
  exact claims

namespace Sample

def twoSales : List Step := opening ++ [sale 2 1 bob concert 100, sale 2 2 bob concert 100]

def claimsAndPool : List Step :=
  [call 6 (.claimRefund bob 1), call 200 (.withdraw organizer concert),
    call 201 (.claimRefund bob 2)]

def emptied : List Step :=
  twoSales ++ [call 5 (.cancelEvent concert organizer),
    call 6 (.withdrawRevenue concert organizer)]

def overdrawnPool : List Step :=
  twoSales ++ [call 3 (.refund admin 1 none), call 5 (.cancelEvent concert organizer),
    call 200 (.withdraw organizer concert)]

end Sample

theorem refund_pool_covered_sample :
    let w := run (World.next Sample.deployment) ((run (World.next Sample.deployment)
      (deployed Sample.noBalances)
      (Sample.twoSales ++ [Sample.call 3 (.refund Sample.admin 1 (some 30))])).next
        Sample.deployment (Sample.call 5 (.cancelEvent Sample.concert Sample.organizer)))
      Sample.claimsAndPool
    ∃ config r, w.getEventConfig Sample.concert = some config ∧
      config.withdrawableRatioBps = some r ∧
      w.sumPayments (inToken (fun p =>
          if p.status = .held ∧ p.privacyLevel = .standard then
            max 0 (bpsOf p.amount (10000 - r) - p.refundedAmount)
          else 0) Sample.concert Sample.token) ≤
        w.getEventTokenRevenue Sample.concert Sample.token :=
  refund_pool_covered Sample.deployment Sample.noBalances
    (Sample.twoSales ++ [Sample.call 3 (.refund Sample.admin 1 (some 30))]) Sample.claimsAndPool
    (Sample.invocation 5) Sample.organizer Sample.concert Sample.token (by decide) (by decide)
    (by decide) (by decide) (by decide)

/-- The event is cancelled at half of its amounts and its held payments can claim more than its
revenue. -/
def Sample.Eaten (steps : List Step) (claims revenue : ℤ) : Prop :=
  let w := run (World.next deployment) (deployed noBalances) steps
  w.getEventStatus concert = some .cancelled ∧
    (w.getEventConfig concert).bind (·.withdrawableRatioBps) = some 5000 ∧
    w.sumPayments (inToken (fun p =>
      if p.status = .held ∧ p.privacyLevel = .standard then
        max 0 (bpsOf p.amount (10000 - 5000) - p.refundedAmount)
      else 0) concert token) = claims ∧
    w.getEventTokenRevenue concert token = revenue ∧ revenue < claims

/-- `withdraw_revenue` takes the refund pool with the rest, and `withdraw` takes the organizer's
ratio also of what was refunded before. -/
theorem refund_pool_eaten :
    Chronological Sample.emptied ∧ Sample.Eaten Sample.emptied 100 0 ∧
      Chronological Sample.overdrawnPool ∧ Sample.Eaten Sample.overdrawnPool 50 0 := by
  refine ⟨by decide, ?_, by decide, ?_⟩
  · refine ⟨by decide, by decide, ?_, by decide, by decide⟩
    rw [World.sumPayments_eq (reachable_kept _ _ _)]
    decide
  · refine ⟨by decide, by decide, ?_, by decide, by decide⟩
    rw [World.sumPayments_eq (reachable_kept _ _ _)]
    decide

end Zicket.Payments
