import Zicket.Escrow.Solvency
import Zicket.Results.Books
import Zicket.Results.Splits

/-! Isolation of an event's escrow: no more goes out for an event than came in for it, as
long as refunds and cancellation pools stay within what the event holds. -/

namespace Zicket.Payments

open Host Foundation Book

variable {d : Deployment} {e : Symbol} {t : Address}

def Book.PoolHeld (b : Book) (e : Symbol) (t : Address) : Prop :=
  ∀ c ∈ b.config e, c.payoutToken = t → ∀ r ∈ b.pool e, bpsOf (b.volume e t) r ≤ b.held e t

/-- Before the call the event holds in `t` what the call pays out of it, whenever the amount is
not taken from the event's revenue itself; fee and royalty of a resale are within its price. -/
def Covered (e : Symbol) (t : Address) (_ : Env) (w : World) : Call → Prop
  | .refund _ paymentId amount => ∀ p ∈ w.book.payment paymentId, p.eventId = e → p.token = t →
    amount.getD (w.book.maxRefund p) ≤ w.book.held e t
  | .claimRefund _ paymentId => ∀ p ∈ w.book.payment paymentId, p.eventId = e → p.token = t →
    w.book.maxRefund p ≤ w.book.held e t
  | .requestPostponementRefund _ ticketId | .approveRefund ticketId =>
    ∀ p ∈ w.book.payment ticketId, p.eventId = e → p.token = t →
      p.amount - p.refundedAmount ≤ w.book.held e t
  | .withdraw _ e' => e' = e → w.book.PoolHeld e t
  | .withdrawSplit _ e' | .resolveFlaggedShare e' _ _ =>
    e' = e → w.book.settlement e = none → w.book.PoolHeld e t
  | .buyResaleTicket _ ticketId => ∀ ticket ∈ w.book.ticket ticketId,
    ∀ listing ∈ w.getResaleListing ticketId, ∀ c ∈ w.book.config ticket.eventId,
      ticket.eventId = e →
        bpsOf listing.price w.book.feeBps + bpsOf listing.price c.resaleRoyaltyBps ≤ listing.price
  | _ => True

instance (b : Book) (e : Symbol) (t : Address) : Decidable (b.PoolHeld e t) :=
  inferInstanceAs (Decidable (∀ _ ∈ _, _))

instance (e : Symbol) (t : Address) (env : Env) (w : World) (c : Call) :
    Decidable (Covered e t env w c) := by
  apply @Call.casesOn (fun c => Decidable (Covered e t env w c)) c <;> intros <;>
    dsimp only [Covered] <;> infer_instance

section Sweeps

variable {self : Address} {b : Book} {ps : List Posting}

theorem Sweeps.held {e' : Symbol} (sweeps : Sweeps e' ps) (kept : b.Kept)
    (sound : Along (post self) (Sound self) b ps) :
    (run (post self) b ps).held e t = b.held e t := by
  induction ps generalizing b with
  | nil => rfl
  | cons posting ps ih =>
    obtain ⟨p, rfl, -⟩ := sweeps posting (List.mem_cons_self ..)
    have rest := ih (fun posting mem => sweeps posting (List.mem_cons_of_mem _ mem))
      (post_kept kept sound.1) sound.2
    rw [run_cons, rest, post_held kept.recorded sound.1]
    exact add_zero _

theorem covers_of_entry {posting : Posting}
    (other : posting.entry ∉ [.refund, .approve, .payout, .settle, .resale]) :
    b.Covers e t posting := by
  cases posting <;> first | trivial | simp [Posting.entry] at other

theorem Sweeps.covers {e' : Symbol} (sweeps : Sweeps e' ps) (b : Book) :
    Along (post self) (fun b posting => b.Covers e t posting) b ps := by
  refine along_of_mem (fun posting mem b => ?_) b
  obtain ⟨p, rfl, -⟩ := sweeps posting mem
  trivial

theorem Drains.covers {dst : Address} {time : ℕ} (drains : Drains e dst time ps) (b : Book)
    (e' : Symbol) (t : Address) :
    Along (post self) (fun b posting => b.Covers e' t posting) b ps := by
  refine along_of_mem (fun posting mem b => ?_) b
  obtain ⟨t', total, rfl⟩ := drains posting mem
  trivial

/-- A pool that is held before the sweep is held when the payout comes. -/
theorem Sweeps.pool_covered {e' : Symbol} {c : EventConfig} {total left : ℤ}
    (sweeps : Sweeps e' ps) (kept : b.Kept) (sound : Along (post self) (Sound self) b ps)
    (stored : b.config e' = some c) (held : e' = e → b.PoolHeld e t) {r : ℕ}
    (pool : b.pool e' = some r)
    (takes : (run (post self) b ps).Takes e' c.payoutToken (some r) total left)
    (event : e' = e) (token : c.payoutToken = t) : total ≤ (run (post self) b ps).held e t := by
  subst event token
  have counters : (run (post self) b ps).toCounters = b.toCounters := (sweeps.frame b).2.1
  obtain ⟨-, -, amount, -⟩ := takes
  rw [amount, congrArg Counters.volume counters, sweeps.held kept sound]
  exact held rfl c stored rfl r pool

theorem Settles.covers {e' : Symbol} (settles : Settles b e' ps) (kept : b.Kept)
    (sound : Along (post self) (Sound self) b ps)
    (held : e' = e → b.settlement e = none → b.PoolHeld e t) :
    Along (post self) (fun b posting => b.Covers e t posting) b ps := by
  obtain ⟨-, rfl⟩ | ⟨unsettled, sweep, c, total, net, left, sweeps, stored, rfl⟩ := settles
  · trivial
  · rw [along_append] at sound ⊢
    refine ⟨sweeps.covers b, ?_, trivial⟩
    cases pool : b.pool e' with
    | none => trivial
    | some r =>
      have takes := sound.2.1.takes
      rw [pool] at takes
      exact sweeps.pool_covered kept sound.1 stored
        (fun event => held event (event ▸ unsettled)) pool takes

end Sweeps

theorem posts_covers {env : Env} {w : World} {c : Call} {ps : List Posting} (kept : w.book.Kept)
    (meets : Covered e t env w c) (posts : Posts env w ps c)
    (sound : Along (post env.currentContract) (Sound env.currentContract) w.book ps) :
    Along (post env.currentContract) (fun b posting => b.Covers e t posting) w.book ps := by
  cases c with
  | refund admin paymentId amount =>
    obtain ⟨p, payer, status, stored, -, rfl⟩ := posts
    exact ⟨meets p stored, trivial⟩
  | claimRefund payer paymentId =>
    obtain ⟨p, stored, -, rfl⟩ := posts
    exact ⟨meets p stored, trivial⟩
  | requestPostponementRefund caller ticketId =>
    obtain ⟨p, payer, stored, -, rfl⟩ := posts
    exact ⟨meets p stored, trivial⟩
  | approveRefund ticketId =>
    obtain ⟨p, payer, stored, rfl⟩ := posts
    exact ⟨meets p stored, trivial⟩
  | withdraw organizer e' =>
    obtain ⟨sweep, c, total, net, left, sweeps, stored, -, rfl⟩ := posts
    rw [along_append] at sound ⊢
    refine ⟨sweeps.covers _, ?_, trivial, trivial⟩
    cases pool : w.book.pool e' with
    | none => trivial
    | some r =>
      have takes := sound.2.1.takes
      rw [pool] at takes
      exact sweeps.pool_covered kept sound.1 stored meets pool takes
  | withdrawSplit recipient e' =>
    obtain ⟨-, settling, s, share, settles, rfl⟩ := posts
    rw [along_append] at sound ⊢
    exact ⟨settles.covers kept sound.1 meets, trivial, trivial⟩
  | resolveFlaggedShare e' recipient resolution =>
    cases resolution with
    | releaseToRecipient =>
      obtain rfl := posts
      exact ⟨trivial, trivial⟩
    | reassignToPrimary =>
      obtain ⟨-, settling, s, dst, share, -, settles, rfl⟩ := posts
      rw [along_append] at sound ⊢
      exact ⟨settles.covers kept sound.1 meets, trivial, trivial⟩
  | buyResaleTicket buyer ticketId =>
    obtain ⟨ticket, listing, stored, listed, rfl | ⟨t', fee, royalty, seller, rfl⟩⟩ := posts
    · exact ⟨trivial, trivial⟩
    · obtain ⟨c, config, -, share⟩ := sound.1.config
      refine ⟨fun event => ?_, trivial, trivial⟩
      rw [sound.1.fee, share]
      exact meets ticket stored listing listed c config event
  | releaseIfExpired e' =>
    obtain ⟨sweep, drains, escrow, sweeps, -, -, isDrain, rfl⟩ := posts
    rw [along_append, along_append]
    exact ⟨⟨sweeps.covers _, isDrain.covers ..⟩, trivial, trivial⟩
  | withdrawAllTokens organizer e' =>
    obtain ⟨sweep, drains, sweeps, isDrain, rfl⟩ := posts
    rw [along_append]
    exact ⟨sweeps.covers _, isDrain.covers ..⟩
  | withdrawRevenue e' recipient =>
    obtain ⟨sweep, t', total, net, sweeps, -, -, rfl⟩ := posts
    rw [along_append]
    refine ⟨sweeps.covers _, trivial, along_of_mem (fun posting mem b => ?_) _⟩
    exact covers_of_entry (by simp [latchPostings_entries mem])
  | withdrawToken organizer e' t' =>
    obtain ⟨sweep, total, sweeps, rfl⟩ := posts
    rw [along_append]
    exact ⟨sweeps.covers _, trivial, trivial⟩
  | _ =>
    refine along_of_mem (fun posting mem b => covers_of_entry ?_) _
    have kind := posts.entries mem
    simp only [Call.entries] at kind
    generalize posting.entry = entry at kind ⊢
    revert kind
    cases entry <;> decide

/-- What is sent out for an event never exceeds what was received for it, in every run
whose calls are covered by what the event holds. -/
theorem escrow_isolated (d : Deployment) (balances : Balances Address Address) (e : Symbol)
    (t : Address) (steps : List Step)
    (meets : Along (World.next d) (Succeeding d (Covered e t)) (deployed balances) steps) :
    let w := run (World.next d) (deployed balances) steps
    tallyAt Transfer.sent w.transfers e t ≤ tallyAt Transfer.received w.transfers e t := by
  intro w
  have base : Shared d.currentContract (deployed balances).book ∧
      Solvent e t (deployed balances).book := by
    have free : (deployed balances).book.free e t = 0 := rfl
    have held : (deployed balances).book.held e t = 0 := rfl
    exact ⟨reachable_shared d balances [], free.ge, held.trans_le free.ge⟩
  obtain ⟨shared, solvent⟩ : Shared d.currentContract w.book ∧ Solvent e t w.book := by
    refine call_invariant (I := fun b => Shared d.currentContract b ∧ Solvent e t b)
      (Q := fun b posting => b.Covers e t posting) ?_ (fun _ _ => trivial) ?_ meets
      (deployed_kept balances) base
    · intro b posting kept inv sound covers
      exact ⟨inv.1.post sound, post_solvent inv.2 kept inv.1 sound covers⟩
    · rintro env w c ps rfl kept - meets posts sound
      exact posts_covers kept meets posts sound
  exact solvent.sent_le (reachable_kept d balances steps) shared

theorem escrow_isolated_sample :
    let w := run (World.next Sample.deployment) (deployed Sample.noBalances)
      (Sample.opening ++ [Sample.sale 2 1 Sample.bob Sample.concert 100,
        Sample.sale 2 2 Sample.bob Sample.festival 100,
        Sample.call 3 (.refund Sample.admin 1 (some 30)),
        Sample.call 5 (.cancelEvent Sample.concert Sample.organizer),
        Sample.call 6 (.claimRefund Sample.bob 1),
        Sample.call 200 (.withdraw Sample.organizer Sample.concert)])
    tallyAt Transfer.sent w.transfers Sample.concert Sample.token ≤
      tallyAt Transfer.received w.transfers Sample.concert Sample.token :=
  escrow_isolated Sample.deployment Sample.noBalances Sample.concert Sample.token _
    (by decide)

def Sample.drained : List Step :=
  Sample.opening ++ [Sample.sale 2 1 Sample.bob Sample.concert 100,
    Sample.sale 2 2 Sample.bob Sample.festival 100,
    Sample.call 10 (.setEventStatus Sample.admin Sample.concert .completed),
    Sample.call 11 (.withdrawToken Sample.organizer Sample.concert Sample.token),
    Sample.call 12 (.refund Sample.admin 1 none)]

/-- `withdraw_token` does not close the admin refund: the payment is refunded after it was
paid out, from the other event's money. -/
theorem escrow_mixed :
    let w := run (World.next Sample.deployment) (deployed Sample.noBalances) Sample.drained
    Chronological Sample.drained ∧ (∀ step ∈ Sample.drained, step.migrates = false) ∧
      tallyAt Transfer.received w.transfers Sample.concert Sample.token = 100 ∧
      tallyAt Transfer.sent w.transfers Sample.concert Sample.token = 200 := by
  refine ⟨by decide, by decide, by decide, by decide⟩

end Zicket.Payments
