import Zicket.Privacy.Records
import Zicket.Refinement.Transfers
import Zicket.Results.Books
import Zicket.Results.Latches

/-! Payout and refund of one payment. The admin refund looks at a latch that some payouts set,
some operations clear and the other refunds do not look at; while the latch is heeded, a payment
that is held when its event is paid out is not refunded any more. -/

namespace Zicket.Payments

open Host Foundation Book

variable {d : Deployment} {e : Symbol} {t : Address} {k : ℕ}

/-- A cancelled event is paid out whole when its ratio is the full one, other events always. -/
def World.FullRatio (w : World) (e : Symbol) : Prop :=
  w.getEventStatus e = some .cancelled →
    (w.getEventConfig e).bind (·.withdrawableRatioBps) = some 10000

/-- The step pays out all revenue of the event in `t`, or settles it for the split recipients. -/
def PaysAll (d : Deployment) (e : Symbol) (t : Address) (w : World) (step : Step) : Prop :=
  let paid := ∃ tr ∈ w.sent d step, tr.eventId = e ∧ tr.token = t ∧ tr.purpose = .revenue
  let settled := w.getSplitSettlement e = none ∧
    ∃ s ∈ (w.next d step).getSplitSettlement e, s.token = t
  match step with
  | .call _ (.withdrawRevenue ..) | .call _ (.withdrawToken ..) | .call _ (.withdrawAllTokens ..)
  | .call _ (.releaseIfExpired ..) => paid
  | .call _ (.withdraw ..) => w.FullRatio e ∧ paid
  | .call _ (.withdrawSplit _ e') | .call _ (.resolveFlaggedShare e' _ _) =>
    e' = e ∧ w.FullRatio e ∧ settled
  | _ => False

def Unrefunding (d : Deployment) (k : ℕ) (w : World) (step : Step) : Prop :=
  ∀ tr ∈ w.sent d step, tr.purpose ≠ .refund k

/-- No payment that is held when the step pays out all revenue is refunded afterwards. -/
def PaidOnce (d : Deployment) (e : Symbol) (t : Address) (w : World) (step : Step)
    (after : List Step) : Prop :=
  PaysAll d e t w step → ∀ k p, (w.next d step).getPayment k = .ok p → p.eventId = e →
    p.token = t → p.status = .held → Along (World.next d) (Unrefunding d k) (w.next d step) after

/-- What a payout of the event has to leave in its configuration for the latch to be set. -/
def World.WithdrawnFully (w : World) (e : Symbol) : Prop :=
  ∃ config ∈ w.getEventConfig e,
    config.organizerWithdrawn = true ∧ config.withdrawableRatioBps.getD 10000 = 10000

def World.Latching (w : World) (e : Symbol) : Prop :=
  refundLatched w e = true ∨
    ∃ config ∈ w.getEventConfig e, config.withdrawableRatioBps.getD 10000 = 10000

def World.allRefunded (w : World) (e : Symbol) (t : Address) : Bool :=
  (List.range ((w.get .nextPaymentId).getD 0 + 1)).all fun id =>
    match w.get (.payment id) with
    | none => true
    | some p => p.eventId ≠ e || p.token ≠ t || p.status = .refunded

/-- The latch is heeded: payouts leave it set unless nothing is left to refund, the refunds that do
not look at it find it clear, and nothing clears it. -/
def HeedsLatch (e : Symbol) (t : Address) (env : Env) (w : World) : Call → Prop
  | .withdraw _ e' => e' = e → w.FullRatio e → w.Latching e ∨ w.allRefunded e t = true
  | .withdrawRevenue e' _ => e' = e → w.Latching e ∨ w.allRefunded e t = true
  | .withdrawToken _ e' t' => e' = e → t' = t →
    refundLatched w e = true ∨ w.allRefunded e t = true
  | .withdrawAllTokens _ e' => e' = e → refundLatched w e = true ∨ w.allRefunded e t = true
  | .withdrawSplit _ e' | .resolveFlaggedShare e' _ .reassignToPrimary =>
    e' = e → w.FullRatio e → w.getSplitSettlement e = none →
      refundLatched w e = true ∨ w.allRefunded e t = true
  | .claimRefund _ id | .requestPostponementRefund _ id | .raiseDispute id _ _ =>
    ∀ p ∈ (w.get (.payment id) : Option PaymentRecord), p.eventId = e → p.token = t →
      refundLatched w e = false
  | .setEventEndTime _ e' _ _ => e' = e → w.AutoReleased e → w.WithdrawnFully e
  | .cancelEvent e' _ => e' = e → w.WithdrawnFully e → w.AutoReleased e ∨
    ∃ config ∈ w.getEventConfig e, cancellationRatio config env.sequence = 10000
  | _ => True

instance (w : World) (e : Symbol) : Decidable (w.FullRatio e) :=
  inferInstanceAs (Decidable (_ → _))

instance (w : World) (e : Symbol) : Decidable (w.WithdrawnFully e) :=
  inferInstanceAs (Decidable (∃ _ ∈ _, _))

instance (w : World) (e : Symbol) : Decidable (w.Latching e) :=
  inferInstanceAs (Decidable (_ ∨ ∃ _ ∈ _, _))

instance (e : Symbol) (t : Address) (env : Env) (w : World) (c : Call) :
    Decidable (HeedsLatch e t env w c) := by
  apply @Call.casesOn (fun c => Decidable (HeedsLatch e t env w c)) c <;> intros
  case resolveFlaggedShare _ _ resolution =>
    apply @FlagResolution.casesOn (fun resolution => Decidable
      (HeedsLatch e t env w (.resolveFlaggedShare _ _ resolution))) resolution <;>
      dsimp only [HeedsLatch] <;> infer_instance
  all_goals
    dsimp only [HeedsLatch]
    infer_instance

section Latch

variable {b : Book} {self : Address} {posting : Posting}

def Book.WithdrawnFully (b : Book) (e : Symbol) : Prop :=
  ∃ c, b.config e = some c ∧ c.organizerWithdrawn = true ∧
    c.withdrawableRatioBps.getD 10000 = 10000

theorem Book.latched_iff : b.latched e = true ↔ b.WithdrawnFully e ∨ b.Released e := by
  unfold latched WithdrawnFully Released
  cases config : b.config e <;> cases escrow : b.escrow e <;> simp

def Book.KeepsLatch (b : Book) (e : Symbol) : Posting → Prop
  | .cancel e' c => e' = e → c.withdrawableRatioBps = some 10000 ∨ b.Released e
  | .setEscrow e' escrow => e' = e → escrow.autoReleased = true ∨ b.WithdrawnFully e
  | _ => True

def Posting.LeavesHeld (k : ℕ) : Posting → Prop
  | .refund p _ _ _ | .freeze p _ | .approve p _ => p.paymentId ≠ k
  | _ => True

theorem keepsLatch_of_entry (other : posting.entry ∉ [.cancel, .setEscrow]) :
    b.KeepsLatch e posting := by
  cases posting <;> first | trivial | simp [Posting.entry] at other

theorem leavesHeld_of_entry (other : posting.entry ∉ [.refund, .freeze, .approve]) :
    posting.LeavesHeld k := by
  cases posting <;> first | trivial | simp [Posting.entry] at other

theorem post_latched (sound : Sound self b posting) (keeps : b.KeepsLatch e posting)
    (h : b.latched e = true) : (b.post self posting).latched e = true := by
  rw [latched_iff] at h ⊢
  by_cases reset : ∃ escrow, posting = .setEscrow e escrow ∧ escrow.autoReleased = false
  · obtain ⟨escrow, rfl, unreleased⟩ := reset
    obtain released | withdrawn := keeps rfl
    · rw [released] at unreleased
      cases unreleased
    · exact .inl withdrawn
  · have stays (released : b.Released e) : (b.post self posting).Released e := by
      refine post_released (fun escrow same => ?_) released
      by_contra unreleased
      exact reset ⟨escrow, same, by simpa using unreleased⟩
    obtain ⟨c, stored, withdrawn, ratio⟩ | released := h
    · obtain ⟨c', stored', latch, same⟩ := post_config sound stored
      by_cases cancels : ∃ new, posting = .cancel e new
      · obtain ⟨new, rfl⟩ := cancels
        obtain full | released := keeps rfl
        · refine .inl ⟨new, Function.update_self .., ?_, by simp [full]⟩
          have found : (b.post self (.cancel e new)).config e = some new := Function.update_self ..
          rw [found] at stored'
          cases stored'
          exact latch withdrawn
        · exact .inr (stays released)
      · push Not at cancels
        exact .inl ⟨c', stored', latch withdrawn, by rw [same cancels, ratio]⟩
    · exact .inr (stays released)

structure Locked (e : Symbol) (t : Address) (k : ℕ) (b : Book) : Prop where
  latched : b.latched e = true
  held : ∃ p, b.payment k = some p ∧ p.eventId = e ∧ p.token = t ∧ p.status = .held

theorem Locked.post (locked : Locked e t k b) (sound : Sound self b posting)
    (keeps : b.KeepsLatch e posting) (leaves : posting.LeavesHeld k) :
    Locked e t k (b.post self posting) where
  latched := post_latched sound keeps locked.latched
  held := by
    obtain ⟨p, stored, event, token, held⟩ := locked.held
    have kept (other : (b.post self posting).payment k = b.payment k) :
        ∃ q, (b.post self posting).payment k = some q ∧ q.eventId = e ∧ q.token = t ∧
          q.status = .held := ⟨p, other.trans stored, event, token, held⟩
    cases posting with
    | refund p' payer x status => exact kept (Function.update_of_ne (Ne.symm leaves) ..)
    | freeze p' dispute => exact kept (Function.update_of_ne (Ne.symm leaves) ..)
    | approve p' payer => exact kept (Function.update_of_ne (Ne.symm leaves) ..)
    | sale p' ticket payer =>
      refine kept (Function.update_of_ne ?_ ..)
      rintro rfl
      rw [sound.fresh] at stored
      cases stored
    | unfreeze p' =>
      refine kept (Function.update_of_ne ?_ ..)
      rintro rfl
      have same := sound.stored
      rw [stored] at same
      cases same
      rw [sound.disputed] at held
      cases held
    | bindReceipt p' commitment =>
      by_cases same : k = p'.paymentId
      · subst same
        have found : b.payment p'.paymentId = some p' := sound
        rw [stored] at found
        cases found
        exact ⟨{ p with zkEmailCommitment := some commitment }, Function.update_self .., event,
          token, held⟩
      · exact kept (Function.update_of_ne same ..)
    | resale ticket t' price fee royalty buyer seller =>
      have records :=
        (recordResale_frame self b ticket t' price (price - fee - royalty) buyer seller).1
      exact kept (congrArg (Records.payment · k) records)
    | _ => exact kept rfl

theorem Posting.LeavesHeld.unrefunding (leaves : posting.LeavesHeld k) {tr : Transfer}
    (mem : tr ∈ b.added self posting) : tr.purpose ≠ .refund k := by
  rintro purpose
  cases posting with
  | refund p payer x status =>
    obtain rfl := List.mem_singleton.mp mem
    cases purpose
    exact leaves rfl
  | approve p payer =>
    obtain rfl := List.mem_singleton.mp mem
    cases purpose
    exact leaves rfl
  | resale ticket t price fee royalty buyer seller =>
    obtain ⟨kind, -⟩ | ⟨kind, -⟩ := mem_resaleTransfers mem <;> simp [kind] at purpose
  | sale | payout | share | sweep =>
    obtain rfl := List.mem_singleton.mp mem
    cases purpose
  | _ => cases mem

end Latch

section Steps

variable {env : Env} {w w' : World} {c : Call} {ps : List Posting} {step : Step}

def Heeds (e : Symbol) (k : ℕ) (b : Book) (posting : Posting) : Prop :=
  b.KeepsLatch e posting ∧ posting.LeavesHeld k

theorem heeds_of_entry {b : Book} {posting : Posting}
    (other : posting.entry ∉ [.cancel, .setEscrow, .refund, .freeze, .approve]) :
    Heeds e k b posting := by
  simp only [List.mem_cons, not_or] at other
  exact ⟨keepsLatch_of_entry (by simp [other]), leavesHeld_of_entry (by simp [other])⟩

theorem along_heeds_of_entries (posts : Posts env w ps c)
    (other : ∀ entry ∈ c.entries, entry ∉ [.cancel, .setEscrow, .refund, .freeze, .approve]) :
    Along (post env.currentContract) (Heeds e k) w.book ps :=
  along_of_mem (fun _ mem _ => heeds_of_entry (other _ (posts.entries mem))) _

/-- The payment that a call rewrites is the locked one only if the latch was not heeded. -/
theorem Locked.other (locked : Locked e t k w.book) (kept : w.book.Kept) {id : ℕ}
    {p : PaymentRecord} (stored : w.book.payment id = some p)
    (clear : p.eventId = e → p.token = t → refundLatched w e = false) : p.paymentId ≠ k := by
  rintro rfl
  obtain ⟨q, found, event, token, -⟩ := locked.held
  rw [(kept.recorded.numbered id p stored).1, stored] at found
  cases found
  have unlatched := clear event token
  rw [refundLatched_eq, locked.latched] at unlatched
  cases unlatched

theorem posts_heeds (kept : w.book.Kept) (locked : Locked e t k w.book)
    (heeds : HeedsLatch e t env w c) (posts : Posts env w ps c)
    (sound : Along (post env.currentContract) (Sound env.currentContract) w.book ps) :
    Along (post env.currentContract) (Heeds e k) w.book ps := by
  have latched := latched_iff.mp locked.latched
  cases c with
  | refund admin paymentId amount =>
    obtain ⟨p, payer, status, stored, clear, rfl⟩ := posts
    refine along_singleton.mpr ⟨trivial, locked.other kept stored fun event _ => ?_⟩
    rw [← event, refundLatched_eq, clear]
  | claimRefund payer paymentId =>
    obtain ⟨p, stored, -, rfl⟩ := posts
    exact along_singleton.mpr ⟨trivial, locked.other kept stored (heeds p stored)⟩
  | requestPostponementRefund caller ticketId =>
    obtain ⟨p, payer, stored, -, rfl⟩ := posts
    exact along_singleton.mpr ⟨trivial, locked.other kept stored (heeds p stored)⟩
  | raiseDispute ticketId reasonCode proof =>
    obtain ⟨p, dispute, stored, rfl⟩ := posts
    exact along_singleton.mpr ⟨trivial, locked.other kept stored (heeds p stored)⟩
  | approveRefund ticketId =>
    obtain ⟨p, payer, stored, rfl⟩ := posts
    obtain ⟨⟨-, disputed⟩, -⟩ := sound.1
    obtain ⟨q, found, -, -, held⟩ := locked.held
    refine along_singleton.mpr ⟨trivial, ?_⟩
    rintro rfl
    rw [(kept.recorded.numbered ticketId p stored).1, stored] at found
    cases found
    rw [disputed] at held
    cases held
  | cancelEvent e' organizer =>
    obtain ⟨config, stored, rfl⟩ := posts
    refine along_singleton.mpr ⟨fun same => ?_, trivial⟩
    subst same
    obtain withdrawn | released := latched
    · obtain released | ⟨config', stored', full⟩ := heeds rfl withdrawn
      · exact .inr released
      · have same : some config = some config' := stored.symm.trans stored'
        cases same
        exact .inl (by rw [full])
    · exact .inr released
  | setEventEndTime admin e' organizer endTime =>
    obtain rfl := posts
    refine along_singleton.mpr ⟨fun same => .inr ?_, trivial⟩
    subst same
    obtain withdrawn | released := latched
    · exact withdrawn
    · exact heeds rfl released
  | releaseIfExpired e' =>
    obtain ⟨sweep, drains, escrow, sweeps, -, -, isDrain, rfl⟩ := posts
    refine along_of_mem (fun posting mem _ => ?_) _
    rw [List.mem_append, List.mem_append, List.mem_singleton] at mem
    obtain (mem | mem) | rfl := mem
    · exact heeds_of_entry (by simp [sweeps.entries mem])
    · exact heeds_of_entry (by simp [isDrain.entries mem])
    · exact ⟨fun _ => .inl rfl, trivial⟩
  | _ => exact along_heeds_of_entries posts (by simp [Call.entries])

theorem wrote_heeds (kept : w.book.Kept) (locked : Locked e t k w.book)
    (meets : Succeeding d (HeedsLatch e t) w step) (wrote : Wrote d w ps step)
    (sound : Along (post d.currentContract) (Sound d.currentContract) w.book ps) :
    Along (post d.currentContract) (Heeds e k) w.book ps := by
  cases step with
  | call invocation c =>
    obtain ⟨w', result, posts⟩ | ⟨-, rfl⟩ := wrote
    · have heeds : HeedsLatch e t ⟨d, invocation⟩ w c := meets (succeeds_iff.mpr ⟨w', result⟩)
      have along := posts_heeds kept locked heeds posts sound
      exact along
    · trivial
  | mint | pay =>
    obtain rfl := wrote
    exact along_singleton.mpr ⟨trivial, trivial⟩

/-- Under a heeded latch a held payment stays held, and is not refunded. -/
theorem next_locked (kept : w.book.Kept) (locked : Locked e t k w.book)
    (meets : Succeeding d (HeedsLatch e t) w step) :
    Locked e t k (w.next d step).book ∧ Unrefunding d k w step := by
  obtain ⟨ps, wrote, sound, effect, entries⟩ := next_sent kept step
  have heeds := wrote_heeds kept locked meets wrote sound
  constructor
  · have each : ∀ b posting, Locked e t k b →
        Sound d.currentContract b posting ∧ Heeds e k b posting →
        Locked e t k (b.post d.currentContract posting) :=
      fun b posting locked meets => locked.post meets.1 meets.2.1 meets.2.2
    rw [← effect]
    exact run_invariant each (sound.and heeds) locked
  · intro tr mem
    obtain ⟨posting, written, b, entry⟩ := entries tr mem
    obtain ⟨b', -, leaves⟩ := heeds.exists_of_mem written
    exact leaves.unrefunding entry

theorem run_unrefunding (kept : w.book.Kept) (locked : Locked e t k w.book) {steps : List Step}
    (meets : Along (World.next d) (Succeeding d (HeedsLatch e t)) w steps) :
    Along (World.next d) (Unrefunding d k) w steps := by
  have each : ∀ (w : World) step, w.book.Kept ∧ Locked e t k w.book →
      Succeeding d (HeedsLatch e t) w step →
      (w.next d step).book.Kept ∧ Locked e t k (w.next d step).book :=
    fun w step inv meets => ⟨next_kept w step inv.1, (next_locked inv.1 inv.2 meets).1⟩
  exact (meets.strengthen each ⟨kept, locked⟩).mono
    fun w step inv => (next_locked inv.1.1 inv.1.2 inv.2).2

end Steps

section Payouts

variable {env : Env} {w w' : World} {c : Call} {invocation : Invocation}

theorem World.refunded_of_all (kept : w.book.Kept) (all : w.allRefunded e t = true)
    {p : PaymentRecord} (stored : w.book.payment k = some p) (event : p.eventId = e)
    (token : p.token = t) : p.status = .refunded := by
  have range := (kept.recorded.numbered k p stored).2.2
  have mem : k ∈ List.range ((w.get .nextPaymentId).getD 0 + 1) :=
    List.mem_range.mpr (Nat.lt_succ_of_le range)
  have entry := List.all_eq_true.mp all k mem
  have found : w.get (.payment k) = some p := stored
  simpa [found, event, token] using entry

theorem not_allRefunded (kept : w.book.Kept) (asked : c.params = none) {p : PaymentRecord}
    (stored : (w.next d (.call invocation c)).book.payment k = some p) (event : p.eventId = e)
    (token : p.token = t) (held : p.status = .held) : w.allRefunded e t ≠ true := by
  intro all
  have unpaid : paidFor d w (.call invocation c) = none := by simp [paidFor, asked]
  obtain ⟨q, before, follows⟩ := (next_carries kept unpaid).back k p stored
  have final := w.refunded_of_all kept all before (follows.eventId ▸ event) (follows.token ▸ token)
  rw [(follows.final final).1] at held
  cases held

theorem next_latched (kept : w.book.Kept) (latched : w.book.latched e = true)
    (success : c.succeeds ⟨d, invocation⟩ w = true)
    (other : ∀ entry ∈ c.entries, entry ∉ [.cancel, .setEscrow]) :
    (w.next d (.call invocation c)).book.latched e = true := by
  obtain ⟨ps, posts, sound, effect⟩ := succeeds_written kept success
  have each : ∀ b posting, b.latched e = true →
      Sound d.currentContract b posting ∧ b.KeepsLatch e posting →
      (b.post d.currentContract posting).latched e = true :=
    fun b posting latched meets => post_latched meets.1 meets.2 latched
  have keeps : ∀ posting ∈ ps, ∀ b : Book, b.KeepsLatch e posting :=
    fun posting mem _ => keepsLatch_of_entry (other _ (posts.entries mem))
  rw [← effect]
  exact run_invariant each (sound.and (along_of_mem keeps w.book)) latched

/-- `withdraw` and `withdraw_revenue` set the latch of a configured event that was not cancelled
at a lower ratio. -/
theorem next_withdrawnFully (kept : w.book.Kept) {config : EventConfig}
    (stored : w.book.config e = some config) (full : config.withdrawableRatioBps.getD 10000 = 10000)
    (settles : SettlesEvent d e w (.call invocation c)) :
    (w.next d (.call invocation c)).book.WithdrawnFully e := by
  have configured : (w.book.config e).isSome := by rw [stored]; rfl
  obtain ⟨-, c', stored', withdrawn⟩ := settlesEvent_sets kept configured settles
  have success : c.succeeds ⟨d, invocation⟩ w = true ∧ .cancel ∉ c.entries := by
    unfold SettlesEvent at settles
    split at settles
    · rename_i same
      cases same
      exact ⟨settles.2, by simp [Call.entries]⟩
    · rename_i same
      cases same
      exact ⟨settles.2, by simp [Call.entries]⟩
    · cases settles
  obtain ⟨ps, posts, sound, effect⟩ := succeeds_written kept success.1
  have each : ∀ (b : Book) posting, (∃ c, b.config e = some c ∧
        c.withdrawableRatioBps = config.withdrawableRatioBps) →
      Sound d.currentContract b posting ∧ posting.entry ≠ .cancel →
      ∃ c, (b.post d.currentContract posting).config e = some c ∧
        c.withdrawableRatioBps = config.withdrawableRatioBps := by
    rintro b posting ⟨c, stored, ratio⟩ ⟨sound, other⟩
    obtain ⟨c', stored', -, same⟩ := post_config sound stored
    refine ⟨c', stored', (same fun new cancels => ?_).trans ratio⟩
    exact other (by rw [cancels]; rfl)
  have uncancelled : ∀ posting ∈ ps, ∀ (_ : Book), posting.entry ≠ .cancel :=
    fun posting mem _ kind => success.2 (kind ▸ posts.entries mem)
  obtain ⟨c'', found, ratio⟩ := run_invariant each
    (sound.and (along_of_mem uncancelled w.book)) ⟨config, stored, rfl⟩
  have found : (w.next d (.call invocation c)).book.config e = some c'' := by
    rw [← effect]
    exact found
  rw [stored'] at found
  cases found
  exact ⟨c', stored', withdrawn, by rw [ratio, full]⟩

theorem paid_paysTo (kept : w.book.Kept)
    (paid : ∃ tr ∈ w.sent d (.call invocation c), tr.eventId = e ∧ tr.token = t ∧
      tr.purpose = .revenue) :
    c.succeeds ⟨d, invocation⟩ w = true ∧ ∃ dst, c.PaysTo w e dst := by
  obtain ⟨tr, mem, event, -, purpose⟩ := paid
  obtain ⟨_, c, w', ⟨⟩, result, pays⟩ :=
    sent_paysTo (e := e) kept mem (by simp [Transfer.paysOut, event, purpose])
  exact ⟨succeeds_iff.mpr ⟨w', result⟩, tr.dst, pays⟩

theorem withdrawToken_token {organizer t' : Address} (kept : w.book.Kept) {tr : Transfer}
    (mem : tr ∈ w.sent d (.call invocation (.withdrawToken organizer e t'))) : tr.token = t' := by
  obtain ⟨ps, wrote, -, -, entries⟩ := next_sent kept _
  obtain ⟨posting, written, b, entry⟩ := entries tr mem
  obtain ⟨w', -, sweep, total, sweeps, rfl⟩ | ⟨-, rfl⟩ := wrote
  · obtain swept | last := List.mem_append.mp written
    · obtain ⟨p, rfl, -⟩ := sweeps posting swept
      cases entry
    · obtain rfl := List.mem_singleton.mp last
      obtain rfl := List.mem_singleton.mp entry
      rfl
  · cases written

theorem paysAll_locks {step : Step} (kept : w.book.Kept)
    (meets : Succeeding d (HeedsLatch e t) w step) (pays : PaysAll d e t w step)
    {p : PaymentRecord} (stored : (w.next d step).book.payment k = some p) (event : p.eventId = e)
    (token : p.token = t) (held : p.status = .held) : Locked e t k (w.next d step).book := by
  refine ⟨?_, p, stored, event, token, held⟩
  cases step with
  | mint | pay => cases pays
  | call invocation c =>
    have open_ (asked : c.params = none) : w.allRefunded e t ≠ true :=
      not_allRefunded kept asked stored event token held
    have stays (success : c.succeeds ⟨d, invocation⟩ w = true)
        (latched : refundLatched w e = true ∨ w.allRefunded e t = true) (asked : c.params = none)
        (other : ∀ entry ∈ c.entries, entry ∉ [.cancel, .setEscrow]) :
        (w.next d (.call invocation c)).book.latched e = true := by
      obtain latched | all := latched
      · exact next_latched kept (refundLatched_eq w e ▸ latched) success other
      · exact absurd all (open_ asked)
    have sets (settles : SettlesEvent d e w (.call invocation c))
        (success : c.succeeds ⟨d, invocation⟩ w = true)
        (latching : w.Latching e ∨ w.allRefunded e t = true) (asked : c.params = none)
        (other : ∀ entry ∈ c.entries, entry ∉ [.cancel, .setEscrow]) :
        (w.next d (.call invocation c)).book.latched e = true := by
      obtain (latched | ⟨config, found, full⟩) | all := latching
      · exact stays success (.inl latched) asked other
      · exact latched_iff.mpr (.inl (next_withdrawnFully kept found full settles))
      · exact absurd all (open_ asked)
    have settled (unsettled : w.getSplitSettlement e = none)
        (settles : ∃ s ∈ (w.next d (.call invocation c)).getSplitSettlement e, s.token = t) :
        ∃ w', c.exec ⟨d, invocation⟩ w = .ok w' := by
      cases result : c.exec ⟨d, invocation⟩ w with
      | ok w' => exact ⟨w', rfl⟩
      | error failure =>
        obtain ⟨s, found, -⟩ := settles
        rw [World.next, result] at found
        have found : w.getSplitSettlement e = some s := found
        rw [unsettled] at found
        cases found
    cases c with
    | withdraw organizer e' =>
      obtain ⟨full, paid⟩ := pays
      obtain ⟨success, dst, rfl, -⟩ := paid_paysTo kept paid
      exact sets ⟨rfl, success⟩ success (meets success rfl full) rfl (by simp [Call.entries])
    | withdrawRevenue e' recipient =>
      obtain ⟨success, dst, rfl, -⟩ := paid_paysTo kept pays
      exact sets ⟨rfl, success⟩ success (meets success rfl) rfl (by simp [Call.entries])
    | withdrawToken organizer e' t' =>
      obtain ⟨success, dst, rfl, -⟩ := paid_paysTo kept pays
      obtain ⟨tr, mem, -, here, -⟩ := pays
      have same : t' = t := (withdrawToken_token kept mem).symm.trans here
      exact stays success (meets success rfl same) rfl (by simp [Call.entries])
    | withdrawAllTokens organizer e' =>
      obtain ⟨success, dst, rfl, -⟩ := paid_paysTo kept pays
      exact stays success (meets success rfl) rfl (by simp [Call.entries])
    | releaseIfExpired e' =>
      obtain ⟨success, dst, rfl, -⟩ := paid_paysTo kept pays
      exact latched_iff.mpr (.inr (release_sets kept success).2)
    | withdrawSplit recipient e' =>
      obtain ⟨rfl, full, unsettled, settles⟩ := pays
      have success := succeeds_iff.mpr (settled unsettled settles)
      exact stays success (meets success rfl full unsettled) rfl (by simp [Call.entries])
    | resolveFlaggedShare e' recipient resolution =>
      obtain ⟨rfl, full, unsettled, settles⟩ := pays
      have success := succeeds_iff.mpr (settled unsettled settles)
      cases resolution with
      | releaseToRecipient =>
        obtain ⟨ps, rfl, -, effect⟩ := succeeds_written kept success
        obtain ⟨s, found, -⟩ := settles
        have same := congrArg (fun b : Book => b.settlement e') effect
        have found : (w.next d _).book.settlement e' = some s := found
        rw [← same] at found
        have found : w.getSplitSettlement e' = some s := found
        rw [unsettled] at found
        cases found
      | reassignToPrimary =>
        exact stays success (meets success rfl full unsettled) rfl (by simp [Call.entries])
    | _ => cases pays

end Payouts

/-- While the latch is heeded, no payment that is held when the revenue of its event in its token
is paid out is refunded later in the run. -/
theorem payout_excludes_refund (d : Deployment) (balances : Balances Address Address) (e : Symbol)
    (t : Address) (before after : List Step) (step : Step)
    (meets : Along (World.next d) (Succeeding d (HeedsLatch e t)) (deployed balances)
      (before ++ step :: after)) :
    PaidOnce d e t (run (World.next d) (deployed balances) before) step after := by
  intro pays k p stored event token held
  have kept := reachable_kept d balances before
  obtain ⟨-, here, rest⟩ := along_append.mp meets
  have locked := paysAll_locks kept here pays (okOr_eq_ok.mp stored) event token held
  exact run_unrefunding (next_kept _ step kept) locked rest

def Sample.soldBoth : List Step :=
  opening ++ [sale 2 1 bob concert 100, sale 2 2 bob festival 100]

/-- The first event is withdrawn in full, which sets the latch, and the admin's refund fails. -/
theorem payout_excludes_refund_sample :
    PaidOnce Sample.deployment Sample.concert Sample.token
      (run (World.next Sample.deployment) (deployed Sample.noBalances) Sample.soldBoth)
      (Sample.call 3 (.withdrawRevenue Sample.concert Sample.organizer))
      [Sample.call 4 (.refund Sample.admin 1 none)] :=
  payout_excludes_refund Sample.deployment Sample.noBalances Sample.concert Sample.token
    Sample.soldBoth [Sample.call 4 (.refund Sample.admin 1 none)]
    (Sample.call 3 (.withdrawRevenue Sample.concert Sample.organizer)) (by decide)

theorem not_paidOnce {w : World} {step last : Step} {between : List Step} {p : PaymentRecord}
    (pays : PaysAll d e t w step) (stored : (w.next d step).getPayment k = .ok p)
    (held : p.eventId = e ∧ p.token = t ∧ p.status = .held)
    (refunds : ∃ tr ∈ (run (World.next d) (w.next d step) between).sent d last,
      tr.purpose = .refund k) :
    ¬ PaidOnce d e t w step (between ++ [last]) := by
  intro once
  obtain ⟨-, unrefunding, -⟩ := along_append.mp (once pays k p stored held.1 held.2.1 held.2.2)
  obtain ⟨tr, mem, purpose⟩ := refunds
  exact unrefunding tr mem purpose

def Sample.completedBoth : List Step :=
  soldBoth ++ [call 3 (.setEventStatus admin concert .completed)]

/-- A payment whose event was paid out is refunded by the admin, through a dispute, and by the
attendee once the event is cancelled. -/
theorem paid_then_refunded :
    (¬ PaidOnce Sample.deployment Sample.concert Sample.token
      (run (World.next Sample.deployment) (deployed Sample.noBalances) Sample.completedBoth)
      (Sample.call 11 (.withdrawToken Sample.organizer Sample.concert Sample.token))
      ([] ++ [Sample.call 12 (.refund Sample.admin 1 none)])) ∧
    (¬ PaidOnce Sample.deployment Sample.concert Sample.token
      (run (World.next Sample.deployment) (deployed Sample.noBalances) Sample.completedBoth)
      (Sample.call 11 (.withdraw Sample.organizer Sample.concert))
      ([Sample.call 12 (.raiseDispute 1 0 none)] ++ [Sample.call 12 (.approveRefund 1)])) ∧
    ¬ PaidOnce Sample.deployment Sample.concert Sample.token
      (run (World.next Sample.deployment) (deployed Sample.noBalances) Sample.soldBoth)
      (Sample.call 3 (.withdrawRevenue Sample.concert Sample.organizer))
      ([Sample.call 4 (.cancelEvent Sample.concert Sample.organizer)] ++
        [Sample.call 12 (.claimRefund Sample.bob 1)]) := by
  refine ⟨?_, ?_, ?_⟩
  · exact not_paidOnce (k := 1) (show ∃ tr ∈ _, _ by decide) rfl (by decide) (by decide)
  · exact not_paidOnce (k := 1) (show _ ∧ ∃ tr ∈ _, _ by decide) rfl (by decide) (by decide)
  · exact not_paidOnce (k := 1) (show ∃ tr ∈ _, _ by decide) rfl (by decide) (by decide)

end Zicket.Payments
