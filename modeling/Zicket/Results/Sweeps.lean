import Zicket.Results.Authority
import Zicket.Results.Migration
import Zicket.Results.Tokens

/-! The sweep of timed-out disputes: which disputes it ends and what it gives back, what it
leaves alone, when the sums it makes fit, and that it unblocks the payouts. -/

namespace Zicket.Payments

open Host Foundation Book Common

variable {env : Env} {w w' : World} {e : Symbol}

def World.pending (env : Env) (w : World) (k : ℕ) : Bool :=
  (w.getDispute k).any fun dispute =>
    env.sequence < saturatingAdd dispute.raisedAtLedger disputeTimeoutLedgers

def World.returned (env : Env) (w : World) (ids : List ℕ) : List PaymentRecord :=
  ids.filterMap fun k =>
    if (w.getDispute k).any (disputeExpired env) = true then w.get (.payment k) else none

theorem World.returns_eq (w : World) (ids : List ℕ) :
    w.book.returns env ids = (w.returned env ids).map .unfreeze := by
  rw [returns, returned, List.map_filterMap]
  refine List.filterMap_congr fun k _ => ?_
  change (if (w.getDispute k).any _ = true then _ else none) = _
  split
  · rfl
  · rfl

theorem World.pending_eq {k : ℕ} {dispute : DisputeRecord} (found : w.getDispute k = some dispute) :
    w.pending env k = !disputeExpired env dispute := by
  rw [pending, found, Option.any_some, disputeExpired, ← decide_not]
  exact decide_eq_decide.mpr not_le.symm

section Returned

variable {self : Address} {b : Book} {ps : List PaymentRecord}

theorem run_unfreeze_records (sound : Along (post self) (Sound self) b (ps.map .unfreeze)) (k : ℕ) :
    (run (post self) b (ps.map .unfreeze)).payment k =
        (if k ∈ ps.map (·.paymentId) then (b.payment k).map fun p => { p with status := .held }
        else b.payment k) ∧
      (run (post self) b (ps.map .unfreeze)).dispute k =
        if k ∈ ps.map (·.paymentId) then none else b.dispute k := by
  induction ps generalizing b with
  | nil => exact ⟨rfl, rfl⟩
  | cons p ps ih =>
    obtain ⟨first, rest⟩ := sound
    have stored : b.payment p.paymentId = some p := first.stored
    obtain ⟨payments, disputes⟩ := ih rest
    rw [List.map_cons, run_cons, payments, disputes]
    by_cases same : k = p.paymentId
    · subst same
      have payment : (b.post self (.unfreeze p)).payment p.paymentId =
          some { p with status := .held } := Function.update_self ..
      have dispute : (b.post self (.unfreeze p)).dispute p.paymentId = none :=
        Function.update_self ..
      simp [payment, dispute, stored]
    · have payment : (b.post self (.unfreeze p)).payment k = b.payment k :=
        Function.update_of_ne same ..
      have dispute : (b.post self (.unfreeze p)).dispute k = b.dispute k :=
        Function.update_of_ne same ..
      simp [payment, dispute, same]

theorem run_unfreeze_disputes (event : ∀ p ∈ ps, p.eventId = e) :
    (run (post self) b (ps.map .unfreeze)).disputes e =
      (b.disputes e).filter (· ∉ ps.map (·.paymentId)) := by
  induction ps generalizing b with
  | nil => simp
  | cons p ps ih =>
    have own : p.eventId = e := event p (List.mem_cons_self ..)
    have dropped : (b.post self (.unfreeze p)).disputes e =
        (b.disputes e).filter (· ≠ p.paymentId) := by
      subst own
      exact Function.update_self ..
    rw [List.map_cons, run_cons, ih fun p mem => event p (List.mem_cons_of_mem _ mem), dropped,
      List.filter_filter]
    refine List.filter_congr fun k _ => ?_
    simp only [List.map_cons, List.mem_cons, not_or, Bool.decide_and, Bool.and_comm]

end Returned

section Exact

/-- What the sweep makes of the event's disputes: those that have timed out end, the others
stay in their order, and each ended one gives its payment back. -/
structure EndsTimedOut (env : Env) (e : Symbol) (w w' : World) : Prop where
  listed : w'.getEventDisputes e = (w.getEventDisputes e).filter (w.pending env)
  disputes : ∀ k, w'.getDispute k =
    if k ∈ w.getEventDisputes e ∧ w.pending env k = false then none else w.getDispute k
  returned : ∀ k ∈ w.getEventDisputes e, w.pending env k = false →
    ∃ dispute p, w.getDispute k = some dispute ∧ w.getPayment dispute.paymentId = .ok p ∧
      p.status = .disputed ∧
      w'.getPayment dispute.paymentId = .ok { p with status := .held }
  payments : ∀ id, (∀ k ∈ w.getEventDisputes e, w.pending env k = false →
      ∀ dispute, w.getDispute k = some dispute → dispute.paymentId ≠ id) →
    w'.get (.payment id) = w.get (.payment id)
  revenue : ∀ t, w'.getEventTokenRevenue e t = w.getEventTokenRevenue e t + w.timedOut env e t
  others : w.Leaves (fun k => !k.IsSweptOf e) w'
  unmoved : w'.balances = w.balances ∧ w'.transfers = w.transfers
  again : ∀ env' : Env, env'.sequence = env.sequence → processTimedOutDisputes env' e w' = .ok w'

theorem mem_returned {ids : List ℕ} {k : ℕ} (recorded : Recorded w.book.toRecords)
    (listed : ∀ k ∈ ids, ∃ dispute, w.getDispute k = some dispute) :
    k ∈ (w.returned env ids).map (·.paymentId) ↔ k ∈ ids ∧ w.pending env k = false := by
  simp only [World.returned, List.mem_map, List.mem_filterMap]
  constructor
  · rintro ⟨p, ⟨k', mem, found⟩, rfl⟩
    split at found
    · rename_i expired
      obtain ⟨dispute, hd⟩ := listed k' mem
      rw [hd, Option.any_some] at expired
      obtain ⟨rfl, -⟩ := recorded.numbered k' p found
      exact ⟨mem, by rw [World.pending_eq hd, expired]; rfl⟩
    · cases found
  · rintro ⟨mem, ended⟩
    obtain ⟨dispute, hd⟩ := listed k mem
    rw [World.pending_eq hd, Bool.not_eq_false'] at ended
    obtain ⟨-, -, p, hp, -⟩ := recorded.disputed k dispute hd
    refine ⟨p, ⟨k, mem, ?_⟩, (recorded.numbered k p hp).1⟩
    rw [hd, Option.any_some, if_pos ended]
    exact hp

theorem processTimedOutDisputes_exact (kept : w.book.Kept)
    (h : processTimedOutDisputes env e w = .ok w') : EndsTimedOut env e w w' := by
  have recorded := kept.recorded
  have stored (k : ℕ) (mem : k ∈ w.getEventDisputes e) :
      ∃ dispute, w.getDispute k = some dispute := by
    obtain ⟨dispute, hd, -⟩ := (recorded.listed e k).mp mem
    exact ⟨dispute, hd⟩
  obtain ⟨sweeps, sound, effect⟩ := processTimedOutDisputes_returns kept h
  have revenue := fun t => sweeps.revenue env.currentContract w.book t
  have wallet : (run (post env.currentContract) w.book _).toWallet = w.book.toWallet :=
    (sweeps.frame w.book).2.2.1
  rw [w.returns_eq] at sweeps sound effect
  have event : ∀ p ∈ w.returned env (w.getEventDisputes e), p.eventId = e := by
    intro p mem
    obtain ⟨p', same, own⟩ := sweeps _ (List.mem_map_of_mem mem)
    cases same
    exact own
  have records := run_unfreeze_records sound
  have left : (run (post env.currentContract) w.book _).disputes e = _ :=
    run_unfreeze_disputes event
  rw [effect] at records left
  simp only [mem_returned recorded stored] at records left
  have listed : w'.getEventDisputes e = (w.getEventDisputes e).filter (w.pending env) := by
    refine Eq.trans left (List.filter_congr fun k mem => ?_)
    simp [show k ∈ w.getEventDisputes e from mem]
  have disputes (k : ℕ) : w'.getDispute k =
      if k ∈ w.getEventDisputes e ∧ w.pending env k = false then none else w.getDispute k :=
    (records k).2
  have payment (k : ℕ) := (records k).1
  refine ⟨listed, disputes, fun k mem ended => ?_, fun id apart => ?_, fun t => ?_, ?_, ?_, ?_⟩
  · obtain ⟨dispute, hd⟩ := stored k mem
    obtain ⟨-, number, p, hp, disputed, -⟩ := recorded.disputed k dispute hd
    refine ⟨dispute, p, hd, ?_, disputed, ?_⟩
    · rw [number]
      exact okOr_eq_ok.mpr hp
    · rw [number]
      refine okOr_eq_ok.mpr ((payment k).trans ?_)
      rw [if_pos ⟨mem, ended⟩, hp]
      rfl
  · refine (payment id).trans (if_neg ?_)
    rintro ⟨mem, ended⟩
    obtain ⟨dispute, hd⟩ := stored id mem
    exact apart id mem ended dispute hd (recorded.disputed id dispute hd).2.1
  · exact processTimedOutDisputes_revenue kept h t
  · exact processTimedOutDisputes_leaves w (fun k swept => by simp [swept]) w' h
  · rw [w.returns_eq, effect] at wallet
    exact ⟨congrArg Wallet.balances wallet, congrArg Wallet.transfers wallet⟩
  · intro env' same
    have quiet : w'.Quiet env' (w'.getEventDisputes e) := by
      intro k mem dispute hd
      rw [listed] at mem
      obtain ⟨mem, pending⟩ := List.mem_filter.mp mem
      have before : w.getDispute k = some dispute := by
        rw [← hd, disputes, if_neg (by simp [pending])]
      rw [World.pending_eq before, Bool.not_eq_true'] at pending
      rw [← pending, disputeExpired, disputeExpired, same]
    obtain ⟨remaining, swept⟩ := sweepDisputes_quiet (e := e) quiet
    rw [processTimedOutDisputes, swept]
    rfl

end Exact

section Sums

/-- The sums that returning the payments makes stay in range: the total over the event's tokens
`ts` with all its partial sums, and what each payment is added to. -/
def ReturnsFit (ts : List Address) : (Address → ℤ) → List PaymentRecord → Prop
  | _, [] => True
  | revenue, p :: rest =>
    (∀ ys, ys <+: ts → InI128 (ys.map revenue).sum) ∧ InI128 ((ts.map revenue).sum + p.amount) ∧
      InI128 (revenue p.token + p.amount) ∧
      ReturnsFit ts (Function.update revenue p.token (revenue p.token + p.amount)) rest

variable {k : ℕ} {p : PaymentRecord}

structure Returns (e : Symbol) (p : PaymentRecord) (w w' : World) : Prop where
  tokens : w'.getEventTokens e = w.getEventTokens e
  revenue : w'.getEventTokenRevenue e =
    Function.update (w.getEventTokenRevenue e) p.token (w.getEventTokenRevenue e p.token + p.amount)
  dispute : ∀ k, k ≠ p.paymentId → w'.getDispute k = w.getDispute k
  payment : ∀ k, k ≠ p.paymentId → w'.get (.payment k) = w.get (.payment k)

theorem returnDisputed_eq_ok (stored : w.get (.payment p.paymentId) = some p)
    (disputed : p.status = .disputed) :
    returnDisputed w e p.paymentId = .ok w' ↔
      ((∀ ys, ys <+: w.getEventTokens e → InI128 (ys.map (w.getEventTokenRevenue e)).sum) ∧
        InI128 (((w.getEventTokens e).map (w.getEventTokenRevenue e)).sum + p.amount) ∧
        InI128 (w.getEventTokenRevenue e p.token + p.amount)) ∧
      w' = ((w.set (.payment p.paymentId) { p with status := .held }).setEventRevenue e
          (((w.getEventTokens e).map (w.getEventTokenRevenue e)).sum + p.amount)).setEventTokenRevenue
        e p.token (w.getEventTokenRevenue e p.token + p.amount) := by
  have present : w.has (.payment p.paymentId) = true := Option.isSome_iff_exists.mpr ⟨p, stored⟩
  simp only [returnDisputed, stored, disputed, if_true, World.updatePayment, bind_eq_ok, pure_eq_ok,
    require_eq_ok, World.shiftEventRevenue, getEventRevenue_eq_ok, i128_eq_ok]
  constructor
  · rintro ⟨_, ⟨-, -, rfl⟩, _, ⟨_, ⟨rfl, running⟩, _, ⟨total, rfl⟩, rfl⟩, _, ⟨own, rfl⟩, rfl⟩
    exact ⟨⟨running, total, own⟩, rfl⟩
  · rintro ⟨⟨running, total, own⟩, rfl⟩
    exact ⟨_, ⟨(), present, rfl⟩, _, ⟨_, ⟨rfl, running⟩, _, ⟨total, rfl⟩, rfl⟩, _, ⟨own, rfl⟩, rfl⟩

theorem returnDisputed_returns (stored : w.get (.payment p.paymentId) = some p)
    (disputed : p.status = .disputed) (h : returnDisputed w e p.paymentId = .ok w') :
    Returns e p w
      ((w'.removeDispute p.paymentId).emitDisputeTimedOut env e p.paymentId) := by
  obtain ⟨-, rfl⟩ := (returnDisputed_eq_ok stored disputed).mp h
  have credited (w : World) (x : ℤ) : (w.setEventTokenRevenue e p.token x).getEventTokenRevenue e =
      Function.update (w.getEventTokenRevenue e) p.token x :=
    Store.table_set (DataKey.eventTokenRevenue e) (by simp)
      (fun _ (stored : Option ℤ) => stored.getD 0) w.storage p.token x
  refine ⟨rfl, ?_, fun k other => ?_, fun k other => ?_⟩
  · exact credited _ _
  · exact Store.get_remove_of_ne _ (by simpa using other)
  · exact Store.get_set_of_ne _ _ (by simpa using other)

def World.DisputesOwn (w : World) (ids : List ℕ) : Prop :=
  ∀ k ∈ ids, ∃ dispute p, w.getDispute k = some dispute ∧ dispute.paymentId = p.paymentId ∧
    w.get (.payment p.paymentId) = some p ∧ p.paymentId = k ∧ p.status = .disputed

theorem Returns.ids {ids : List ℕ} (returns : Returns e p w w') (later : p.paymentId ∉ ids) :
    w'.returned env ids = w.returned env ids := by
  refine List.filterMap_congr fun k mem => ?_
  have other : k ≠ p.paymentId := by
    rintro rfl
    exact later mem
  rw [returns.dispute k other, returns.payment k other]

theorem Returns.disputesOwn {ids : List ℕ} (returns : Returns e p w w') (later : p.paymentId ∉ ids)
    (own : w.DisputesOwn ids) : w'.DisputesOwn ids := by
  intro k mem
  obtain ⟨dispute, q, hd, number, stored, rfl, disputed⟩ := own k mem
  have other : q.paymentId ≠ p.paymentId := by
    intro same
    exact later (same ▸ mem)
  exact ⟨dispute, q, (returns.dispute _ other).trans hd, number, (returns.payment _ other).trans stored,
    rfl, disputed⟩

/-- The sweep succeeds exactly when the sums it makes are in range. -/
theorem sweepDisputes_ok {ids : List ℕ} (nodup : ids.Nodup) (own : w.DisputesOwn ids) :
    (∃ swept, sweepDisputes env e ids w = .ok swept) ↔
      ReturnsFit (w.getEventTokens e) (w.getEventTokenRevenue e) (w.returned env ids) := by
  induction ids generalizing w with
  | nil => exact ⟨fun _ => trivial, fun _ => ⟨_, rfl⟩⟩
  | cons id rest ih =>
    obtain ⟨later, distinct⟩ := List.nodup_cons.mp nodup
    obtain ⟨dispute, p, hd, number, stored, rfl, disputed⟩ := own id (List.mem_cons_self ..)
    have ownRest : w.DisputesOwn rest := fun k mem => own k (List.mem_cons_of_mem _ mem)
    cases expired : disputeExpired env dispute with
    | true =>
      have returned : w.returned env (p.paymentId :: rest) = p :: w.returned env rest := by
        refine List.filterMap_cons_some ?_
        rw [if_pos (any_expired hd expired), stored]
      rw [sweepDisputes_expired hd expired, returned, ReturnsFit, number]
      simp only [bind_eq_ok, pure_eq_ok]
      have after {w₁ : World} (h : returnDisputed w e p.paymentId = .ok w₁) :
          (∃ swept, sweepDisputes env e rest
            ((w₁.removeDispute p.paymentId).emitDisputeTimedOut env e p.paymentId) = .ok swept) ↔
          ReturnsFit (w.getEventTokens e) (Function.update (w.getEventTokenRevenue e) p.token
            (w.getEventTokenRevenue e p.token + p.amount)) (w.returned env rest) := by
        have returns : Returns e p w
            ((w₁.removeDispute p.paymentId).emitDisputeTimedOut env e p.paymentId) :=
          returnDisputed_returns stored disputed h
        rw [ih distinct (returns.disputesOwn later ownRest), returns.tokens, returns.revenue,
          returns.ids later]
      constructor
      · rintro ⟨_, w₁, h, swept, more, -⟩
        obtain ⟨⟨running, total, fits⟩, -⟩ := (returnDisputed_eq_ok stored disputed).mp h
        exact ⟨running, total, fits, (after h).mp ⟨swept, more⟩⟩
      · rintro ⟨running, total, fits, more⟩
        have h := (returnDisputed_eq_ok (e := e) stored disputed).mpr ⟨⟨running, total, fits⟩, rfl⟩
        obtain ⟨swept, more⟩ := (after h).mpr more
        exact ⟨_, _, h, swept, more, rfl⟩
    | false =>
      have returned : w.returned env (p.paymentId :: rest) = w.returned env rest :=
        List.filterMap_cons_none (if_neg (any_waiting hd expired))
      rw [sweepDisputes_waiting hd expired, returned, ← ih distinct ownRest]
      simp only [bind_eq_ok, pure_eq_ok]
      constructor
      · rintro ⟨_, swept, more, -⟩
        exact ⟨swept, more⟩
      · rintro ⟨swept, more⟩
        exact ⟨_, swept, more, rfl⟩

theorem processTimedOutDisputes_ok (kept : w.book.Kept) :
    (∃ w', processTimedOutDisputes env e w = .ok w') ↔
      ReturnsFit (w.getEventTokens e) (w.getEventTokenRevenue e)
        (w.returned env (w.getEventDisputes e)) := by
  have recorded := kept.recorded
  have own : w.DisputesOwn (w.getEventDisputes e) := by
    intro k mem
    obtain ⟨dispute, hd, -⟩ := (recorded.listed e k).mp mem
    obtain ⟨-, number, p, hp, disputed, -⟩ := recorded.disputed k dispute hd
    obtain ⟨rfl, -⟩ := recorded.numbered k p hp
    exact ⟨dispute, p, hd, number, hp, rfl, disputed⟩
  refine Iff.trans ?_ (sweepDisputes_ok (recorded.distinct e) own)
  simp only [processTimedOutDisputes, bind_eq_ok, pure_eq_ok]
  constructor
  · rintro ⟨_, swept, h, -⟩
    exact ⟨swept, h⟩
  · rintro ⟨swept, h⟩
    exact ⟨_, swept, h, rfl⟩

end Sums

section Gate

variable {α β : Type} {x : Attempt α} {f : α → Attempt β}

/-- The attempt does not fail for an open dispute. -/
def Unblocked (x : Attempt α) : Prop := x ≠ .error (.error .activeDisputes)

theorem Unblocked.bind (first : Unblocked x) (rest : ∀ a, x = .ok a → Unblocked (f a)) :
    Unblocked (x >>= f) := by
  intro failed
  obtain failed | ⟨a, result, failed⟩ := bind_eq_error.mp failed
  · exact first failed
  · exact rest a result failed

@[simp] theorem unblocked_pure (a : α) : Unblocked (pure a) := nofun

theorem unblocked_fail {error : PaymentError} (other : error ≠ .activeDisputes) :
    Unblocked (fail error : Attempt α) := by
  intro same
  exact other (Failure.error.inj (Except.error.inj same))

@[simp] theorem unblocked_require {q : Prop} [Decidable q] {error : PaymentError}
    (other : error ≠ .activeDisputes) : Unblocked (require q error) := by
  rw [Unblocked, require, Ne, ensure_eq_error, Failure.error.injEq]
  exact fun same => other same.2

@[simp] theorem unblocked_okOr {o : Option α} {error : PaymentError}
    (other : error ≠ .activeDisputes) : Unblocked (okOr o error) := by
  rw [Unblocked, okOr, Ne, orFail_eq_error, Failure.error.injEq]
  exact fun same => other same.2

@[simp] theorem unblocked_requireAuth (env : Env) (a : Address) :
    Unblocked (requireAuth env a) := requireAuth_unrefused env a _

@[simp] theorem unblocked_i128 (x : ℤ) : Unblocked (i128 x) := i128_unrefused x _

@[simp] theorem unblocked_u32 (n : ℕ) : Unblocked (u32 n) := by
  unfold u32
  split <;> nofun

@[simp] theorem unblocked_transfer (w : World) (tr : Transfer) : Unblocked (w.transfer tr) :=
  transfer_unrefused w tr _

@[simp] theorem unblocked_getEventRevenue (w : World) (e : Symbol) :
    Unblocked (w.getEventRevenue e) := getEventRevenue_unrefused w e _

theorem unblocked_foldlM {γ : Type} {step : β → γ → Attempt β} (h : ∀ b c, Unblocked (step b c))
    (cs : List γ) (b : β) : Unblocked (cs.foldlM step b) := by
  induction cs generalizing b with
  | nil => exact unblocked_pure b
  | cons c cs ih =>
    rw [List.foldlM_cons]
    exact (h b c).bind fun b' _ => ih b'

theorem unblocked_forM {γ : Type} {check : γ → Attempt Unit} (h : ∀ c, Unblocked (check c))
    (cs : List γ) : Unblocked (cs.forM check) := by
  induction cs with
  | nil => exact unblocked_pure ()
  | cons c cs ih => exact (h c).bind fun _ _ => ih

@[simp] theorem unblocked_basisPointsOf (amount : ℤ) (bps : ℕ) :
    Unblocked (basisPointsOf amount bps) := .bind (by simp) (by simp)

@[simp] theorem unblocked_updatePayment (w : World) (p : PaymentRecord) :
    Unblocked (w.updatePayment p) := .bind (by simp) (by simp)

@[simp] theorem unblocked_shiftEventRevenue (w : World) (e : Symbol) (x : ℤ) :
    Unblocked (w.shiftEventRevenue e x) :=
  .bind (by simp) fun _ _ => .bind (by simp) (by simp)

@[simp] theorem unblocked_returnDisputed (w : World) (e : Symbol) (id : ℕ) :
    Unblocked (returnDisputed w e id) := by
  unfold returnDisputed
  split
  · exact unblocked_pure w
  · split
    · refine .bind (by simp) fun w _ => .bind (by simp) fun w _ => ?_
      exact .bind (by simp) (by simp)
    · exact unblocked_pure w

@[simp] theorem unblocked_sweepDisputes (ids : List ℕ) (w : World) :
    Unblocked (sweepDisputes env e ids w) := by
  induction ids generalizing w with
  | nil => exact unblocked_pure _
  | cons id rest ih =>
    unfold sweepDisputes
    split
    · exact ih w
    · split
      · exact .bind (by simp) fun w _ => .bind (ih _) (by simp)
      · exact .bind (ih w) (by simp)

@[simp] theorem unblocked_checkTokenBalance (w : World) (t : Address) :
    Unblocked (checkTokenBalance env w e t) :=
  .bind (by simp) fun _ _ => .bind (by simp) (by simp)

@[simp] theorem unblocked_validateRevenueInvariant (w : World) :
    Unblocked (validateRevenueInvariant env e w) := by
  have sweeps : Unblocked (processTimedOutDisputes env e w) := .bind (by simp) (by simp)
  exact .bind sweeps fun w _ => .bind (unblocked_forM (by simp) _) (by simp)

@[simp] theorem unblocked_withdrawableRatio (w : World) (config : EventConfig) :
    Unblocked (withdrawableRatio env w e config) := by
  unfold withdrawableRatio
  split
  · exact .bind (by simp) fun _ _ => .bind (by simp) fun _ _ => .bind (by simp) (by simp)
  · refine .bind (by simp) fun _ _ => .bind (by simp) fun _ _ => .bind (by simp) fun _ _ => ?_
    exact .bind (by simp) fun _ _ => .bind (by simp) (by simp)
  · exact unblocked_fail (by decide)

@[simp] theorem unblocked_amountToWithdraw (w : World) (t : Address) (ratio : ℕ) :
    Unblocked (amountToWithdraw w e t ratio) := by
  have disputed : Unblocked (disputedVolume w e t) := by
    refine unblocked_foldlM (fun total k => ?_) _ _
    split
    · exact unblocked_pure _
    · split
      · exact unblocked_pure _
      · split <;> simp
  unfold amountToWithdraw
  split
  · exact .bind disputed fun _ _ => .bind (by simp) (by simp)
  · simp

@[simp] theorem unblocked_collectPlatformFee (w : World) (fee net : ℤ) (t : Address) :
    Unblocked (collectPlatformFee env w e fee net t) := by
  have credits : Unblocked (w.addPlatformRevenue e fee) := .bind (by simp) (by simp)
  unfold collectPlatformFee
  split
  · exact .bind credits (by simp)
  · exact unblocked_pure _

@[simp] theorem unblocked_deductRevenue (w : World) (t : Address) (ratio : ℕ) (total : ℤ) :
    Unblocked (deductRevenue w e t ratio total) := by
  unfold deductRevenue
  split
  · exact unblocked_pure _
  · exact .bind (by simp) (by simp)

@[simp] theorem unblocked_bookWithdrawal (w : World) (t recipient : Address) (amount : ℤ) :
    Unblocked (bookWithdrawal env w e t recipient amount) := by
  have counts (w : World) : Unblocked (w.addTotalWithdrawn e amount) := .bind (by simp) (by simp)
  have countsToken (w : World) : Unblocked (w.addTotalTokenWithdrawn e t amount) :=
    .bind (by simp) (by simp)
  exact .bind (counts w) fun w _ => .bind (countsToken w) fun w _ => .bind (by simp) (by simp)

@[simp] theorem unblocked_recipientShare (splits : List RevenueSplit) (who : Address) (net : ℤ) :
    Unblocked (recipientShare splits who net) := by
  have share (net : ℤ) (bps : ℕ) : Unblocked (bpsShare net bps) := .bind (by simp) (by simp)
  unfold recipientShare
  split
  · exact unblocked_pure 0
  · unfold calculateRecipientShare
    split
    · exact unblocked_pure _
    · split
      · refine .bind (unblocked_foldlM (fun total entry => ?_) _ _) (by simp)
        exact .bind (share _ _) (by simp)
      · split
        · exact share _ _
        · exact unblocked_pure 0

/-- When every dispute of the event has timed out, the validation ends them all. -/
theorem validateRevenueInvariant_clears (kept : w.book.Kept)
    (ended : ∀ k ∈ w.getEventDisputes e, w.pending env k = false)
    (h : validateRevenueInvariant env e w = .ok w') : w'.getEventDisputes e = [] := by
  simp only [validateRevenueInvariant, bind_eq_ok, pure_eq_ok] at h
  obtain ⟨w₁, swept, -, -, rfl⟩ := h
  rw [(processTimedOutDisputes_exact kept swept).listed, List.filter_eq_nil_iff]
  intro k mem
  simp [ended k mem]

theorem unblocked_gate (kept : w.book.Kept)
    (ended : ∀ k ∈ w.getEventDisputes e, w.pending env k = false)
    (h : validateRevenueInvariant env e w = .ok w') :
    Unblocked (require (w'.getEventDisputes e = []) .activeDisputes) :=
  require_unrefused (validateRevenueInvariant_clears kept ended h) _

theorem withdraw_unblocked (kept : w.book.Kept)
    (ended : ∀ k ∈ w.getEventDisputes e, w.pending env k = false) (organizer : Address) :
    Unblocked (withdraw env organizer e w) := by
  refine .bind (by simp [requireNotPaused]) fun _ _ => .bind (by simp) fun _ _ => ?_
  refine .bind (by simp [ensureNoSplits]) fun _ _ => .bind (by simp [World.getEventOrganizer]) fun _ _ => ?_
  refine .bind (by simp) fun _ _ => .bind (by simp) fun config _ => ?_
  refine .bind (by simp) fun _ _ => .bind (by simp) fun ratio _ => ?_
  refine .bind (by simp) fun w₁ validated => ?_
  refine .bind (unblocked_gate kept ended validated) fun _ _ => ?_
  refine .bind (by simp [World.getEventPayoutToken]) fun _ _ => .bind (by simp) fun _ _ => ?_
  refine .bind (by simp) fun _ _ => .bind (by simp) fun _ _ => ?_
  refine .bind (by simp) fun _ _ => .bind (by simp) fun _ _ => ?_
  refine .bind (by simp) fun w₂ _ => .bind (by simp) fun w₃ _ => ?_
  exact .bind (by simp) fun w₄ _ => .bind (by simp) (by simp)

theorem ensureSplitSettled_unblocked (kept : w.book.Kept)
    (ended : ∀ k ∈ w.getEventDisputes e, w.pending env k = false) :
    Unblocked (ensureSplitSettled env e w) := by
  unfold ensureSplitSettled
  split
  · exact unblocked_pure _
  · refine .bind (by simp) fun config _ => .bind (by simp) fun ratio _ => ?_
    refine .bind (by simp) fun w₁ validated => ?_
    refine .bind (unblocked_gate kept ended validated) fun _ _ => ?_
    refine .bind (by simp [World.getEventPayoutToken]) fun _ _ => .bind (by simp) fun _ _ => ?_
    refine .bind (by simp) fun _ _ => .bind (by simp) fun _ _ => ?_
    refine .bind (by simp) fun _ _ => .bind (by simp) fun _ _ => ?_
    refine .bind (by simp) fun _ _ => .bind ?_ fun left _ => ?_
    · unfold remainingTokenRevenue
      split <;> simp
    · exact .bind (by simp) fun w₂ _ => .bind (by simp) (by simp)

theorem withdrawSplit_unblocked (kept : w.book.Kept)
    (ended : ∀ k ∈ w.getEventDisputes e, w.pending env k = false) (recipient : Address) :
    Unblocked (withdrawSplit env recipient e w) := by
  refine .bind (by simp [requireNotPaused]) fun _ _ => .bind (by simp) fun _ _ => ?_
  refine .bind (by simp) fun _ _ => .bind (by simp) fun _ _ => ?_
  refine .bind (by simp) fun _ _ => .bind (by simp) fun _ _ => ?_
  refine .bind (ensureSplitSettled_unblocked kept ended) fun settled _ => ?_
  refine .bind (by simp) fun _ _ => .bind (by simp) fun _ _ => ?_
  exact .bind (by simp) fun w₁ _ => .bind (by simp) (by simp)

end Gate

/-- In every reachable state the sweep of an event succeeds exactly when the sums it makes fit,
and then ends exactly the timed-out disputes; when all have timed out, no payout is blocked. -/
theorem timeout_sweep_exact (d : Deployment) (balances : Balances Address Address)
    (steps : List Step) (env : Env) (e : Symbol) :
    let w := run (World.next d) (deployed balances) steps
    ((∃ w', processTimedOutDisputes env e w = .ok w') ↔
      ReturnsFit (w.getEventTokens e) (w.getEventTokenRevenue e)
        (w.returned env (w.getEventDisputes e))) ∧
    (∀ w', processTimedOutDisputes env e w = .ok w' → EndsTimedOut env e w w') ∧
    ((∀ k ∈ w.getEventDisputes e, w.pending env k = false) → ∀ who,
      withdraw env who e w ≠ .error (.error .activeDisputes) ∧
        withdrawSplit env who e w ≠ .error (.error .activeDisputes)) := by
  intro w
  have kept : w.book.Kept := reachable_kept d balances steps
  exact ⟨processTimedOutDisputes_ok kept, fun w' => processTimedOutDisputes_exact kept,
    fun ended who => ⟨withdraw_unblocked kept ended who, withdrawSplit_unblocked kept ended who⟩⟩

namespace Sample

def after (steps : List Step) : World := run (World.next deployment) (deployed noBalances) steps

def timeout : Env := ⟨deployment, invocation 241930⟩

def contested : List Step :=
  opening ++ [sale 2 1 bob concert 100, call 10 (.raiseDispute 1 0 none)]

def overfull : List Step :=
  royalties ++ [.mint ⟨8⟩ bob (2 ^ 127),
    call 2 (.payForTicket 1 bob concert (2 ^ 127 - 200) none ⟨8⟩ .standard none none),
    sale 3 2 bob concert 100, call 10 (.raiseDispute 1 0 none),
    call 11 (.listTicketForResale bob 2 1000), call 12 (.buyResaleTicket amy 2)]

end Sample

theorem timeout_sweep_exact_sample :
    (∃ w', processTimedOutDisputes Sample.timeout Sample.concert (Sample.after Sample.contested) =
        .ok w' ∧ EndsTimedOut Sample.timeout Sample.concert (Sample.after Sample.contested) w') ∧
      withdraw Sample.timeout Sample.organizer Sample.concert (Sample.after Sample.contested) ≠
        .error (.error .activeDisputes) := by
  have success : (Call.processDisputeTimeouts Sample.concert).succeeds Sample.timeout
      (Sample.after Sample.contested) = true := by decide
  obtain ⟨w', swept⟩ := succeeds_iff.mp success
  obtain ⟨-, ends, unblocked⟩ := timeout_sweep_exact Sample.deployment Sample.noBalances
    Sample.contested Sample.timeout Sample.concert
  exact ⟨⟨w', swept, ends w' swept⟩, (unblocked (by decide) Sample.organizer).1⟩

/-- The sweep also rewrites the total that nothing reads, and it traps when the total of the
event's revenue leaves the range. -/
theorem sweep_total_spills :
    (Sample.after Sample.contested).get (.eventRevenue Sample.concert) = some (0 : ℤ) ∧
    (processTimedOutDisputes Sample.timeout Sample.concert (Sample.after Sample.contested)).map
        (·.get (.eventRevenue Sample.concert)) = .ok (some (100 : ℤ)) ∧
    Chronological Sample.overfull ∧
    (Sample.after Sample.overfull).getEventDisputes Sample.concert = [1] ∧
    (processTimedOutDisputes Sample.timeout Sample.concert (Sample.after Sample.overfull)).map
        (·.getEventDisputes Sample.concert) = .error .trap := by
  refine ⟨by decide, by decide, by decide, by decide, by decide⟩

end Zicket.Payments
