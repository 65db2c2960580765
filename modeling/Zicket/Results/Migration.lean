import Zicket.Privacy.Footprint
import Zicket.Refinement.Calls

/-! The migration of an event's payments to the indexed layout, from any stored state, and the
migration after it. -/

namespace Zicket.Payments

open Host Foundation

variable {env : Env} {admin : Address} {e : Symbol} {w w' : World}

namespace World

def legacyPayments (w : World) (e : Symbol) : List ℕ := (w.get (.eventPayments e)).getD []

def indexed (w : World) (e : Symbol) : List PaymentRecord :=
  (w.getEventPayments e).filterMap fun id => w.get (.payment id)

def indexedIn (w : World) (e : Symbol) (t : Address) : List PaymentRecord :=
  (w.indexed e).filter (·.token = t)

def withdrawn (w : World) (e : Symbol) : ℤ := ((w.getWithdrawalHistory e).map (·.amount)).sum

/-- A withdrawal record names no token: it stands for the event's only one. -/
def withdrawnIn (w : World) (e : Symbol) (t : Address) : ℤ :=
  if w.getEventTokens e = [t] then w.withdrawn e else 0

/-- The counters of the event are the sums over its records. -/
structure Accounted (w : World) (e : Symbol) : Prop where
  payments : w.getTotalPayments e = ((w.indexed e).map (·.amount)).sum
  refunds : w.getTotalRefunds e = ((w.indexed e).map (·.refundedAmount)).sum
  withdrawn : w.getTotalWithdrawn e = w.withdrawn e
  tokenVolume : ∀ t, w.getTotalTokenVolume e t = ((w.indexedIn e t).map (·.amount)).sum
  tokenRefunds : ∀ t, w.getTotalTokenRefunds e t = ((w.indexedIn e t).map (·.refundedAmount)).sum
  tokenWithdrawn : ∀ t, w.getTotalTokenWithdrawn e t = w.withdrawnIn e t

/-- There is nothing to migrate: the event has no payments, in either layout or counted, and no
withdrawals that a migration would attribute to its token. -/
structure NothingToMigrate (w : World) (e : Symbol) : Prop where
  legacy : w.legacyPayments e = []
  indexed : w.getEventPayments e = []
  tokenVolume : ∀ t, w.getTotalTokenVolume e t = 0
  tokenRefunds : ∀ t, w.getTotalTokenRefunds e t = 0
  tokenWithdrawn : ∀ t, w.getTotalTokenWithdrawn e t = w.withdrawnIn e t
  unattributed : 0 < w.withdrawn e → w.getEventTokens e = []

end World

/-- The migration from `w` to `w'` lost no payment and listed none twice, the counters add up
and the same migration again changes nothing. -/
structure SafelyMigrated (env : Env) (admin : Address) (e : Symbol) (w w' : World) : Prop where
  nodup : (w'.getEventPayments e).Nodup
  mem_iff : ∀ id,
    id ∈ w'.getEventPayments e ↔ id ∈ w.legacyPayments e ∨ id ∈ w.getEventPayments e
  accounted : w'.Accounted e
  again : migrateEvent env admin e w' = .ok w'

section Sweep

def World.Quiet (env : Env) (w : World) (ids : List ℕ) : Prop :=
  ∀ id ∈ ids, ∀ dispute, w.getDispute id = some dispute → disputeExpired env dispute = false

theorem sweepDisputes_quiet {ids : List ℕ} (quiet : w.Quiet env ids) :
    ∃ remaining, sweepDisputes env e ids w = .ok (remaining, false, w) := by
  induction ids with
  | nil => exact ⟨[], rfl⟩
  | cons id rest ih =>
    obtain ⟨remaining, swept⟩ := ih fun id mem => quiet id (List.mem_cons_of_mem _ mem)
    rw [sweepDisputes]
    cases found : w.getDispute id with
    | none => exact ⟨remaining, swept⟩
    | some dispute =>
      have running := quiet id (List.mem_cons_self ..) dispute found
      refine ⟨id :: remaining, ?_⟩
      simp only [running, Bool.false_eq_true, if_false, swept]
      rfl

theorem returnDisputed_disputes {id : ℕ} :
    Yields (returnDisputed w e id) fun w' => ∀ id, w'.getDispute id = w.getDispute id := by
  unfold returnDisputed
  split
  · exact .pure fun _ => rfl
  · split
    · refine .bind (P := fun w' => ∀ id, w'.getDispute id = w.getDispute id) ?_ fun w₁ h₁ => ?_
      · refine .skip fun _ => .pure fun _ => ?_
        exact Store.get_set_of_ne _ _ (by simp)
      · refine .bind (P := fun w' => ∀ id, w'.getDispute id = w.getDispute id) ?_ fun w₂ h₂ => ?_
        · refine .skip fun _ => .skip fun _ => .pure fun id => ?_
          exact (Store.get_set_of_ne _ _ (by simp)).trans (h₁ id)
        · refine .skip fun _ => .pure fun id => ?_
          exact (Store.get_set_of_ne _ _ (by simp)).trans (h₂ id)
    · exact .pure fun _ => rfl

/-- A sweep only removes disputes; those it keeps listed are running, and if it removed none it
changed nothing. -/
theorem sweepDisputes_keeps {ids : List ℕ} :
    Yields (sweepDisputes env e ids w) fun swept =>
      (∀ id dispute, swept.2.2.getDispute id = some dispute → w.getDispute id = some dispute) ∧
      swept.2.2.Quiet env swept.1 ∧ (swept.2.1 = false → swept.2.2 = w) := by
  induction ids generalizing w with
  | nil => exact .pure ⟨fun _ _ h => h, nofun, fun _ => rfl⟩
  | cons id rest ih =>
    unfold sweepDisputes
    split
    · exact ih
    · rename_i dispute found
      split
      · refine returnDisputed_disputes.bind fun w₁ h₁ => ih.bind fun swept h₂ => .pure ?_
        refine ⟨fun id' dispute' still => ?_, h₂.2.1, nofun⟩
        have before : (w₁.remove (.dispute id)).get (.dispute id') = some dispute' :=
          h₂.1 id' dispute' still
        by_cases same : id' = id
        · subst same
          rw [World.remove, World.get, Store.get_remove_self] at before
          cases before
        · exact (h₁ id').symm.trans ((Store.get_remove_of_ne _ (by simp [same])).symm.trans before)
      · rename_i running
        refine ih.bind fun swept h => .pure ⟨h.1, ?_, h.2.2⟩
        intro id' mem dispute' still
        obtain rfl | mem := List.mem_cons.mp mem
        · rw [h.1 id' dispute' still] at found
          obtain rfl := Option.some.inj found
          simpa using running
        · exact h.2.1 id' mem dispute' still

theorem processTimedOutDisputes_again (h : processTimedOutDisputes env e w = .ok w') :
    processTimedOutDisputes env e w' = .ok w' := by
  have whole := h
  simp only [processTimedOutDisputes, bind_eq_ok, pure_eq_ok] at h
  obtain ⟨⟨remaining, modified, w₁⟩, swept, result⟩ := h
  obtain ⟨-, quiet, unmoved⟩ := sweepDisputes_keeps _ swept
  cases modified with
  | false =>
    obtain rfl : w₁ = w := unmoved rfl
    obtain rfl : w₁ = w' := result
    exact whole
  | true =>
    obtain rfl : w₁.setEventDisputes e remaining = w' := result
    have listed : (w₁.setEventDisputes e remaining).getEventDisputes e = remaining :=
      congrArg (Option.getD · [])
        (Store.get_set_self w₁.storage (.eventDisputes e) remaining)
    have still : (w₁.setEventDisputes e remaining).Quiet env remaining := by
      intro id mem dispute found
      exact quiet id mem dispute ((Store.get_set_of_ne _ _ (by simp)).symm.trans found)
    obtain ⟨left, again⟩ := sweepDisputes_quiet (e := e) still
    rw [processTimedOutDisputes, listed, again]
    rfl

theorem validateRevenueInvariant_again (h : validateRevenueInvariant env e w = .ok w') :
    validateRevenueInvariant env e w' = .ok w' := by
  simp only [validateRevenueInvariant, bind_eq_ok, pure_eq_ok] at h
  obtain ⟨w₁, swept, ⟨⟩, checked, rfl⟩ := h
  rw [validateRevenueInvariant, processTimedOutDisputes_again swept]
  exact bind_eq_ok.mpr ⟨_, rfl, bind_eq_ok.mpr ⟨(), checked, rfl⟩⟩

end Sweep

section Migration

def DataKey.IsRecounted : DataKey → Bool
  | .eventPaymentsCount _ | .totalPayments _ | .totalRefunds _ | .totalWithdrawn _
  | .totalTokenWithdrawn _ _ | .eventPayments _ => true
  | k => k.IsSwept

def DataKey.IsAttributed : DataKey → Bool
  | .totalTokenWithdrawn _ _ | .eventPayments _ => true
  | k => k.IsSwept

theorem DataKey.recounted_of_attributed (k : DataKey) (other : (!k.IsRecounted) = true) :
    (!k.IsAttributed) = true := by
  cases k <;> first | rfl | cases other

theorem DataKey.attributed_of_swept (k : DataKey) (other : (!k.IsAttributed) = true) :
    (!k.IsSwept) = true := by
  cases k <;> first | rfl | cases other

/-- Any migration removes the legacy vector and sets the count to its length. -/
theorem migrateEvent_counts (h : migrateEvent env admin e w = .ok w') :
    w'.get (.eventPayments e) = none ∧
      w'.get (.eventPaymentsCount e) = some (w.legacyPayments e).length := by
  simp only [migrateEvent, bind_eq_ok] at h
  obtain ⟨-, -, -, -, -, -, -, -, ⟨payments, refunds, w₁⟩, -, total, -, w₂, attributed, valid⟩ := h
  have swept := validateRevenueInvariant_leaves (P := fun k => !k.IsSwept) _
    (fun k swept => by simp [swept]) _ valid
  refine ⟨(swept _ rfl).trans (Store.get_remove_self _ _), (swept _ rfl).trans ?_⟩
  refine (Store.get_remove_of_ne _ (by simp)).trans ?_
  have kept : ∀ w : World, Yields (migrateWithdrawn w e total)
      (w.Leaves fun k => !k.IsAttributed) := by
    intro w
    unfold migrateWithdrawn
    split
    · refine .skip fun _ => ?_
      split
      · exact .pure (.refl _ w)
      · exact written_leaves rfl
    · exact .pure (.refl _ w)
  refine (kept _ _ attributed _ rfl).trans ?_
  simp [World.get, World.set, World.legacyPayments]

theorem World.Leaves.records (h : w.Leaves (fun k => !k.IsRecounted) w') (e : Symbol) :
    w'.getWithdrawalHistory e = w.getWithdrawalHistory e ∧
      w'.getEventTokens e = w.getEventTokens e := by
  constructor
  · simp only [World.getWithdrawalHistory, World.getWithdrawalCount, h (.withdrawalCount e) rfl,
      fun i => h (.withdrawalRecord e i) rfl]
  · simp only [World.getEventTokens, World.getEventTokenCount, h (.eventTokenCount e) rfl,
      fun i => h (.eventTokenIndex e i) rfl]

theorem World.Leaves.withdrawn (h : w.Leaves (fun k => !k.IsRecounted) w') (e : Symbol) :
    w'.withdrawn e = w.withdrawn e := by
  rw [World.withdrawn, (h.records e).1, World.withdrawn]

theorem World.Leaves.withdrawnIn (h : w.Leaves (fun k => !k.IsRecounted) w') (e : Symbol)
    (t : Address) : w'.withdrawnIn e t = w.withdrawnIn e t := by
  rw [World.withdrawnIn, h.withdrawn, (h.records e).2, World.withdrawnIn]

theorem sum_of_foldlM {records : List WithdrawalRecord} {start total : ℤ}
    (h : records.foldlM (fun total record => i128 (total + record.amount)) start =
      (.ok total : Attempt ℤ)) : total = start + (records.map (·.amount)).sum := by
  induction records generalizing start with
  | nil =>
    cases h
    simp
  | cons record rest ih =>
    simp only [List.foldlM_cons, bind_eq_ok, i128_eq_ok] at h
    obtain ⟨_, ⟨-, rfl⟩, h⟩ := h
    rw [ih h, List.map_cons, List.sum_cons, add_assoc]

structure Recounted (env : Env) (admin : Address) (e : Symbol) (w w' : World) : Prop where
  unpaused : w.isPaused = false
  signed : env.authorized admin = true
  admin : w.get .admin = some admin
  leaves : w.Leaves (fun k => !k.IsRecounted) w'
  legacy : w'.get (.eventPayments e) = none
  count : w'.get (.eventPaymentsCount e) = some 0
  payments : w'.get (.totalPayments e) = some 0
  refunds : w'.get (.totalRefunds e) = some 0
  withdrawn : w'.get (.totalWithdrawn e) = some (w.withdrawn e)
  counted : (w.getWithdrawalHistory e).foldlM (fun total record => i128 (total + record.amount)) 0 =
    (.ok (w.withdrawn e) : Attempt ℤ)
  attributed : ∀ t, w'.getTotalTokenWithdrawn e t =
    w.getTotalTokenWithdrawn e t + if 0 < w.withdrawn e then w.withdrawnIn e t else 0
  single : 0 < w.withdrawn e → (w.getEventTokens e).length ≤ 1
  valid : validateRevenueInvariant env e w' = .ok w'

theorem migrateWithdrawn_attributes {total : ℤ} (h : migrateWithdrawn w e total = .ok w')
    (sum : total = w.withdrawn e) :
    w.Leaves (fun k => !k.IsAttributed) w' ∧
      (∀ t, w'.getTotalTokenWithdrawn e t =
        w.getTotalTokenWithdrawn e t + if 0 < total then w.withdrawnIn e t else 0) ∧
      (0 < total → (w.getEventTokens e).length ≤ 1) := by
  unfold migrateWithdrawn at h
  split at h
  · rename_i positive
    simp only [bind_eq_ok, require_eq_ok] at h
    obtain ⟨-, single, h⟩ := h
    simp only [positive, if_true, World.withdrawnIn, ← sum]
    split at h
    · rename_i none
      cases h
      refine ⟨.refl _ w, fun t => ?_, fun _ => single⟩
      simp [none]
    · rename_i token rest some
      obtain rfl : rest = [] := by
        rw [some, List.length_cons] at single
        exact List.length_eq_zero_iff.mp (by omega)
      simp only [World.addTotalTokenWithdrawn, bind_eq_ok, i128_eq_ok, pure_eq_ok] at h
      obtain ⟨_, ⟨-, rfl⟩, rfl⟩ := h
      refine ⟨.set _ rfl, fun t => ?_, fun _ => single⟩
      rw [some]
      by_cases same : t = token
      · subst same
        simp [World.getTotalTokenWithdrawn, World.get, World.set]
      · have other : [token] ≠ [t] := by
          rintro ⟨⟩
          exact same rfl
        rw [if_neg other, add_zero]
        exact congrArg (Option.getD · 0) (Store.get_set_of_ne _ _ (by simp [same]))
  · rename_i none
    cases h
    simp only [none, if_false, add_zero, implies_true, false_implies, and_true]
    exact .refl _ w

theorem migrateEvent_recounted (h : migrateEvent env admin e w = .ok w')
    (legacy : w.legacyPayments e = []) : Recounted env admin e w w' := by
  obtain ⟨cleared, count⟩ := migrateEvent_counts h
  rw [legacy] at count
  unfold World.legacyPayments at legacy
  simp only [migrateEvent, bind_eq_ok, requireAuth_eq_ok, require_eq_ok, World.getAdmin, okOr_eq_ok,
    requireNotPaused, legacy, migratePayments, pure_eq_ok] at h
  obtain ⟨-, unpaused, -, signed, owner, stored, -, rfl, _, rfl, total, counted, w₂, attributed,
    valid⟩ := h
  have totals (total : ℤ) : w.Leaves (fun k => !k.IsRecounted)
      ((((w.set (.eventPaymentsCount e) 0).set (.totalPayments e) (0 : ℤ)).set (.totalRefunds e)
        (0 : ℤ)).set (.totalWithdrawn e) total) :=
    .trans (.set _ rfl) (.trans (.set _ rfl) (.trans (.set _ rfl) (.set _ rfl)))
  have history : (((w.set (.eventPaymentsCount e) 0).set (.totalPayments e) (0 : ℤ)).set
      (.totalRefunds e) (0 : ℤ)).getWithdrawalHistory e = w.getWithdrawalHistory e :=
    ((totals 0).records e).1
  dsimp only [List.length_nil] at counted attributed
  rw [history] at counted
  obtain rfl : total = w.withdrawn e := (sum_of_foldlM counted).trans (zero_add _)
  have before := totals (w.withdrawn e)
  obtain ⟨aside, attributes, single⟩ :=
    migrateWithdrawn_attributes attributed (before.withdrawn e).symm
  have swept : (w₂.remove (.eventPayments e)).Leaves (fun k => !k.IsSwept) w' :=
    validateRevenueInvariant_leaves _ (fun k swept => by simp [swept]) _ valid
  have after := aside.trans (.trans (.remove rfl) (swept.mono DataKey.attributed_of_swept))
  refine
    { unpaused, signed, admin := stored, legacy := cleared, count, counted
      leaves := before.trans (after.mono DataKey.recounted_of_attributed)
      payments := (after _ rfl).trans ?_
      refunds := (after _ rfl).trans ?_
      withdrawn := (after _ rfl).trans (Store.get_set_self _ _ _)
      attributed := fun t => ?_
      single := by rwa [(before.records e).2] at single
      valid := validateRevenueInvariant_again valid }
  · simp [World.get, World.set]
  · simp [World.get, World.set]
  · have total : w'.getTotalTokenWithdrawn e t = w₂.getTotalTokenWithdrawn e t :=
      congrArg (Option.getD · 0) ((swept _ rfl).trans (Store.get_remove_of_ne _ (by simp)))
    rw [total, attributes t, before.withdrawnIn]
    simp [World.getTotalTokenWithdrawn, World.get, World.set]

theorem World.set_eq_self {k : DataKey} {v : k.Val} (stored : w.get k = some v) : w.set k v = w := by
  have same : w.storage.set k v = w.storage :=
    Store.ext ((Function.update_eq_self_iff).mpr stored.symm)
  rw [World.set, same]

theorem World.remove_eq_self {k : DataKey} (absent : w.get k = none) : w.remove k = w := by
  have same : w.storage.remove k = w.storage :=
    Store.ext ((Function.update_eq_self_iff).mpr absent.symm)
  rw [World.remove, same]

theorem migrateWithdrawn_idle {total : ℤ} (unattributed : 0 < total → w.getEventTokens e = []) :
    migrateWithdrawn w e total = .ok w := by
  unfold migrateWithdrawn
  split
  · rename_i positive
    rw [unattributed positive]
    rfl
  · rfl

theorem Recounted.again (h : Recounted env admin e w w')
    (unattributed : 0 < w.withdrawn e → w.getEventTokens e = []) :
    migrateEvent env admin e w' = .ok w' := by
  have legacy : (w'.get (.eventPayments e)).getD [] = [] := congrArg (Option.getD · []) h.legacy
  have unpaused : w'.isPaused = false :=
    (congrArg (Option.getD · false) (h.leaves .paused rfl)).trans h.unpaused
  have counted : (w'.getWithdrawalHistory e).foldlM
      (fun total record => i128 (total + record.amount)) 0 = (.ok (w.withdrawn e) : Attempt ℤ) := by
    rw [(h.leaves.records e).1]
    exact h.counted
  have idle : migrateWithdrawn w' e (w.withdrawn e) = .ok w' :=
    migrateWithdrawn_idle fun positive => (h.leaves.records e).2.trans (unattributed positive)
  simp only [migrateEvent, bind_eq_ok, requireAuth_eq_ok, require_eq_ok, World.getAdmin, okOr_eq_ok,
    requireNotPaused, legacy, migratePayments, pure_eq_ok, List.length_nil]
  refine ⟨(), unpaused, (), h.signed, admin, (h.leaves .admin rfl).trans h.admin, (), rfl, _, rfl,
    w.withdrawn e, ?_, w', ?_, ?_⟩
  · dsimp only
    rwa [World.set_eq_self h.count, World.set_eq_self h.payments, World.set_eq_self h.refunds]
  · dsimp only
    rwa [World.set_eq_self h.count, World.set_eq_self h.payments, World.set_eq_self h.refunds,
      World.set_eq_self h.withdrawn]
  · rw [World.remove_eq_self h.legacy]
    exact h.valid

theorem Recounted.getEventPayments (h : Recounted env admin e w w') :
    w'.getEventPayments e = [] := by
  rw [World.getEventPayments, World.getEventPaymentsCount, h.count]
  rfl

theorem Recounted.accounted_iff (h : Recounted env admin e w w') : w'.Accounted e ↔
    (∀ t, w.getTotalTokenVolume e t = 0) ∧ (∀ t, w.getTotalTokenRefunds e t = 0) ∧
      ∀ t, w'.getTotalTokenWithdrawn e t = w.withdrawnIn e t := by
  have volume (t : Address) : w'.getTotalTokenVolume e t = w.getTotalTokenVolume e t :=
    congrArg (Option.getD · 0) (h.leaves (.eventTokenVolume e t) rfl)
  have refunded (t : Address) : w'.getTotalTokenRefunds e t = w.getTotalTokenRefunds e t :=
    congrArg (Option.getD · 0) (h.leaves (.totalTokenRefunds e t) rfl)
  have indexed : w'.indexed e = [] := by rw [World.indexed, h.getEventPayments, List.filterMap_nil]
  have indexedIn (t : Address) : w'.indexedIn e t = [] := by
    rw [World.indexedIn, indexed, List.filter_nil]
  constructor
  · intro accounted
    refine ⟨fun t => ?_, fun t => ?_, fun t => ?_⟩
    · rw [← volume, accounted.tokenVolume, indexedIn, List.map_nil, List.sum_nil]
    · rw [← refunded, accounted.tokenRefunds, indexedIn, List.map_nil, List.sum_nil]
    · rw [accounted.tokenWithdrawn, h.leaves.withdrawnIn]
  · rintro ⟨noVolume, noRefunds, attributed⟩
    refine ⟨?_, ?_, ?_, fun t => ?_, fun t => ?_, fun t => ?_⟩
    · rw [World.getTotalPayments, h.payments, indexed]
      rfl
    · rw [World.getTotalRefunds, h.refunds, indexed]
      rfl
    · rw [World.getTotalWithdrawn, h.withdrawn, h.leaves.withdrawn]
      rfl
    · rw [volume, noVolume, indexedIn, List.map_nil, List.sum_nil]
    · rw [refunded, noRefunds, indexedIn, List.map_nil, List.sum_nil]
    · rw [attributed, h.leaves.withdrawnIn]

end Migration

/-- A migration is safe to run and to run again exactly when there is nothing to migrate. -/
theorem migration_safe_iff (env : Env) (admin : Address) (e : Symbol) (w w' : World)
    (h : migrateEvent env admin e w = .ok w') :
    SafelyMigrated env admin e w w' ↔ w.NothingToMigrate e := by
  constructor
  · intro safe
    obtain ⟨cleared, count⟩ := migrateEvent_counts h
    have legacy : w.legacyPayments e = [] := by
      have emptied : w'.legacyPayments e = [] := congrArg (Option.getD · []) cleared
      have recount := (migrateEvent_counts safe.again).2
      rw [count, emptied] at recount
      exact List.length_eq_zero_iff.mp (Option.some.inj recount)
    have recounted := migrateEvent_recounted h legacy
    obtain ⟨noVolume, noRefunds, attributed⟩ := recounted.accounted_iff.mp safe.accounted
    have again (t : Address) := (migrateEvent_recounted safe.again
      (congrArg (Option.getD · []) recounted.legacy)).attributed t
    simp only [recounted.leaves.withdrawn, recounted.leaves.withdrawnIn] at again
    -- what a migration attributes, it attributes once more
    have nothingIn (positive : 0 < w.withdrawn e) (t : Address) : w.withdrawnIn e t = 0 := by
      have twice := again t
      rw [if_pos positive] at twice
      omega
    refine ⟨legacy, ?_, noVolume, noRefunds, fun t => ?_, fun positive => ?_⟩
    · refine List.eq_nil_iff_forall_not_mem.mpr fun id listed => ?_
      have kept := (safe.mem_iff id).mpr (.inr listed)
      rw [recounted.getEventPayments] at kept
      cases kept
    · have once := recounted.attributed t
      rw [attributed] at once
      by_cases positive : 0 < w.withdrawn e
      · rw [if_pos positive, nothingIn positive] at once
        rw [nothingIn positive]
        omega
      · rw [if_neg positive] at once
        omega
    · cases tokens : w.getEventTokens e with
      | nil => rfl
      | cons t rest =>
        have single := recounted.single positive
        rw [tokens, List.length_cons] at single
        obtain rfl : rest = [] := List.length_eq_zero_iff.mp (by omega)
        have none := nothingIn positive t
        rw [World.withdrawnIn, if_pos tokens] at none
        omega
  · intro nothing
    have recounted := migrateEvent_recounted h nothing.legacy
    refine ⟨?_, fun id => ?_, recounted.accounted_iff.mpr ⟨nothing.tokenVolume,
      nothing.tokenRefunds, fun t => ?_⟩, recounted.again nothing.unattributed⟩
    · rw [recounted.getEventPayments]
      exact .nil
    · rw [recounted.getEventPayments, nothing.legacy, nothing.indexed]
      simp
    · rw [recounted.attributed, nothing.tokenWithdrawn]
      split
      · rename_i positive
        simp [World.withdrawnIn, nothing.unattributed positive]
      · exact add_zero _

namespace Sample

def soldOne : List Step := opening ++ [sale 2 1 bob concert 100]

end Sample

theorem migration_safe_iff_unsold :
    ∃ w', migrateEvent ⟨Sample.deployment, Sample.invocation 3⟩ Sample.admin Sample.festival
        (run (World.next Sample.deployment) (deployed Sample.noBalances) Sample.soldOne) = .ok w' ∧
      SafelyMigrated ⟨Sample.deployment, Sample.invocation 3⟩ Sample.admin Sample.festival
        (run (World.next Sample.deployment) (deployed Sample.noBalances) Sample.soldOne) w' := by
  have accepted : (Call.migrateEvent Sample.admin Sample.festival).succeeds
      ⟨Sample.deployment, Sample.invocation 3⟩
      (run (World.next Sample.deployment) (deployed Sample.noBalances) Sample.soldOne) = true := by
    decide
  obtain ⟨w', result⟩ := succeeds_iff.mp accepted
  have nothing : World.NothingToMigrate (run (World.next Sample.deployment)
      (deployed Sample.noBalances) Sample.soldOne) Sample.festival :=
    ⟨by decide, by decide, fun _ => rfl, fun _ => rfl, fun _ => rfl, by decide⟩
  exact ⟨w', result, (migration_safe_iff _ _ _ _ _ result).mpr nothing⟩

/-- The payment that is indexed is lost. -/
theorem migration_drops_payment :
    let w := run (World.next Sample.deployment) (deployed Sample.noBalances) Sample.soldOne
    w.getEventPayments Sample.concert = [1] ∧
      ∃ w', migrateEvent ⟨Sample.deployment, Sample.invocation 3⟩ Sample.admin Sample.concert w =
          .ok w' ∧ w'.getEventPayments Sample.concert = [] ∧
        ¬ SafelyMigrated ⟨Sample.deployment, Sample.invocation 3⟩ Sample.admin Sample.concert w
          w' := by
  intro w
  have accepted : (Call.migrateEvent Sample.admin Sample.concert).succeeds
      ⟨Sample.deployment, Sample.invocation 3⟩ w = true := by
    decide
  obtain ⟨w', result⟩ := succeeds_iff.mp accepted
  have emptied := (migrateEvent_recounted result (by decide)).getEventPayments
  refine ⟨by decide, w', result, emptied, fun safe => ?_⟩
  have kept := (safe.mem_iff 1).mpr (.inr (by decide))
  rw [emptied] at kept
  cases kept

end Zicket.Payments
