import Zicket.Privacy.Records
import Zicket.Privacy.Replay

/-! No payment is made twice: over any run, the payments have different replay identities. -/

namespace Zicket.Payments

open Host Foundation Book

/-- What only one payment may be made with. -/
inductive ReplayId where
  | standard (payer : Address) (nonce : ℕ)
  | priv (payer : Address) (nonce : ℕ)
  | anonymous (commitment : Option (BytesN 32))
  deriving DecidableEq

namespace PaymentParams

def replayId (params : PaymentParams) : ReplayId :=
  match params.privacyLevel with
  | .standard => .standard params.payer params.nonce
  | .priv => .priv params.payer params.nonce
  | .anonymous => .anonymous params.nullifierCommitment

def ShownBy (crypto : Crypto) (params : PaymentParams) (p : PaymentRecord) : Prop :=
  p.privacyLevel = params.privacyLevel ∧
  match params.privacyLevel with
  | .standard => p.payer = some params.payer
  | .priv => ∃ key, params.stealthDeliveryKey = some key ∧ p.stealthDeliveryKey = some key ∧
      p.hashedWallet = some (crypto.sha256 (crypto.addressXdr params.payer ++ key.toList))
  | .anonymous => p.nullifierCommitment = params.nullifierCommitment

end PaymentParams

variable {params params' : PaymentParams} {d : Deployment} {w : World}

theorem common_mark (crypto : Crypto) (same : params.replayId = params'.replayId)
    (given : params.privacyLevel = .anonymous → params.nullifierCommitment ≠ none) :
    ∃ mark, mark ∈ params.marks crypto ∧ mark ∈ params'.marks crypto := by
  unfold PaymentParams.replayId at same
  cases level : params.privacyLevel <;> cases level' : params'.privacyLevel <;>
    simp only [level, level', reduceCtorEq, ReplayId.standard.injEq, ReplayId.priv.injEq,
      ReplayId.anonymous.injEq] at same
  · obtain ⟨commitment, some⟩ := Option.ne_none_iff_exists'.mp (given level)
    refine ⟨.nullifier commitment, ?_, ?_⟩
    · simp [PaymentParams.marks, some]
    · simp [PaymentParams.marks, ← same, some]
  · refine ⟨.nonceHash (crypto.sha256 (crypto.addressXdr params.payer)) params.nonce, ?_, ?_⟩
    · simp [PaymentParams.marks, PaymentParams.nonceMark, level]
    · simp [PaymentParams.marks, PaymentParams.nonceMark, level', same]
  · refine ⟨.nonce params.payer params.nonce, ?_, ?_⟩
    · simp [PaymentParams.marks, PaymentParams.nonceMark, level]
    · simp [PaymentParams.marks, PaymentParams.nonceMark, level', same]

theorem built_shownBy {env : Env} {id paidAt : ℕ} {p : PaymentRecord}
    (h : buildPaymentRecord env params id paidAt = .ok p) : params.ShownBy env.crypto p := by
  unfold buildPaymentRecord at h
  unfold PaymentParams.ShownBy
  dsimp only at h
  split at h <;> rename_i level
  all_goals
    simp only [bind_eq_ok, pure_eq_ok, require_eq_ok, okOr_eq_ok] at h
  · obtain ⟨-, -, commitment, given, rfl⟩ := h
    exact ⟨rfl, by simp [level, given]⟩
  · obtain ⟨-, -, key, given, rfl⟩ := h
    exact ⟨rfl, by simp [level, given]⟩
  · obtain ⟨-, -, rfl⟩ := h
    exact ⟨rfl, by simp [level]⟩

theorem PaymentParams.ShownBy.follows {crypto : Crypto} {p q : PaymentRecord}
    (h : params.ShownBy crypto p) (follows : p.Follows q) : params.ShownBy crypto q := by
  rw [← follows.terms] at h
  exact h

structure Replays (d : Deployment) (paid : List (ℕ × PaymentParams)) (w : World) : Prop where
  marked : ∀ mark, w.marked mark = true ↔ ∃ entry ∈ paid, mark ∈ entry.2.marks d.crypto
  distinct : (paid.map fun entry => entry.2.replayId).Nodup
  numbered : (paid.map Prod.fst).Nodup
  known : ∀ entry ∈ paid, w.book.payment entry.1 ≠ none
  shown : ∀ id p, w.book.payment id = some p →
    ∃ params, (id, params) ∈ paid ∧ params.ShownBy d.crypto p

namespace Replays

variable {paid : List (ℕ × PaymentParams)} {w' : World}

theorem carries (h : Replays d paid w) (marks : w.Sets [] w') (records : w.book.Carries w'.book) :
    Replays d paid w' where
  marked mark := by rw [marks mark, h.marked mark]; simp
  distinct := h.distinct
  numbered := h.numbered
  known entry mem := by
    obtain ⟨p, hp⟩ := Option.ne_none_iff_exists'.mp (h.known entry mem)
    obtain ⟨q, hq, -⟩ := records.forth _ p hp
    simp [hq]
  shown id q hq := by
    obtain ⟨p, hp, follows⟩ := records.back id q hq
    obtain ⟨params, mem, shown⟩ := h.shown id p hp
    exact ⟨params, mem, shown.follows follows⟩

/-- A purchase finds its marks unset, so no payment of its identity was made before. -/
theorem pays (h : Replays d paid w) {invocation : Invocation} {id : ℕ}
    (made : createPayment ⟨d, invocation⟩ params w = .ok (id, w')) :
    Replays d ((id, params) :: paid) w' := by
  obtain ⟨sells⟩ := createPayment_sells made
  obtain ⟨p, built, fresh, payment⟩ := createPayment_records made
  obtain ⟨unset, sets⟩ := sells.marks
  constructor
  case marked =>
    intro mark
    rw [sets mark, h.marked mark]
    simp
  case distinct =>
    refine List.nodup_cons.mpr ⟨fun mem => ?_, h.distinct⟩
    obtain ⟨entry, earlier, same⟩ := List.mem_map.mp mem
    obtain ⟨mark, mine, theirs⟩ := common_mark d.crypto same.symm (built_identity built).2.2
    have marked := (h.marked mark).mpr ⟨entry, earlier, theirs⟩
    rw [unset mark mine] at marked
    cases marked
  case numbered =>
    refine List.nodup_cons.mpr ⟨fun mem => ?_, h.numbered⟩
    obtain ⟨entry, earlier, rfl⟩ := List.mem_map.mp mem
    exact h.known entry earlier fresh
  case known =>
    intro entry mem
    rw [payment]
    obtain rfl | earlier := List.mem_cons.mp mem
    · simp
    · by_cases same : entry.1 = id
      · simp [same]
      · rw [Function.update_of_ne same]
        exact h.known entry earlier
  case shown =>
    intro id' q hq
    rw [payment] at hq
    obtain ⟨rfl, rfl⟩ | ⟨-, old⟩ := update_eq_some.mp hq
    · exact ⟨params, List.mem_cons_self .., built_shownBy built⟩
    · obtain ⟨params', mem, shown⟩ := h.shown id' q old
      exact ⟨params', List.mem_cons_of_mem _ mem, shown⟩

end Replays

theorem next_sets_nothing {step : Step} (unpaid : paidFor d w step = none) :
    w.Sets [] (w.next d step) := by
  have same : w.Sets [] w := (World.Leaves.refl DataKey.IsReplay w).sets fun _ h => h
  cases step with
  | call invocation c =>
    rw [World.next]
    cases result : c.exec ⟨d, invocation⟩ w with
    | error e => exact same
    | ok w' =>
      cases asked : c.params with
      | none => exact exec_sets_nothing asked result
      | some params =>
        rw [exec_params asked, bind_eq_ok] at result
        obtain ⟨⟨id, _⟩, result, -⟩ := result
        simp [paidFor, asked, result] at unpaid
  | mint =>
    rw [World.next]
    split <;> exact same
  | pay token src dst amount =>
    obtain ⟨balances, -, effect⟩ := payOutside_sound d w token src dst amount
    rw [World.next, effect]
    exact same

theorem next_replays {paid : List (ℕ × PaymentParams)} (kept : w.book.Kept)
    (h : Replays d paid w) (step : Step) :
    Replays d ((paidFor d w step).toList ++ paid) (w.next d step) := by
  cases made : paidFor d w step with
  | none => exact h.carries (next_sets_nothing made) (next_carries kept made)
  | some entry =>
    obtain ⟨invocation, made⟩ := paidFor_eq_some made
    exact h.pays made

theorem deployed_replays (balances : Balances Address Address) :
    Replays d [] (deployed balances) where
  marked mark := by cases mark <;> simp [World.marked] <;> rfl
  distinct := List.nodup_nil
  numbered := List.nodup_nil
  known _ mem := absurd mem List.not_mem_nil
  shown id p stored := by
    have nothing : (deployed balances).book.payment id = none := rfl
    rw [nothing] at stored
    cases stored

/-- The payments of a run are made under different identities and numbers, are those on record,
and are the only ones to set marks; a call that fails changes nothing. -/
theorem replay_protected (d : Deployment) (balances : Balances Address Address)
    (steps : List Step) :
    let paid := told (World.next d) (paidFor d) (deployed balances) steps
    let w := run (World.next d) (deployed balances) steps
    (paid.map fun entry => entry.2.replayId).Nodup ∧
    (paid.map fun entry => entry.1).Nodup ∧
    (∀ entry ∈ paid, ∃ p, w.getPayment entry.1 = .ok p) ∧
    (∀ id p, w.getPayment id = .ok p →
      ∃ params, (id, params) ∈ paid ∧ params.ShownBy d.crypto p) ∧
    (∀ mark, w.marked mark = true ↔ ∃ entry ∈ paid, mark ∈ entry.2.marks d.crypto) ∧
    ∀ invocation c, c.succeeds ⟨d, invocation⟩ w = false → w.next d (.call invocation c) = w := by
  intro paid w
  have each : ∀ paid (w : World) step, w.book.Kept ∧ Replays d paid w → True →
      (w.next d step).book.Kept ∧
        Replays d ((paidFor d w step).toList ++ paid) (w.next d step) :=
    fun paid w step inv _ => ⟨next_kept w step inv.1, next_replays inv.1 inv.2 step⟩
  have reached : Replays d (paid ++ []) w :=
    (told_invariant (I := fun paid (w : World) => w.book.Kept ∧ Replays d paid w) each
      (along_of_forall (fun _ _ => trivial) _ steps)
      ⟨deployed_kept balances, deployed_replays balances⟩).2
  rw [List.append_nil] at reached
  refine ⟨reached.distinct, reached.numbered, fun entry mem => ?_, fun id p stored => ?_,
    reached.marked, fun invocation c failed => ?_⟩
  · obtain ⟨p, hp⟩ := Option.ne_none_iff_exists'.mp (reached.known entry mem)
    exact ⟨p, okOr_eq_ok.mpr hp⟩
  · exact reached.shown id p (okOr_eq_ok.mp stored)
  · rw [World.next]
    cases result : c.exec ⟨d, invocation⟩ w with
    | error e => rfl
    | ok w' => simp [Call.succeeds, result, Except.isOk, Except.toBool] at failed

end Zicket.Payments
