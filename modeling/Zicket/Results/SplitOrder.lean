import Mathlib.Algebra.BigOperators.Group.Finset.Basic
import Mathlib.Algebra.Order.BigOperators.Group.Finset
import Zicket.Foundation.Serving
import Zicket.Results.Splits

/-! The order of the withdrawals of a settled split. All shares are paid out of one pool of
the token, on which the other events draw too, and are counted in fixed-width counters. -/

namespace Zicket.Payments

open Host Foundation Book

section Room

variable (d : Deployment) (w : World) (e : Symbol) (s : SplitSettlement)

def World.shareOf (who : Address) : ℤ := splitShare (w.getSplits e) who s.netDistributable

/-- Only its signature keeps the recipient from its share once `paid` have theirs. A share of
the contract itself would stay in the pool. -/
def World.CanPay (paid : Finset Address) (who : Address) : Prop :=
  w.isPaused = false ∧ findSplitBps (w.getSplits e) who ≠ none ∧
    w.isSplitFlagged e who = false ∧ w.getSplitWithdrawn e who ≤ 0 ∧
    recipientShare (w.getSplits e) who s.netDistributable = .ok (w.shareOf e s who) ∧
    0 < w.shareOf e s who ∧
    ∑ other ∈ paid.erase d.currentContract, w.shareOf e s other + w.shareOf e s who ≤
      w.balances s.token d.currentContract ∧
    w.getTotalWithdrawn e + (∑ other ∈ paid, w.shareOf e s other + w.shareOf e s who) < 2 ^ 127 ∧
    w.getTotalTokenWithdrawn e s.token +
      (∑ other ∈ paid, w.shareOf e s other + w.shareOf e s who) < 2 ^ 127 ∧
    w.getWithdrawalCount e + (paid.card + 1) < 2 ^ 32

instance (paid : Finset Address) (who : Address) : Decidable (w.CanPay d e s paid who) :=
  inferInstanceAs (Decidable (_ ∧ _))

def World.payable : Finset Address :=
  ((w.getSplits e).map (·.recipient)).toFinset.filter (w.CanPay d e s ∅)

/-- If anyone can be paid (the contract apart, whose share would stay in the pool), the pool
and the counters have room for everyone that can be paid. -/
def World.CoversShares : Prop :=
  (∃ who ∈ w.payable d e s, who ≠ d.currentContract) →
    ∑ who ∈ (w.payable d e s).erase d.currentContract, w.shareOf e s who ≤
        w.balances s.token d.currentContract ∧
      w.getTotalWithdrawn e + ∑ who ∈ w.payable d e s, w.shareOf e s who < 2 ^ 127 ∧
      w.getTotalTokenWithdrawn e s.token + ∑ who ∈ w.payable d e s, w.shareOf e s who < 2 ^ 127 ∧
      w.getWithdrawalCount e + (w.payable d e s).card < 2 ^ 32

instance : Decidable (w.CoversShares d e s) := inferInstanceAs (Decidable (_ → _))

def withdrawal (r : Invocation × Address) : Step := .call r.1 (.withdrawSplit r.2 e)

/-- The withdrawals of the event leave the same balances in every order. -/
def World.OrderIndependent : Prop :=
  ∀ first second : List (Invocation × Address), first.Perm second →
    (run (World.next d) w (first.map (withdrawal e))).balances =
      (run (World.next d) w (second.map (withdrawal e))).balances

end Room

section Withdrawing

variable {env : Env} {d : Deployment} {w w' w₀ : World} {e : Symbol} {s : SplitSettlement}
  {who : Address} {paid : Finset Address}

theorem ensureSplitSettled_of_settled (env : Env) (settled : w.getSplitSettlement e = some s) :
    ensureSplitSettled env e w = .ok (s, w) := by
  unfold ensureSplitSettled
  rw [settled]
  rfl

structure SharePaid (contract : Address) (e : Symbol) (s : SplitSettlement) (who : Address)
    (w w' : World) : Prop where
  paused : w'.isPaused = w.isPaused
  splits : w'.getSplits e = w.getSplits e
  settlement : w'.getSplitSettlement e = w.getSplitSettlement e
  flagged : w'.isSplitFlagged e = w.isSplitFlagged e
  withdrawn : w'.getSplitWithdrawn e =
    Function.update (w.getSplitWithdrawn e) who (w.shareOf e s who)
  balances : w'.balances = (w.balances.credit s.token contract (-w.shareOf e s who)).credit
    s.token who (w.shareOf e s who)
  total : w'.getTotalWithdrawn e = w.getTotalWithdrawn e + w.shareOf e s who
  ofToken : w'.getTotalTokenWithdrawn e s.token =
    w.getTotalTokenWithdrawn e s.token + w.shareOf e s who
  records : w'.getWithdrawalCount e = w.getWithdrawalCount e + 1

theorem bookWithdrawal_eq_ok {t : Address} {x : ℤ} (h : bookWithdrawal env w e t who x = .ok w') :
    InI128 (w.getTotalWithdrawn e + x) ∧ InI128 (w.getTotalTokenWithdrawn e t + x) ∧
      w.getWithdrawalCount e + 1 < 2 ^ 32 ∧
      w' = (((w.set (.totalWithdrawn e) (w.getTotalWithdrawn e + x)).set (.totalTokenWithdrawn e t)
        (w.getTotalTokenWithdrawn e t + x)).set (.withdrawalRecord e (w.getWithdrawalCount e))
          { amount := x, timestamp := env.timestamp, organizer := who }).set (.withdrawalCount e)
            (w.getWithdrawalCount e + 1) := by
  simp only [bookWithdrawal, World.addTotalWithdrawn, World.addTotalTokenWithdrawn,
    World.addWithdrawalRecord, bind_eq_ok, pure_eq_ok, i128_eq_ok, u32_eq_ok] at h
  obtain ⟨_, ⟨_, ⟨total, rfl⟩, rfl⟩, _, ⟨_, ⟨token, rfl⟩, rfl⟩, _, ⟨records, rfl⟩, rfl⟩ := h
  exact ⟨total, token, records, rfl⟩

theorem canPay_empty : w.CanPay d e s ∅ who ↔ w.isPaused = false ∧
    findSplitBps (w.getSplits e) who ≠ none ∧ w.isSplitFlagged e who = false ∧
    w.getSplitWithdrawn e who ≤ 0 ∧
    recipientShare (w.getSplits e) who s.netDistributable = .ok (w.shareOf e s who) ∧
    0 < w.shareOf e s who ∧ w.shareOf e s who ≤ w.balances s.token d.currentContract ∧
    w.getTotalWithdrawn e + w.shareOf e s who < 2 ^ 127 ∧
    w.getTotalTokenWithdrawn e s.token + w.shareOf e s who < 2 ^ 127 ∧
    w.getWithdrawalCount e + 1 < 2 ^ 32 := by
  simp only [World.CanPay, Finset.erase_empty, Finset.sum_empty, zero_add, Finset.card_empty]

theorem sharePaid_of_booked {contract : Address} {record : WithdrawalRecord}
    (balances : w'.balances = (w.balances.credit s.token contract (-w.shareOf e s who)).credit
      s.token who (w.shareOf e s who))
    (storage : w'.storage = (((((w.set (.splitWithdrawn e who) (w.shareOf e s who)).set
      (.totalWithdrawn e) (w.getTotalWithdrawn e + w.shareOf e s who)).set
        (.totalTokenWithdrawn e s.token) (w.getTotalTokenWithdrawn e s.token +
          w.shareOf e s who)).set (.withdrawalRecord e (w.getWithdrawalCount e)) record).set
            (.withdrawalCount e) (w.getWithdrawalCount e + 1)).storage) :
    SharePaid contract e s who w w' where
  paused := by simp [World.isPaused, World.get, storage, World.set]
  splits := by simp [World.getSplits, World.get, storage, World.set]
  settlement := by simp [World.getSplitSettlement, World.get, storage, World.set]
  flagged := by
    funext other
    simp [World.isSplitFlagged, World.get, storage, World.set]
  withdrawn := by
    funext other
    obtain rfl | differ := eq_or_ne other who
    · simp [World.getSplitWithdrawn, World.get, storage, World.set]
    · simp [World.getSplitWithdrawn, World.get, storage, World.set, differ]
  balances := balances
  total := by simp [World.getTotalWithdrawn, World.get, storage, World.set]
  ofToken := by simp [World.getTotalTokenWithdrawn, World.get, storage, World.set]
  records := by simp [World.getWithdrawalCount, World.get, storage, World.set]

theorem withdrawSplit_sharePaid (settled : w.getSplitSettlement e = some s)
    (h : withdrawSplit env who e w = .ok w') :
    (env.authorized who = true ∧ w.CanPay env.toDeployment e s ∅ who) ∧
      SharePaid env.currentContract e s who w w' := by
  simp only [withdrawSplit, requireNotPaused, bind_eq_ok, pure_eq_ok, require_eq_ok,
    requireAuth_eq_ok, ensureSplitSettled_of_settled env settled] at h
  obtain ⟨-, unpaused, -, signed, -, -, -, listed, -, unflagged, -, unpaid, _, ⟨⟩, share, computed,
    -, positive, w₁, sent, w₂, booked, rfl⟩ := h
  obtain rfl : share = w.shareOf e s who := recipientShare_eq_ok computed
  unfold World.transfer at sent
  split at sent
  · rename_i balances moved
    cases sent
    obtain ⟨⟨-, covered⟩, rfl⟩ := Balances.transfer_eq_some.mp moved
    obtain ⟨total, ofToken, records, rfl⟩ := bookWithdrawal_eq_ok booked
    refine ⟨⟨signed, canPay_empty.mpr ⟨unpaused, listed, unflagged, unpaid, computed, positive,
      covered, total.2, ofToken.2, records⟩⟩, ?_⟩
    exact sharePaid_of_booked rfl rfl
  · cases sent

theorem withdrawSplit_of_settled (settled : w.getSplitSettlement e = some s)
    (total : -2 ^ 127 ≤ w.getTotalWithdrawn e)
    (ofToken : -2 ^ 127 ≤ w.getTotalTokenWithdrawn e s.token)
    (signed : env.authorized who = true) (can : w.CanPay env.toDeployment e s ∅ who) :
    ∃ w', withdrawSplit env who e w = .ok w' := by
  obtain ⟨unpaused, listed, unflagged, unpaid, computed, positive, covered, below, belowToken,
    records⟩ := canPay_empty.mp can
  have nonempty : w.getSplits e ≠ [] := by
    intro empty
    rw [empty] at listed
    exact listed rfl
  let tr : Transfer :=
    { token := s.token, src := env.currentContract, dst := who, amount := w.shareOf e s who,
      eventId := e, purpose := .splitShare who }
  obtain ⟨balances, sent⟩ := transfer_ok tr positive.le covered
  let marked := World.setSplitWithdrawn { w with balances, transfers := tr :: w.transfers } e who
    (w.shareOf e s who)
  obtain ⟨w', booked⟩ := bookWithdrawal_ok (w := marked) (e := e) (t := s.token) env who
    (x := w.shareOf e s who)
    ⟨show _ ≤ w.getTotalWithdrawn e + _ by omega, below⟩
    ⟨show _ ≤ w.getTotalTokenWithdrawn e s.token + _ by omega, belowToken⟩ records
  simp only [withdrawSplit, requireNotPaused, bind_eq_ok, pure_eq_ok, require_eq_ok,
    requireAuth_eq_ok]
  exact ⟨_, (), unpaused, (), signed, (), nonempty, (), listed, (), unflagged, (), unpaid, _,
    ensureSplitSettled_of_settled env settled, _, computed, (), positive, _, sent, w', booked, rfl⟩

end Withdrawing

section Paid

variable {d : Deployment} {w w' w₁ w₂ : World} {e : Symbol} {s : SplitSettlement}
  {who : Address} {paid paid' : Finset Address}

/-- The state that the withdrawals of a settled split lead to, by who was paid on the way. -/
structure Paid (d : Deployment) (e : Symbol) (s : SplitSettlement) (w : World)
    (paid : Finset Address) (w' : World) : Prop where
  paused : w'.isPaused = w.isPaused
  splits : w'.getSplits e = w.getSplits e
  settlement : w'.getSplitSettlement e = some s
  flagged : w'.isSplitFlagged e = w.isSplitFlagged e
  withdrawn : ∀ who, w'.getSplitWithdrawn e who =
    if who ∈ paid then w.shareOf e s who else w.getSplitWithdrawn e who
  positive : ∀ who ∈ paid, 0 < w.shareOf e s who
  pool : w'.balances s.token d.currentContract = w.balances s.token d.currentContract -
    ∑ who ∈ paid.erase d.currentContract, w.shareOf e s who
  received : ∀ t a, ¬ (t = s.token ∧ a = d.currentContract) → w'.balances t a =
    w.balances t a + if t = s.token ∧ a ∈ paid then w.shareOf e s a else 0
  total : w'.getTotalWithdrawn e = w.getTotalWithdrawn e + ∑ who ∈ paid, w.shareOf e s who
  ofToken : w'.getTotalTokenWithdrawn e s.token =
    w.getTotalTokenWithdrawn e s.token + ∑ who ∈ paid, w.shareOf e s who
  records : w'.getWithdrawalCount e = w.getWithdrawalCount e + paid.card

theorem paid_none (d : Deployment) (settled : w.getSplitSettlement e = some s) :
    Paid d e s w ∅ w where
  paused := rfl
  splits := rfl
  settlement := settled
  flagged := rfl
  withdrawn _ := rfl
  positive _ mem := absurd mem (Finset.notMem_empty _)
  pool := by simp
  received _ _ _ := by simp
  total := by simp
  ofToken := by simp
  records := rfl

namespace Paid

theorem shareOf (h : Paid d e s w paid w') : w'.shareOf e s = w.shareOf e s := by
  funext who
  rw [World.shareOf, World.shareOf, h.splits]

theorem canPay_iff (h : Paid d e s w paid w') :
    w'.CanPay d e s ∅ who ↔ who ∉ paid ∧ w.CanPay d e s paid who := by
  rw [canPay_empty, World.CanPay, h.paused, h.splits, h.flagged, h.withdrawn, h.shareOf, h.pool,
    h.total, h.ofToken, h.records, le_sub_iff_add_le', add_assoc, add_assoc, add_assoc]
  by_cases old : who ∈ paid
  · have positive := h.positive who old
    simp [old, positive]
  · simp [old]

theorem insert (h : Paid d e s w paid w₁) (new : who ∉ paid) (positive : 0 < w.shareOf e s who)
    (pays : SharePaid d.currentContract e s who w₁ w₂) : Paid d e s w (insert who paid) w₂ where
  paused := pays.paused.trans h.paused
  splits := pays.splits.trans h.splits
  settlement := pays.settlement.trans h.settlement
  flagged := pays.flagged.trans h.flagged
  withdrawn other := by
    rw [pays.withdrawn, Function.update_apply, h.shareOf, h.withdrawn]
    obtain rfl | differ := eq_or_ne other who
    · simp
    · simp [differ]
  positive other mem := by
    obtain rfl | old := Finset.mem_insert.mp mem
    · exact positive
    · exact h.positive other old
  pool := by
    rw [pays.balances, Balances.credit_apply, Balances.credit_apply, h.shareOf, h.pool]
    obtain rfl | differ := eq_or_ne who d.currentContract
    · rw [Finset.erase_insert_eq_erase]
      simp
    · rw [Finset.erase_insert_of_ne differ, Finset.sum_insert fun mem =>
        new (Finset.mem_of_mem_erase mem), if_pos ⟨rfl, rfl⟩, if_neg fun same => differ same.2.symm]
      ring
  received t a other := by
    rw [pays.balances, Balances.credit_apply, Balances.credit_apply, h.shareOf, h.received t a other,
      if_neg other, add_zero]
    by_cases same : t = s.token ∧ a = who
    · obtain ⟨rfl, rfl⟩ := same
      simp [new]
    · rw [if_neg same, add_zero]
      by_cases token : t = s.token
      · have differ : a ≠ who := fun eq => same ⟨token, eq⟩
        simp [token, differ]
      · simp [token]
  total := by
    rw [pays.total, h.total, h.shareOf, Finset.sum_insert new]
    ring
  ofToken := by
    rw [pays.ofToken, h.ofToken, h.shareOf, Finset.sum_insert new]
    ring
  records := by
    rw [pays.records, h.records, Finset.card_insert_of_notMem new, add_assoc]

end Paid

/-- Two outcomes have the same balances if the same recipients were paid, the contract apart. -/
theorem Paid.balances_eq_iff (h₁ : Paid d e s w paid w₁) (h₂ : Paid d e s w paid' w₂) :
    w₁.balances = w₂.balances ↔ ∀ who ≠ d.currentContract, (who ∈ paid ↔ who ∈ paid') := by
  constructor
  · intro same who other
    have sight : ¬ (s.token = s.token ∧ who = d.currentContract) := fun eq => other eq.2
    have received := congrFun (congrFun same s.token) who
    rw [h₁.received _ _ sight, h₂.received _ _ sight, add_right_inj] at received
    by_cases mem : who ∈ paid <;> by_cases mem' : who ∈ paid'
    · exact iff_of_true mem mem'
    · have := h₁.positive who mem
      simp only [mem, mem', and_self, and_false, if_true, if_false] at received
      omega
    · have := h₂.positive who mem'
      simp only [mem, mem', and_self, and_false, if_true, if_false] at received
      omega
    · exact iff_of_false mem mem'
  · intro same
    have rest : paid.erase d.currentContract = paid'.erase d.currentContract := by
      ext who
      rw [Finset.mem_erase, Finset.mem_erase]
      exact and_congr_right (same who)
    funext t a
    by_cases hidden : t = s.token ∧ a = d.currentContract
    · obtain ⟨rfl, rfl⟩ := hidden
      rw [h₁.pool, h₂.pool, rest]
    · rw [h₁.received t a hidden, h₂.received t a hidden]
      by_cases token : t = s.token
      · have other : a ≠ d.currentContract := fun eq => hidden ⟨token, eq⟩
        simp only [same a other]
      · simp only [token, false_and, if_false]

end Paid

section Serving

variable {d : Deployment} {w w' : World} {e : Symbol} {s : SplitSettlement} {paid : Finset Address}

noncomputable def World.serve (d : Deployment) (w : World) (e : Symbol) (s : SplitSettlement) :
    Finset Address → Invocation × Address → Finset Address :=
  Foundation.serve Prod.snd (fun r => r.1.authorized r.2 = true) (w.CanPay d e s)

theorem shareOf_nonneg (shared : Shared d.currentContract w.book)
    (settled : w.getSplitSettlement e = some s) (who : Address) : 0 ≤ w.shareOf e s who := by
  obtain ⟨split, positive⟩ := shared.settled e s settled
  obtain ⟨splits, stored⟩ := Option.isSome_iff_exists.mp split
  have list : w.getSplits e = splits := congrArg (Option.getD · []) stored
  rw [World.shareOf, list]
  exact splitShare_nonneg (shared.valid e splits stored) positive.le who

theorem Paid.next (nonneg : ∀ who, 0 ≤ w.shareOf e s who) (bounded : w.book.toCounters.Bounded)
    (h : Paid d e s w paid w') (r : Invocation × Address) :
    Paid d e s w (w.serve d e s paid r) (w'.next d (withdrawal e r)) := by
  have drawn : 0 ≤ ∑ who ∈ paid, w.shareOf e s who := Finset.sum_nonneg fun who _ => nonneg who
  have total : -2 ^ 127 ≤ w'.getTotalWithdrawn e := by
    rw [h.total]
    exact (bounded.1 e).trans (le_add_of_nonneg_right drawn)
  have ofToken : -2 ^ 127 ≤ w'.getTotalTokenWithdrawn e s.token := by
    rw [h.ofToken]
    exact (bounded.2 e s.token).trans (le_add_of_nonneg_right drawn)
  obtain ⟨invocation, who⟩ := r
  by_cases pass : invocation.authorized who = true ∧ who ∉ paid ∧ w.CanPay d e s paid who
  · obtain ⟨w'', result⟩ : ∃ w'', withdrawSplit ⟨d, invocation⟩ who e w' = .ok w'' :=
      withdrawSplit_of_settled h.settlement total ofToken pass.1 (h.canPay_iff.mpr pass.2)
    have pays := (withdrawSplit_sharePaid h.settlement result).2
    have after : w'.next d (withdrawal e (invocation, who)) = w'' := by
      change commit w' (withdrawSplit ⟨d, invocation⟩ who e w') = w''
      rw [result, commit_ok]
    rw [World.serve, Foundation.serve, if_pos pass, after]
    exact h.insert pass.2.1 pass.2.2.2.2.2.2.2.1 pays
  · have stays : w'.next d (withdrawal e (invocation, who)) = w' := by
      change commit w' (withdrawSplit ⟨d, invocation⟩ who e w') = w'
      cases result : withdrawSplit ⟨d, invocation⟩ who e w' with
      | error failure => rfl
      | ok w'' =>
        obtain ⟨signed, can⟩ := (withdrawSplit_sharePaid h.settlement result).1
        exact absurd ⟨signed, h.canPay_iff.mp can⟩ pass
    rw [World.serve, Foundation.serve, if_neg pass, stays]
    exact h

theorem Paid.run (nonneg : ∀ who, 0 ≤ w.shareOf e s who) (bounded : w.book.toCounters.Bounded)
    (h : Paid d e s w paid w') (requests : List (Invocation × Address)) :
    Paid d e s w (run (w.serve d e s) paid requests)
      (run (World.next d) w' (requests.map (withdrawal e))) := by
  induction requests generalizing paid w' with
  | nil => exact h
  | cons r rest ih => exact ih (h.next nonneg bounded r)

theorem canPay_antitone (nonneg : ∀ who, 0 ≤ w.shareOf e s who) (P Q : Finset Address)
    (who : Address) (sub : P ⊆ Q) (can : w.CanPay d e s Q who) : w.CanPay d e s P who := by
  obtain ⟨unpaused, listed, unflagged, unpaid, computed, positive, pool, total, ofToken, records⟩ :=
    can
  have less : ∑ who ∈ P, w.shareOf e s who ≤ ∑ who ∈ Q, w.shareOf e s who :=
    Finset.sum_le_sum_of_subset_of_nonneg sub fun who _ _ => nonneg who
  have lessPool : ∑ who ∈ P.erase d.currentContract, w.shareOf e s who ≤
      ∑ who ∈ Q.erase d.currentContract, w.shareOf e s who :=
    Finset.sum_le_sum_of_subset_of_nonneg (Finset.erase_subset_erase _ sub) fun who _ _ => nonneg who
  have fewer := Finset.card_le_card sub
  exact ⟨unpaused, listed, unflagged, unpaid, computed, positive, by omega, by omega, by omega,
    by omega⟩

theorem mem_payable {who : Address} : who ∈ w.payable d e s ↔ w.CanPay d e s ∅ who := by
  rw [World.payable, Finset.mem_filter, and_iff_right_of_imp]
  intro can
  have listed := can.2.1
  rw [findSplitBps_eq, ne_eq, Option.map_eq_none_iff, ← ne_eq, Option.ne_none_iff_exists'] at listed
  obtain ⟨split, found⟩ := listed
  have same := List.find?_some found
  rw [List.mem_toFinset, List.mem_map]
  exact ⟨split, List.mem_of_find?_eq_some found, by simpa using same⟩

/-- There is room for everyone exactly if everyone can also be paid last. -/
theorem coversShares_iff : w.CoversShares d e s ↔ ∀ who ∈ w.payable d e s,
    who ≠ d.currentContract → w.CanPay d e s ((w.payable d e s).erase who) who := by
  have room {who : Address} (mem : who ∈ w.payable d e s) (other : who ≠ d.currentContract) :
      ∑ a ∈ ((w.payable d e s).erase who).erase d.currentContract, w.shareOf e s a +
          w.shareOf e s who = ∑ a ∈ (w.payable d e s).erase d.currentContract, w.shareOf e s a ∧
        ∑ a ∈ (w.payable d e s).erase who, w.shareOf e s a + w.shareOf e s who =
          ∑ a ∈ w.payable d e s, w.shareOf e s a ∧
        ((w.payable d e s).erase who).card + 1 = (w.payable d e s).card := by
    rw [Finset.erase_right_comm, Finset.sum_erase_add _ _ (Finset.mem_erase.mpr ⟨other, mem⟩),
      Finset.sum_erase_add _ _ mem, Finset.card_erase_add_one mem]
    exact ⟨rfl, rfl, rfl⟩
  constructor
  · intro covers who mem other
    obtain ⟨pool, total, ofToken, records⟩ := covers ⟨who, mem, other⟩
    obtain ⟨unpaused, listed, unflagged, unpaid, computed, positive, -⟩ := mem_payable.mp mem
    obtain ⟨drawn, counted, size⟩ := room mem other
    refine ⟨unpaused, listed, unflagged, unpaid, computed, positive, ?_, ?_, ?_, ?_⟩
    · rw [drawn]
      exact pool
    · rw [counted]
      exact total
    · rw [counted]
      exact ofToken
    · rw [size]
      exact records
  · rintro last ⟨who, mem, other⟩
    obtain ⟨-, -, -, -, -, -, pool, total, ofToken, records⟩ := last who mem other
    obtain ⟨drawn, counted, size⟩ := room mem other
    rw [drawn] at pool
    rw [counted] at total ofToken
    rw [size] at records
    exact ⟨pool, total, ofToken, records⟩

theorem orderIndependent_iff (nonneg : ∀ who, 0 ≤ w.shareOf e s who)
    (bounded : w.book.toCounters.Bounded) (settled : w.getSplitSettlement e = some s) :
    w.OrderIndependent d e ↔ w.CoversShares d e s := by
  have outcome := Paid.run nonneg bounded (paid_none d settled)
  have signed (who : Address) : ∃ r : Invocation × Address,
      r.1.authorized r.2 = true ∧ r.2 = who :=
    ⟨({ sequence := 0, timestamp := 0, authorized := fun _ => true,
        adminTransferTicket := fun _ _ _ _ _ => true }, who), rfl, rfl⟩
  rw [coversShares_iff, ← order_free_iff Prod.snd
    (fun r : Invocation × Address => r.1.authorized r.2 = true) (canPay_antitone nonneg)
    (fun _ => mem_payable) fun who _ => signed who]
  refine forall₂_congr fun first second => imp_congr_right fun _ => ?_
  exact (outcome first).balances_eq_iff (outcome second)

end Serving

section Counted

variable {d : Deployment} {self : Address} {b : Book} {posting : Posting}

theorem post_bounded (sound : Sound self b posting) (bounded : b.toCounters.Bounded) :
    (b.post self posting).toCounters.Bounded := by
  have raise {e : Symbol} {x : ℤ} (nonneg : 0 ≤ x) (e' : Symbol) :
      -2 ^ 127 ≤ Function.update b.totalWithdrawn e (b.totalWithdrawn e + x) e' := by
    have low := bounded.1 e
    rw [Function.update_apply]
    split
    · omega
    · exact bounded.1 e'
  have raiseToken {e : Symbol} {t : Address} {x : ℤ} (nonneg : 0 ≤ x) (e' : Symbol) (t' : Address) :
      -2 ^ 127 ≤ put b.withdrawn e t (b.withdrawn e t + x) e' t' := by
    have low := bounded.2 e t
    rw [put_apply]
    split
    · omega
    · exact bounded.2 e' t'
  cases posting with
  | payout e t pool total net left dst time =>
    exact ⟨raise sound.nonneg, raiseToken sound.nonneg⟩
  | share e recipient dst s amount time =>
    exact ⟨raise sound.positive.le, raiseToken sound.positive.le⟩
  | sweep e t dst => exact ⟨bounded.1, raiseToken sound.1.le⟩
  | recount counters => exact sound.2 bounded
  | resale ticket t price fee royalty buyer seller =>
    obtain ⟨-, -, -, counters⟩ := recordResale_frame self b ticket t price
      (price - fee - royalty) buyer seller
    exact counters ▸ bounded
  | _ => exact bounded

theorem reachable_bounded (d : Deployment) (balances : Balances Address Address)
    (steps : List Step) :
    (run (World.next d) (deployed balances) steps).book.toCounters.Bounded := by
  have low : (-2 ^ 127 : ℤ) ≤ 0 := by decide
  have start : (deployed balances).book.toCounters.Bounded := ⟨fun _ => low, fun _ _ => low⟩
  exact (run_invariant (I := fun w : World => w.book.Kept ∧ w.book.toCounters.Bounded)
    (P := fun _ _ => True)
    (fun w step inv _ => ⟨next_kept w step inv.1, next_posting_invariant
      (I := fun b => b.toCounters.Bounded) (fun _ _ _ bounded sound => post_bounded sound bounded)
      step inv.1 inv.2⟩)
    (along_of_forall (fun _ _ => trivial) _ steps) ⟨deployed_kept balances, start⟩).2

end Counted

def Sample.split : List Step :=
  Sample.opening ++
    [Sample.call 1 (.syncRevenueSplits Sample.eventContract Sample.concert
      [(Sample.organizer, 5000), (Sample.amy, 3000), (Sample.bob, 2000)]),
    Sample.sale 2 1 Sample.bob Sample.concert 100,
    Sample.call 10 (.setEventStatus Sample.admin Sample.concert .completed),
    Sample.call 11 (.withdrawSplit Sample.amy Sample.concert)]

/-- The payment of a settled event stays refundable, out of what the recipients still have
to get. -/
def Sample.refundedSplit : List Step :=
  Sample.split ++ [Sample.call 12 (.refund Sample.admin 1 (some 10))]

end Zicket.Payments
