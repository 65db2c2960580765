import Zicket.Escrow.Log

/-! Revenue splits. The shares of a net amount exhaust it; each recipient's share is paid
at most once, and while a recipient is flagged only the primary organizer can get it. -/

namespace Zicket.Payments

open Host Foundation Common Book

/-- The first listed recipient takes what the floors of the others leave. -/
def splitShare (splits : List RevenueSplit) (who : Address) (net : ℤ) : ℤ :=
  match splits with
  | [] => 0
  | primary :: others =>
    if who = primary.recipient then
      net - (others.map fun split => bpsOf net split.basisPoints).sum
    else
      ((others.find? (·.recipient = who)).map fun split => bpsOf net split.basisPoints).getD 0

section Shares

variable {splits : List RevenueSplit} {net : ℤ}

theorem bpsShare_eq_ok {E : Type} {bps : ℕ} {x : ℤ} (h : (bpsShare net bps : Except (Failure E) ℤ) = .ok x) :
    x = bpsOf net bps := by
  simp only [bpsShare, bind_eq_ok, i128_eq_ok, pure_eq_ok] at h
  obtain ⟨product, ⟨-, rfl⟩, rfl⟩ := h
  rfl

theorem othersTotal_eq_ok (others : List RevenueSplit) {start x : ℤ}
    (h : (splitPairs others).foldlM (fun total entry => do
        let share ← bpsShare net entry.2
        i128 (total + share)) start = (.ok x : Attempt ℤ)) :
    x = start + (others.map fun split => bpsOf net split.basisPoints).sum := by
  induction others generalizing start with
  | nil =>
    cases h
    simp
  | cons split others ih =>
    simp only [splitPairs, List.map_cons, List.foldlM_cons, bind_eq_ok, i128_eq_ok] at h
    obtain ⟨_, ⟨share, hshare, -, rfl⟩, rest⟩ := h
    rw [ih rest, bpsShare_eq_ok hshare, List.map_cons, List.sum_cons, add_assoc]

theorem findSplitBps_eq (splits : List RevenueSplit) (who : Address) :
    findSplitBps splits who = (splits.find? (·.recipient = who)).map (·.basisPoints) := by
  unfold findSplitBps findRecipientBasisPoints splitPairs
  rw [List.find?_map, Option.map_map]
  rfl

theorem recipientShare_eq_ok {who : Address} {x : ℤ} (h : recipientShare splits who net = .ok x) :
    x = splitShare splits who net := by
  cases splits with
  | nil =>
    cases h
    rfl
  | cons primary others =>
    simp only [recipientShare, splitPairs, List.map_cons, calculateRecipientShare] at h
    rw [splitShare]
    split at h
    · rename_i first
      simp only [bind_eq_ok, i128_eq_ok] at h
      obtain ⟨total, htotal, -, rfl⟩ := h
      rw [if_pos first, othersTotal_eq_ok others htotal, zero_add]
    · rename_i other
      have listed : findRecipientBasisPoints
          ((primary.recipient, primary.basisPoints) :: splitPairs others) who =
            (others.find? (·.recipient = who)).map (·.basisPoints) := by
        rw [← findSplitBps_eq, findRecipientBasisPoints, List.find?_cons_of_neg (by simpa [eq_comm] using other)]
        rfl
      rw [if_neg other]
      rw [← splitPairs, listed] at h
      cases found : others.find? (·.recipient = who) with
      | none =>
        rw [found] at h
        cases h
        rfl
      | some split =>
        rw [found] at h
        exact bpsShare_eq_ok h

theorem find?_recipient {split : RevenueSplit} (distinct : (splits.map (·.recipient)).Nodup)
    (mem : split ∈ splits) : splits.find? (·.recipient = split.recipient) = some split := by
  induction splits with
  | nil => cases mem
  | cons first rest ih =>
    rw [List.map_cons, List.nodup_cons] at distinct
    obtain rfl | mem := List.mem_cons.mp mem
    · exact List.find?_cons_of_pos (by simp)
    · have other : first.recipient ≠ split.recipient := by
        intro same
        exact distinct.1 (same ▸ List.mem_map_of_mem mem)
      rw [List.find?_cons_of_neg (by simpa using other), ih distinct.2 mem]

/-- The floors of the other recipients leave something for the first. -/
theorem others_le (valid : ValidSplits splits) (nonneg : 0 ≤ net) {primary : RevenueSplit}
    {others : List RevenueSplit} (list : splits = primary :: others) :
    (others.map fun split => bpsOf net split.basisPoints).sum ≤ net := by
  have rates : (others.map (·.basisPoints)).sum ≤ 10000 := by
    rw [← valid.total, list, List.map_cons, List.sum_cons]
    exact Nat.le_add_left ..
  calc (others.map fun split => bpsOf net split.basisPoints).sum
      = ((others.map (·.basisPoints)).map (bpsOf net)).sum := by rw [List.map_map]; rfl
    _ ≤ bpsOf net (others.map (·.basisPoints)).sum := sum_bpsOf_le nonneg _
    _ ≤ bpsOf net 10000 := bpsOf_mono_rate nonneg rates
    _ = net := bpsOf_full net

theorem splitShare_nonneg (valid : ValidSplits splits) (nonneg : 0 ≤ net) (who : Address) :
    0 ≤ splitShare splits who net := by
  cases list : splits with
  | nil => exact le_rfl
  | cons primary others =>
    rw [splitShare]
    split
    · have := others_le valid nonneg list
      omega
    · cases others.find? (·.recipient = who) with
      | none => exact le_rfl
      | some split => exact bpsOf_nonneg nonneg _

/-- The shares add up to the whole net amount, to the last unit. -/
theorem sum_splitShare (valid : ValidSplits splits) :
    (splits.map fun split => splitShare splits split.recipient net).sum = net := by
  obtain ⟨primary, others, list⟩ := List.exists_cons_of_ne_nil valid.nonempty
  have distinct := valid.distinct
  rw [list, List.map_cons, List.nodup_cons] at distinct
  have rest : ∀ split ∈ others, splitShare splits split.recipient net =
      bpsOf net split.basisPoints := by
    intro split mem
    have other : split.recipient ≠ primary.recipient := by
      intro same
      exact distinct.1 (same ▸ List.mem_map_of_mem mem)
    rw [list, splitShare, if_neg other, find?_recipient distinct.2 mem]
    rfl
  have first : splitShare splits primary.recipient net =
      net - (others.map fun split => bpsOf net split.basisPoints).sum := by
    rw [list, splitShare, if_pos rfl]
  conv_lhs => rw [list]
  rw [List.map_cons, List.sum_cons, ← list, first, List.map_congr_left rest, sub_add_cancel]

theorem bpsShare_ok {E : Type} {bps : ℕ} (nonneg : 0 ≤ net) (le : bps ≤ 10000)
    (fits : net * 10000 < 2 ^ 127) :
    (bpsShare net bps : Except (Failure E) ℤ) = .ok (bpsOf net bps) := by
  have product : net * bps ≤ net * 10000 := by gcongr; exact_mod_cast le
  have positive : 0 ≤ net * bps := mul_nonneg nonneg (Int.natCast_nonneg bps)
  have inside : InI128 (net * bps) := ⟨by omega, by omega⟩
  rw [bpsShare, i128, if_pos inside]
  rfl

theorem othersTotal_ok (others : List RevenueSplit) (nonneg : 0 ≤ net)
    (fits : net * 10000 < 2 ^ 127) (rates : ∀ split ∈ others, split.basisPoints ≤ 10000)
    {start : ℤ} (pos : 0 ≤ start)
    (le : start + (others.map fun split => bpsOf net split.basisPoints).sum ≤ net) :
    (splitPairs others).foldlM (fun total entry => do
        let share ← bpsShare net entry.2
        i128 (total + share)) start =
      (.ok (start + (others.map fun split => bpsOf net split.basisPoints).sum) : Attempt ℤ) := by
  induction others generalizing start with
  | nil => simp [splitPairs, pure, Except.pure]
  | cons split others ih =>
    have share := bpsOf_nonneg nonneg split.basisPoints
    have rest : 0 ≤ (others.map fun split => bpsOf net split.basisPoints).sum :=
      tally_nonneg fun split _ => bpsOf_nonneg nonneg split.basisPoints
    rw [List.map_cons, List.sum_cons] at le ⊢
    have inside : InI128 (start + bpsOf net split.basisPoints) := ⟨by omega, by omega⟩
    simp only [splitPairs, List.map_cons, List.foldlM_cons]
    rw [bpsShare_ok nonneg (rates split List.mem_cons_self) fits]
    simp only [bind, Except.bind, i128, if_pos inside]
    rw [← add_assoc]
    exact ih (fun split mem => rates split (List.mem_cons_of_mem _ mem)) (by omega) (by omega)

theorem recipientShare_ok (valid : ValidSplits splits) (nonneg : 0 ≤ net)
    (fits : net * 10000 < 2 ^ 127) (who : Address) :
    recipientShare splits who net = .ok (splitShare splits who net) := by
  have rates : ∀ split ∈ splits, split.basisPoints ≤ 10000 := by
    intro split mem
    rw [← valid.total]
    exact List.le_sum_of_mem (List.mem_map_of_mem mem)
  obtain ⟨primary, others, list⟩ := List.exists_cons_of_ne_nil valid.nonempty
  have le := others_le valid nonneg list
  subst list
  have restRates := fun split mem => rates split (List.mem_cons_of_mem primary mem)
  rw [recipientShare, splitPairs, List.map_cons, calculateRecipientShare, splitShare]
  split
  · rw [← splitPairs, othersTotal_ok others nonneg fits restRates le_rfl (by omega), zero_add]
    have total : 0 ≤ (others.map fun split => bpsOf net split.basisPoints).sum :=
      tally_nonneg fun split _ => bpsOf_nonneg nonneg split.basisPoints
    have inside : InI128 (net - (others.map fun split => bpsOf net split.basisPoints).sum) :=
      ⟨by omega, by omega⟩
    simp only [bind, Except.bind, i128, if_pos inside]
  · rename_i other
    rw [findRecipientBasisPoints, List.find?_cons_of_neg (by simpa [eq_comm] using other),
      ← splitPairs, ← findRecipientBasisPoints, ← findSplitBps, findSplitBps_eq]
    cases found : others.find? (·.recipient = who) with
    | none => rfl
    | some split =>
      exact bpsShare_ok nonneg (restRates split (List.mem_of_find?_eq_some found)) fits

end Shares

def Transfer.paysShare (e : Symbol) (who : Address) (tr : Transfer) : Bool :=
  tr.eventId = e && tr.purpose = .splitShare who

def Transfer.shareOf (e : Symbol) (tr : Transfer) : ℤ :=
  match tr.purpose with
  | .splitShare _ => if tr.eventId = e then tr.amount else 0
  | _ => 0

/-- A logged share is the recipient's share of the settlement, paid to one of two accounts. -/
structure ShareEntry (contract : Address) (b : Book) (tr : Transfer) (who : Address) : Prop where
  settled : ∃ s, b.settlement tr.eventId = some s ∧ tr.token = s.token ∧
    tr.amount = splitShare ((b.splits tr.eventId).getD []) who s.netDistributable
  src : tr.src = contract
  dst : tr.dst = who ∨ b.primary tr.eventId = some tr.dst
  paid : b.splitPaid tr.eventId who = tr.amount

structure Shared (contract : Address) (b : Book) : Prop where
  valid : ∀ e splits, b.splits e = some splits → ValidSplits splits
  settled : ∀ e s, b.settlement e = some s → (b.splits e).isSome ∧ 0 < s.netDistributable
  nonneg : ∀ e who, 0 ≤ b.splitPaid e who
  flagged : ∀ e who, b.flagged e who = true →
    b.splitPaid e who ≤ 0 ∧ (b.primary e).isSome ∧ b.primary e ≠ some who
  entry : ∀ tr ∈ b.transfers, ∀ who, tr.purpose = .splitShare who → ShareEntry contract b tr who
  once : ∀ e who, (b.transfers.filter (Transfer.paysShare e who)).length =
    if 0 < b.splitPaid e who then 1 else 0
  listed : ∀ e who, 0 < b.splitPaid e who →
    (b.settlement e).isSome ∧ who ∈ ((b.splits e).getD []).map (·.recipient)
  total : ∀ e, tally (Transfer.shareOf e) b.transfers =
    (((b.splits e).getD []).map fun split => b.splitPaid e split.recipient).sum

namespace Shared

variable {contract : Address} {b b' : Book}

theorem entry_of_eq {tr : Transfer} {who : Address} (h : ShareEntry contract b tr who)
    (splits : b'.splits tr.eventId = b.splits tr.eventId)
    (settlement : b'.settlement tr.eventId = b.settlement tr.eventId)
    (splitPaid : b'.splitPaid tr.eventId who = b.splitPaid tr.eventId who) :
    ShareEntry contract b' tr who where
  settled := by
    rw [splits, settlement]
    exact h.settled
  src := h.src
  dst := by
    rw [Book.primary, splits]
    exact h.dst
  paid := splitPaid.trans h.paid

theorem frame (h : Shared contract b) {added : List Transfer}
    (transfers : b'.transfers = added ++ b.transfers)
    (other : ∀ tr ∈ added, ∀ who, tr.purpose ≠ .splitShare who) (splits : b'.splits = b.splits)
    (settlement : b'.settlement = b.settlement) (splitPaid : b'.splitPaid = b.splitPaid)
    (flagged : b'.flagged = b.flagged) : Shared contract b' where
  valid := by rw [splits]; exact h.valid
  settled := by rw [splits, settlement]; exact h.settled
  nonneg := by rw [splitPaid]; exact h.nonneg
  flagged := by
    have primary : b'.primary = b.primary := by
      funext e
      rw [Book.primary, Book.primary, splits]
    rw [flagged, splitPaid, primary]
    exact h.flagged
  entry tr mem who purpose := by
    rw [transfers, List.mem_append] at mem
    obtain new | old := mem
    · exact absurd purpose (other tr new who)
    · exact entry_of_eq (h.entry tr old who purpose) (congrFun splits _) (congrFun settlement _)
        (congrFun (congrFun splitPaid _) _)
  once e who := by
    have none : added.filter (Transfer.paysShare e who) = [] := by
      refine List.filter_eq_nil_iff.mpr fun tr mem pays => ?_
      simp only [Transfer.paysShare, Bool.and_eq_true, decide_eq_true_eq] at pays
      exact other tr mem who pays.2
    rw [transfers, List.filter_append, none, List.nil_append, splitPaid]
    exact h.once e who
  listed := by rw [splitPaid, settlement, splits]; exact h.listed
  total e := by
    have none : tally (Transfer.shareOf e) added = 0 := by
      refine tally_eq_zero fun tr mem => ?_
      unfold Transfer.shareOf
      split
      · rename_i who purpose
        exact absurd purpose (other tr mem who)
      · rfl
    rw [transfers, tally_append, none, zero_add, splits, splitPaid]
    exact h.total e

theorem unpaid (h : Shared contract b) {e : Symbol} {who : Address} (le : b.splitPaid e who ≤ 0)
    {tr : Transfer} (mem : tr ∈ b.transfers) (event : tr.eventId = e) :
    tr.purpose ≠ .splitShare who := by
  intro purpose
  have once := h.once e who
  rw [if_neg (not_lt.mpr le), List.length_eq_zero_iff, List.filter_eq_nil_iff] at once
  exact once tr mem (by simp [Transfer.paysShare, event, purpose])

theorem settle (h : Shared contract b) {e : Symbol} {s : SplitSettlement}
    (unsettled : b.settlement e = none) (split : (b.splits e).isSome) (positive : 0 < s.netDistributable)
    (transfers : b'.transfers = b.transfers) (splits : b'.splits = b.splits)
    (settlement : b'.settlement = Function.update b.settlement e (some s))
    (splitPaid : b'.splitPaid = b.splitPaid) (flagged : b'.flagged = b.flagged) :
    Shared contract b' := by
  have framed : Shared contract { b' with settlement := b.settlement } :=
    h.frame (show b'.transfers = [] ++ b.transfers from transfers) (by simp) splits rfl splitPaid flagged
  exact
    { framed with
      settled := by
        intro e' s' stored
        rw [settlement] at stored
        obtain ⟨rfl, rfl⟩ | ⟨-, stored⟩ := update_eq_some.mp stored
        · exact ⟨by rw [splits]; exact split, positive⟩
        · exact framed.settled e' s' stored
      entry := by
        intro tr mem who purpose
        have entry := framed.entry tr mem who purpose
        refine entry_of_eq entry rfl ?_ rfl
        obtain ⟨s', stored, -⟩ := entry.settled
        have other : tr.eventId ≠ e := by
          intro same
          rw [same] at stored
          rw [unsettled] at stored
          cases stored
        rw [settlement, Function.update_of_ne other]
      listed := by
        intro e' who paid
        obtain ⟨settled, mem⟩ := framed.listed e' who paid
        refine ⟨?_, mem⟩
        by_cases he : e' = e
        · rw [settlement, he, Function.update_self]
          rfl
        · rw [settlement, Function.update_of_ne he]
          exact settled }

theorem register (h : Shared contract b) {e : Symbol} {splits : List RevenueSplit}
    (fresh : b.splits e = none) (valid : ValidSplits splits)
    (transfers : b'.transfers = b.transfers)
    (set : b'.splits = Function.update b.splits e (some splits))
    (settlement : b'.settlement = b.settlement)
    (splitPaid : b'.splitPaid = b.splitPaid) (flagged : b'.flagged = b.flagged) :
    Shared contract b' := by
  have framed : Shared contract { b' with splits := b.splits } :=
    h.frame (show b'.transfers = [] ++ b.transfers from transfers) (by simp) rfl settlement splitPaid flagged
  -- nothing is settled, paid or flagged before the list is there
  have unsettled : ∀ e', (b'.settlement e').isSome → e' ≠ e := by
    rintro e' settled rfl
    obtain ⟨s, stored⟩ := Option.isSome_iff_exists.mp settled
    have := (framed.settled e' s stored).1
    simp [fresh] at this
  have unpaid : ∀ who, b'.splitPaid e who = 0 := by
    intro who
    refine le_antisymm (not_lt.mp fun paid => ?_) (framed.nonneg e who)
    exact unsettled e (framed.listed e who paid).1 rfl
  exact
    { framed with
      valid := by
        intro e' splits' stored
        rw [set] at stored
        obtain ⟨-, rfl⟩ | ⟨-, stored⟩ := update_eq_some.mp stored
        · exact valid
        · exact h.valid e' splits' stored
      settled := by
        intro e' s stored
        have other := unsettled e' (Option.isSome_iff_exists.mpr ⟨s, stored⟩)
        rw [set, Function.update_of_ne other]
        exact framed.settled e' s stored
      flagged := by
        intro e' who flag
        have kept := framed.flagged e' who flag
        have other : e' ≠ e := by
          rintro rfl
          simp [Book.primary, fresh] at kept
        rw [Book.primary, set, Function.update_of_ne other]
        exact kept
      entry := by
        intro tr mem who purpose
        have entry := framed.entry tr mem who purpose
        obtain ⟨s, stored, -⟩ := entry.settled
        have other := unsettled tr.eventId (Option.isSome_iff_exists.mpr ⟨s, stored⟩)
        exact entry_of_eq entry (by rw [set, Function.update_of_ne other]) rfl rfl
      listed := by
        intro e' who paid
        have kept := framed.listed e' who paid
        rw [set, Function.update_of_ne (unsettled e' kept.1)]
        exact kept
      total := by
        intro e'
        by_cases he : e' = e
        · subst he
          have none := framed.total e'
          simp only [fresh, Option.getD_none, List.map_nil, List.sum_nil] at none
          rw [none]
          simp [unpaid]
        · rw [set, Function.update_of_ne he]
          exact framed.total e' }

theorem pay (h : Shared contract b) {e : Symbol} {who dst : Address} {s : SplitSettlement}
    {amount : ℤ} (sound : b.ShareSound e who dst s amount)
    (transfers : b'.transfers =
      { token := s.token, src := contract, dst, amount, eventId := e, purpose := .splitShare who } ::
        b.transfers)
    (splits : b'.splits = b.splits) (settlement : b'.settlement = b.settlement)
    (splitPaid : b'.splitPaid = put b.splitPaid e who amount)
    (flagged : b'.flagged = put b.flagged e who false) : Shared contract b' := by
  have positive := sound.positive
  have unpaid : b.splitPaid e who = 0 := le_antisymm sound.unpaid (h.nonneg e who)
  have mem : who ∈ ((b.splits e).getD []).map (·.recipient) := by
    have listed := sound.listed
    rw [findSplitBps_eq] at listed
    by_contra absent
    refine listed (Option.map_eq_none_iff.mpr (List.find?_eq_none.mpr fun split mem same => absent ?_))
    exact List.mem_map.mpr ⟨split, mem, by simpa using same⟩
  exact
    { valid := by rw [splits]; exact h.valid
      settled := by rw [splits, settlement]; exact h.settled
      nonneg := by
        intro e' who'
        rw [splitPaid, put_apply]
        split
        · exact positive.le
        · exact h.nonneg e' who'
      flagged := by
        intro e' who' flag
        rw [flagged, put_apply] at flag
        split at flag
        · cases flag
        · rename_i other
          rw [splitPaid, put_apply, if_neg other, Book.primary, splits]
          exact h.flagged e' who' flag
      entry := by
        intro tr mem who' purpose
        rw [transfers, List.mem_cons] at mem
        obtain rfl | old := mem
        · cases purpose
          refine ⟨⟨s, ?_, rfl, ?_⟩, rfl, ?_, ?_⟩
          · rw [settlement]
            exact sound.settled
          · rw [splits]
            exact recipientShare_eq_ok sound.share
          · rw [Book.primary, splits]
            exact sound.dst.imp (·.2) (·.2)
          · rw [splitPaid, put_self]
        · have other : ¬ (tr.eventId = e ∧ who' = who) := by
            rintro ⟨event, rfl⟩
            exact h.unpaid sound.unpaid old event purpose
          exact entry_of_eq (h.entry tr old who' purpose) (congrFun splits _)
            (congrFun settlement _) (by rw [splitPaid, put_apply, if_neg other])
      once := by
        intro e' who'
        rw [transfers, splitPaid, put_apply]
        by_cases same : e' = e ∧ who' = who
        · obtain ⟨rfl, rfl⟩ := same
          have once := h.once e' who'
          rw [unpaid, if_neg (lt_irrefl 0)] at once
          rw [List.filter_cons_of_pos (by simp [Transfer.paysShare]), List.length_cons, once]
          simp [positive]
        · rw [List.filter_cons_of_neg, if_neg same]
          · exact h.once e' who'
          · intro pays
            simp only [Transfer.paysShare, Bool.and_eq_true, decide_eq_true_eq] at pays
            cases pays.2
            exact same ⟨pays.1.symm, rfl⟩
      listed := by
        intro e' who' paid
        rw [splitPaid, put_apply] at paid
        rw [settlement, splits]
        split at paid
        · rename_i same
          obtain ⟨rfl, rfl⟩ := same
          exact ⟨Option.isSome_iff_exists.mpr ⟨s, sound.settled⟩, mem⟩
        · exact h.listed e' who' paid
      total := by
        intro e'
        rw [transfers, tally_cons, h.total, splits, splitPaid]
        by_cases he : e' = e
        · subst he
          obtain ⟨list, hlist⟩ := Option.isSome_iff_exists.mp (h.settled e' s sound.settled).1
          rw [hlist, Option.getD_some] at mem ⊢
          have moved := sum_map_update (h.valid e' list hlist).distinct mem (b.splitPaid e') amount
          rw [List.map_map, List.map_map, unpaid, sub_zero] at moved
          have column : put b.splitPaid e' who amount e' =
              Function.update (b.splitPaid e') who amount := by
            funext who'
            rw [put_apply, Function.update_apply]
            simp
          have entry : Transfer.shareOf e'
              { token := s.token, src := contract, dst, amount, eventId := e',
                purpose := .splitShare who } = amount := if_pos rfl
          rw [column, entry, add_comm]
          exact moved.symm
        · have other : Transfer.shareOf e'
              { token := s.token, src := contract, dst, amount, eventId := e,
                purpose := .splitShare who } = 0 := if_neg (Ne.symm he)
          have column : put b.splitPaid e who amount e' = b.splitPaid e' := by
            funext who'
            rw [put_apply, if_neg fun same => he same.1]
          rw [other, zero_add, column] }

theorem flag (h : Shared contract b) {e : Symbol} {who : Address} {flag : Bool}
    (sound : flag = true →
      b.splitPaid e who ≤ 0 ∧ (b.primary e).isSome ∧ b.primary e ≠ some who) :
    Shared contract { b with flagged := put b.flagged e who flag } :=
  { h with
    flagged := by
      intro e' who' flagged
      simp only [put_apply] at flagged
      split at flagged
      · rename_i same
        obtain ⟨rfl, rfl⟩ := same
        exact sound flagged
      · exact h.flagged e' who' flagged
    entry := fun tr mem who' purpose => entry_of_eq (h.entry tr mem who' purpose) rfl rfl rfl }

theorem post (h : Shared contract b) {posting : Posting} (sound : Book.Sound contract b posting) :
    Shared contract (b.post contract posting) := by
  cases posting with
  | settle e t pool total net left =>
    exact h.settle sound.unsettled sound.split sound.distributable rfl rfl rfl rfl rfl
  | share e who dst s amount time => exact h.pay sound rfl rfl rfl rfl rfl
  | setSplits e splits => exact h.register sound.1 sound.2 rfl rfl rfl rfl rfl
  | setFlag e who flagged => exact h.flag sound
  | resale ticket t price fee royalty buyer seller =>
    obtain ⟨-, terms, accounts, -⟩ := recordResale_frame contract b ticket t price
      (price - fee - royalty) buyer seller
    have settlement := congrArg Accounts.settlement accounts
    have splitPaid := congrArg Accounts.splitPaid accounts
    refine h.frame (post_transfers ..) ?_ (congrArg Terms.splits terms) settlement splitPaid
      (congrArg Terms.flagged terms)
    intro tr mem who
    obtain ⟨kind, -⟩ | ⟨kind, -⟩ := mem_resaleTransfers mem <;> simp [kind]
  | sale | refund | approve | payout | sweep =>
    refine h.frame (post_transfers ..) ?_ rfl rfl rfl rfl
    intro tr mem who
    rw [List.mem_singleton.mp mem]
    simp [paymentTransfer, refundTransfer]
  | _ => exact h.frame (post_transfers ..) (by simp [Book.added]) rfl rfl rfl rfl

theorem paid_eq (h : Shared contract b) {e : Symbol} {s : SplitSettlement}
    (settled : b.settlement e = some s) (who : Address) :
    b.splitPaid e who = splitShare ((b.splits e).getD []) who s.netDistributable -
      if 0 < b.splitPaid e who then 0
      else splitShare ((b.splits e).getD []) who s.netDistributable := by
  split
  · rename_i paid
    have once := h.once e who
    rw [if_pos paid] at once
    obtain ⟨tr, only⟩ := List.length_eq_one_iff.mp once
    have mem : tr ∈ b.transfers.filter (Transfer.paysShare e who) := by simp [only]
    obtain ⟨logged, pays⟩ := List.mem_filter.mp mem
    simp only [Transfer.paysShare, Bool.and_eq_true, decide_eq_true_eq] at pays
    obtain ⟨⟨s', stored, -, amount⟩, -, -, same⟩ := h.entry tr logged who pays.2
    rw [pays.1] at stored amount same
    rw [settled] at stored
    cases stored
    rw [same, amount, sub_zero]
  · have := h.nonneg e who
    omega

/-- What was paid is the settled amount without the shares still to be paid. -/
theorem paid_total (h : Shared contract b) {e : Symbol} {s : SplitSettlement}
    (settled : b.settlement e = some s) :
    tally (Transfer.shareOf e) b.transfers = s.netDistributable -
      tally (fun split => if 0 < b.splitPaid e split.recipient then 0
        else splitShare ((b.splits e).getD []) split.recipient s.netDistributable)
        ((b.splits e).getD []) := by
  obtain ⟨split, -⟩ := h.settled e s settled
  obtain ⟨splits, stored⟩ := Option.isSome_iff_exists.mp split
  have each : tally (fun split => b.splitPaid e split.recipient) ((b.splits e).getD []) = _ :=
    tally_congr fun split _ => h.paid_eq settled split.recipient
  rw [tally_sub] at each
  refine (h.total e).trans (each.trans (congrArg (· - _) ?_))
  rw [stored]
  exact sum_splitShare (h.valid e splits stored)

end Shared

end Zicket.Payments
