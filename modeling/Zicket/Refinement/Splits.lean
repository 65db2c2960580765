import Zicket.Refinement.Payouts

/-! What the split operations write: the settlement once, each recipient's share at most
once, and the flags in between. -/

namespace Zicket.Payments

open Host Foundation Book

variable {env : Env} {w w' : World} {e : Symbol}

theorem remainingTokenRevenue_eq_ok {t : Address} {ratio : ℕ} {total left : ℤ}
    (h : remainingTokenRevenue w e t ratio total = .ok left) :
    left = if ratio = 10000 then 0 else w.book.revenue e t - total := by
  unfold remainingTokenRevenue at h
  split at h <;> rename_i full
  · cases h
    rw [if_pos full]
  · rw [if_neg full, ← (i128_eq_ok.mp h).2]
    rfl

theorem ensureSplitSettled_settles {s : SplitSettlement} (kept : w.book.Kept)
    (split : (w.book.splits e).isSome) (h : ensureSplitSettled env e w = .ok (s, w')) :
    ∃ ps, Settles w.book e ps ∧
      Along (post env.currentContract) (Sound env.currentContract) w.book ps ∧
      run (post env.currentContract) w.book ps = w'.book ∧ w'.book.settlement e = some s ∧
      w'.book.toTerms = w.book.toTerms ∧ w'.book.splitPaid = w.book.splitPaid := by
  unfold ensureSplitSettled at h
  split at h
  · rename_i settlement settled
    cases h
    have settled : w.book.settlement e = some s := settled
    exact ⟨[], .inl ⟨by rw [settled]; rfl, rfl⟩, trivial, rfl, settled, rfl, rfl⟩
  · rename_i unsettled
    simp only [bind_eq_ok, pure_eq_ok, require_eq_ok, okOr_eq_ok, World.getEventPayoutToken,
      i128_eq_ok] at h
    obtain ⟨config, stored, ratio, hratio, w₁, h₁, -, undisputed, payoutToken, hToken, -, -, total,
      htotal, -, positive, fee, hfee, _, ⟨-, rfl⟩, -, distributable, left, hleft, w₂, h₂, w₃, h₃,
      h⟩ := h
    cases h
    have swept := validateRevenueInvariant_swept kept h₁
    have stored₁ : w₁.book.config e = some config := by
      rw [swept.terms]
      exact stored
    have token : config.payoutToken = payoutToken := by
      have hToken : (w₁.book.config e).map (·.payoutToken) = some payoutToken := hToken
      simpa [stored₁] using hToken
    have status : w.book.status e = w₁.book.status e := by rw [swept.terms]
    have accepted := (swept.kept kept).configured.accepted e config stored₁
    have fee_nonneg : 0 ≤ fee := by
      rw [basisPointsOf_eq_ok hfee]
      exact bpsOf_nonneg positive.le _
    subst token
    let settle : Posting := .settle e config.payoutToken (w.book.pool e) total (total - fee) left
    have settles : Sound env.currentContract w₁.book settle :=
      { unsettled := by rw [swept.settlement]; exact unsettled
        split := by rw [swept.terms]; exact split
        accepted := accepted
        undisputed := undisputed
        positive := positive
        distributable := distributable
        takes := by
          rw [remainingTokenRevenue_eq_ok hleft, swept.pool]
          exact amountToWithdraw_takes stored₁ (status ▸ withdrawableRatio_eq_ok hratio)
            undisputed htotal
        net := by rw [basisPointsOf_eq_ok hfee]; rfl }
    obtain ⟨sweep, sweeps, sound, effect⟩ := swept.andThen (along_singleton.mpr settles) rfl
    have settled : (w₃.setSplitSettlement e ⟨config.payoutToken, total - fee⟩).book =
        w₁.book.post env.currentContract settle := by
      have kept_back : total - (total - fee) = fee := by omega
      rw [World.setSplitSettlement, World.book_set_splitSettlement,
        collectPlatformFee_book fee_nonneg h₃, World.shiftEventRevenue_book h₂,
        World.setEventTokenRevenue, World.book_set_eventTokenRevenue]
      simp only [settle, post, takeOut, kept_back]
    rw [run_cons, run_nil] at effect
    rw [settled]
    exact ⟨_, .inr ⟨unsettled, sweep, config, total, _, left, sweeps, stored, rfl⟩, sound, effect,
      Function.update_self .., swept.terms, swept.splitPaid⟩

theorem splits_isSome (nonempty : w.getSplits e ≠ []) : (w.book.splits e).isSome := by
  have nonempty : (w.book.splits e).getD [] ≠ [] := nonempty
  cases stored : w.book.splits e with
  | none => simp [stored] at nonempty
  | some splits => rfl

theorem withdrawSplit_written {recipient : Address} (kept : w.book.Kept)
    (h : withdrawSplit env recipient e w = .ok w') :
    Written env w (.withdrawSplit recipient e) w'.book := by
  simp only [withdrawSplit, bind_eq_ok, pure_eq_ok, require_eq_ok] at h
  obtain ⟨-, -, -, -, -, nonempty, -, listed, -, unflagged, -, unpaid, ⟨s, w₁⟩, h₁, share, hshare,
    -, positive, w₂, h₂, w₃, h₃, rfl⟩ := h
  obtain ⟨settling, settles, sound, effect, settled, terms, splitPaid⟩ :=
    ensureSplitSettled_settles kept (splits_isSome nonempty) h₁
  let pay : Posting := .share e recipient recipient s share env.timestamp
  have pays : Sound env.currentContract w₁.book pay :=
    { settled := settled
      listed := by rw [terms]; exact listed
      share := by rw [terms]; exact hshare
      positive := positive
      unpaid := by rw [splitPaid]; exact unpaid
      dst := .inl ⟨by rw [terms]; exact unflagged, rfl⟩ }
  refine ⟨settling ++ [pay], ⟨unflagged, settling, s, share, settles, rfl⟩,
    along_append.mpr ⟨sound, along_singleton.mpr (effect ▸ pays)⟩, ?_⟩
  have clear : put w₁.book.flagged e recipient false = w₁.book.flagged := by
    have unflagged : w₁.book.flagged e recipient = false := by rw [terms]; exact unflagged
    rw [← unflagged, put_eq]
  rw [run_append, effect, emitWithdrawn_book, bookWithdrawal_book h₃, World.setSplitWithdrawn,
    World.book_set_splitWithdrawn, (World.transfer_book h₂).2, run_cons, run_nil]
  simp only [pay, post, clear]
  rfl

theorem primary_eq {a : Address} (h : (w.getSplits e).head?.map (·.recipient) = some a) :
    (w.book.splits e).isSome ∧ w.book.primary e = some a := by
  have h : ((w.book.splits e).getD []).head?.map (·.recipient) = some a := h
  cases stored : w.book.splits e with
  | none => simp [stored] at h
  | some splits =>
    rw [stored] at h
    exact ⟨rfl, by rw [Book.primary, stored]; exact h⟩

theorem reassignToPrimary_written {recipient : Address} (kept : w.book.Kept)
    (listed : findSplitBps (w.getSplits e) recipient ≠ none)
    (flagged : w.book.flagged e recipient = true)
    (h : reassignToPrimary env e recipient (w.getSplits e) w = .ok w') :
    Written env w (.resolveFlaggedShare e recipient .reassignToPrimary) w'.book := by
  simp only [reassignToPrimary, bind_eq_ok, pure_eq_ok, require_eq_ok, okOr_eq_ok] at h
  obtain ⟨-, unpaid, ⟨s, w₁⟩, h₁, primary, hPrimary, share, hshare, -, positive, w₂, h₂, w₃, h₃,
    rfl⟩ := h
  obtain ⟨split, first⟩ := primary_eq hPrimary
  obtain ⟨settling, settles, sound, effect, settled, terms, splitPaid⟩ :=
    ensureSplitSettled_settles kept split h₁
  let pay : Posting := .share e recipient primary s share env.timestamp
  have pays : Sound env.currentContract w₁.book pay :=
    { settled := settled
      listed := by rw [terms]; exact listed
      share := by rw [terms]; exact hshare
      positive := positive
      unpaid := by rw [splitPaid]; exact unpaid
      dst := .inr ⟨by rw [terms]; exact flagged, by rw [Book.primary, terms]; exact first⟩ }
  refine ⟨settling ++ [pay], ⟨flagged, settling, s, primary, share, first, settles, rfl⟩,
    along_append.mpr ⟨sound, along_singleton.mpr (effect ▸ pays)⟩, ?_⟩
  rw [run_append, effect, World.emitFlaggedShareResolved, World.book_emit,
    bookWithdrawal_book h₃, World.setSplitFlagged, World.book_set_splitFlagged,
    World.setSplitWithdrawn, World.book_set_splitWithdrawn, (World.transfer_book h₂).2, run_cons,
    run_nil]
  rfl

theorem resolveFlaggedShare_written {recipient : Address} {resolution : FlagResolution}
    (kept : w.book.Kept) (h : resolveFlaggedShare env e recipient resolution w = .ok w') :
    Written env w (.resolveFlaggedShare e recipient resolution) w'.book := by
  simp only [resolveFlaggedShare, bind_eq_ok, require_eq_ok] at h
  obtain ⟨-, -, -, -, -, -, -, nonempty, -, listed, -, flagged, h⟩ := h
  cases resolution with
  | releaseToRecipient =>
    cases h
    refine .one rfl (by simp [Sound]) ?_
    rw [World.emitFlaggedShareResolved, World.book_emit, World.setSplitFlagged,
      World.book_set_splitFlagged]
    rfl
  | reassignToPrimary => exact reassignToPrimary_written kept listed flagged h

theorem flagCohost_written {organizer recipient : Address}
    (h : flagCohost env organizer e recipient w = .ok w') :
    Written env w (.flagCohost organizer e recipient) w'.book := by
  simp only [flagCohost, bind_eq_ok, pure_eq_ok, require_eq_ok, okOr_eq_ok] at h
  obtain ⟨-, -, primary, hPrimary, -, -, -, -, -, other, -, -, -, unpaid, rfl⟩ := h
  obtain ⟨-, first⟩ := primary_eq hPrimary
  refine .one rfl (fun _ => ⟨unpaid, by simp [first], by simp [first, Ne.symm other]⟩) ?_
  rw [World.emitCohostFlagged, World.book_emit, World.setSplitFlagged, World.book_set_splitFlagged]
  rfl

theorem normalizeSplits_valid {pairs : List (Address × ℕ)} :
    ∀ {before after : List RevenueSplit} {total total' : ℕ},
      (∀ split ∈ before, split.basisPoints ≠ 0) → (before.map (·.recipient)).Nodup →
      (before.map (·.basisPoints)).sum = total →
      normalizeSplits pairs before total = .ok (after, total') →
      (∀ split ∈ after, split.basisPoints ≠ 0) ∧ (after.map (·.recipient)).Nodup ∧
        (after.map (·.basisPoints)).sum = total' ∧ after.length = before.length + pairs.length := by
  induction pairs with
  | nil =>
    intro before after total total' positive distinct sum h
    cases h
    exact ⟨positive, distinct, sum, rfl⟩
  | cons pair rest ih =>
    obtain ⟨recipient, bps⟩ := pair
    intro before after total total' positive distinct sum h
    simp only [normalizeSplits, bind_eq_ok, require_eq_ok] at h
    obtain ⟨-, nonzero, -, -, -, fresh, h⟩ := h
    let next : RevenueSplit := { recipient, basisPoints := bps }
    have positive' : ∀ split ∈ before ++ [next], split.basisPoints ≠ 0 := by
      intro split mem
      obtain mem | mem := List.mem_append.mp mem
      · exact positive split mem
      · obtain rfl := List.mem_singleton.mp mem
        exact nonzero
    have distinct' : ((before ++ [next]).map (·.recipient)).Nodup := by
      rw [List.map_append, List.map_singleton, ← List.concat_eq_append]
      exact (List.nodup_concat ..).mpr ⟨fresh, distinct⟩
    obtain ⟨positive', distinct', sum', length⟩ := ih positive' distinct' (by simp [next, sum]) h
    refine ⟨positive', distinct', sum', ?_⟩
    rw [length, List.length_append, List.length_singleton, List.length_cons]
    omega

theorem syncRevenueSplits_written {eventContract : Address} {pairs : List (Address × ℕ)}
    (h : syncRevenueSplits env eventContract e pairs w = .ok w') :
    Written env w (.syncRevenueSplits eventContract e pairs) w'.book := by
  simp only [syncRevenueSplits, bind_eq_ok, pure_eq_ok, require_eq_ok, okOr_eq_ok] at h
  obtain ⟨-, -, -, -, -, -, -, -, -, absent, -, size, -, -, -, -, ⟨splits, total⟩, normalized, -,
    full, rfl⟩ := h
  obtain ⟨positive, distinct, sum, length⟩ :=
    normalizeSplits_valid (by simp) (by simp) (by simp) normalized
  have absent : (w.book.splits e).isSome = false := absent
  refine .one ⟨splits, rfl⟩ ⟨by simpa using absent, ?_⟩ ?_
  · refine ⟨?_, positive, distinct, sum.trans full⟩
    intro empty
    simp only [empty, List.length_nil] at length
    omega
  · rw [World.setSplits, World.book_set_eventSplits]
    rfl

end Zicket.Payments
