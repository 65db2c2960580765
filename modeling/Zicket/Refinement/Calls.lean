import Zicket.Refinement.Admin
import Zicket.Refinement.Resales
import Zicket.Refinement.Sales
import Zicket.Refinement.Splits

/-! Every step of the contract, read as postings: a successful call writes what `Posts`
says, a failed call writes nothing. Invariants of the book carry over to every run. -/

namespace Zicket.Payments

open Host Foundation Book

theorem exec_written {env : Env} {w w' : World} {c : Call} (kept : w.book.Kept)
    (h : c.exec env w = .ok w') : Written env w c w'.book := by
  cases c with
  | initialise => exact initializeContract_written kept h
  | addSupportedToken =>
    simp only [Call.exec, addSupportedToken, bind_eq_ok, pure_eq_ok] at h
    obtain ⟨-, -, -, -, -, -, rfl⟩ := h
    exact .none rfl rfl
  | setPaused =>
    simp only [Call.exec, setPaused, bind_eq_ok, pure_eq_ok] at h
    obtain ⟨-, -, rfl⟩ := h
    exact .none rfl rfl
  | setEventStatus => exact setEventStatus_written h
  | payForTicket =>
    simp only [Call.exec, bind_eq_ok, pure_eq_ok] at h
    obtain ⟨_, paid, rfl⟩ := h
    exact payForTicket_written paid
  | payForTicketWithCommitment =>
    simp only [Call.exec, bind_eq_ok, pure_eq_ok] at h
    obtain ⟨_, paid, rfl⟩ := h
    exact payForTicketWithCommitment_written paid
  | payForTicketWithOptions =>
    simp only [Call.exec, bind_eq_ok, pure_eq_ok] at h
    obtain ⟨_, paid, rfl⟩ := h
    exact payForTicketWithOptions_written paid
  | syncEventPrivacy =>
    simp only [Call.exec, syncEventPrivacy, bind_eq_ok, pure_eq_ok] at h
    obtain ⟨-, -, -, -, rfl⟩ := h
    exact .none rfl rfl
  | syncEventConfig => exact syncEventConfig_written h
  | refund => exact refund_written kept h
  | withdraw => exact withdraw_written kept h
  | extendWithdrawalDelay => exact extendWithdrawalDelay_written kept h
  | cancelEvent => exact cancelEvent_written h
  | claimRefund => exact claimRefund_written kept h
  | postponeEvent => exact postponeEvent_written h
  | resumeEvent => exact resumeEvent_written h
  | requestPostponementRefund => exact requestPostponementRefund_written kept h
  | setEventEndTime => exact setEventEndTime_written h
  | releaseIfExpired => exact releaseIfExpired_written kept h
  | withdrawRevenue => exact withdrawRevenue_written kept h
  | setPlatformFee => exact setPlatformFee_written h
  | withdrawPlatformRevenue => exact withdrawPlatformRevenue_written h
  | setEventPrivacy =>
    simp only [Call.exec, setEventPrivacy, bind_eq_ok, pure_eq_ok] at h
    obtain ⟨-, -, -, -, rfl⟩ := h
    exact .none rfl rfl
  | migrate =>
    simp only [Call.exec, migrate, bind_eq_ok, pure_eq_ok] at h
    obtain ⟨_, ⟨-, -, -, -, -, -, -, -, -, -, rfl⟩, rfl⟩ := h
    exact .none rfl rfl
  | migrateEvent => exact migrateEvent_written kept h
  | withdrawToken => exact withdrawToken_written kept h
  | withdrawAllTokens => exact withdrawAllTokens_written kept h
  | syncRevenueSplits => exact syncRevenueSplits_written h
  | withdrawSplit => exact withdrawSplit_written kept h
  | flagCohost => exact flagCohost_written h
  | resolveFlaggedShare => exact resolveFlaggedShare_written kept h
  | bindEmailCommitment => exact bindEmailCommitment_written kept h
  | setTicketContract =>
    simp only [Call.exec, setTicketContract, bind_eq_ok, pure_eq_ok] at h
    obtain ⟨-, -, rfl⟩ := h
    exact .none rfl rfl
  | listTicketForResale =>
    simp only [Call.exec, listTicketForResale, bind_eq_ok, pure_eq_ok] at h
    obtain ⟨-, -, -, -, _, -, -, -, _, -, _, -, -, -, -, -, -, -, -, -, rfl⟩ := h
    exact .none rfl rfl
  | delistTicket =>
    simp only [Call.exec, delistTicket, bind_eq_ok, pure_eq_ok] at h
    obtain ⟨-, -, -, -, _, -, -, -, rfl⟩ := h
    exact .none rfl rfl
  | buyResaleTicket => exact buyResaleTicket_written kept h
  | raiseDispute => exact raiseDispute_written kept h
  | approveRefund => exact approveRefund_written kept h
  | rejectDispute => exact rejectDispute_written kept h
  | processDisputeTimeouts => exact processDisputeTimeouts_written kept h

/-- The postings of a step: those of a successful call, or a change of outside balances. -/
def Wrote (d : Deployment) (w : World) (ps : List Posting) : Step → Prop
  | .call invocation c =>
    (∃ w', c.exec ⟨d, invocation⟩ w = .ok w' ∧ Posts ⟨d, invocation⟩ w ps c) ∨
      ((∃ e, c.exec ⟨d, invocation⟩ w = .error e) ∧ ps = [])
  | .mint token dst amount => ps = [.outside (w.next d (.mint token dst amount)).balances]
  | .pay token src dst amount => ps = [.outside (w.next d (.pay token src dst amount)).balances]

theorem payOutside_sound (d : Deployment) (w : World) (token src dst : Address) (amount : ℤ) :
    ∃ balances, Sound d.currentContract w.book (.outside balances) ∧
      w.payOutside d token src dst amount = { w with balances } := by
  unfold World.payOutside
  split
  · exact ⟨w.balances, fun _ => le_rfl, rfl⟩
  · rename_i other
    refine ⟨_, ?_, rfl⟩
    intro t
    change w.balances t d.currentContract ≤ _
    cases moved : w.balances.transfer token src dst amount with
    | none => exact le_rfl
    | some balances =>
      obtain ⟨⟨nonneg, -⟩, rfl⟩ := Balances.transfer_eq_some.mp moved
      simp only [Option.getD_some, Balances.credit_apply, Ne.symm other, and_false, if_false]
      split <;> omega

variable {d : Deployment}

theorem next_wrote {w : World} (kept : w.book.Kept) (step : Step) :
    ∃ ps, Wrote d w ps step ∧
      Along (post d.currentContract) (Sound d.currentContract) w.book ps ∧
      run (post d.currentContract) w.book ps = (w.next d step).book := by
  cases step with
  | call invocation c =>
    rw [World.next]
    cases result : c.exec ⟨d, invocation⟩ w with
    | error e => exact ⟨[], .inr ⟨⟨e, result⟩, rfl⟩, trivial, rfl⟩
    | ok w' =>
      obtain ⟨ps, posts, sound, effect⟩ := exec_written kept result
      exact ⟨ps, .inl ⟨w', result, posts⟩, sound, effect⟩
  | mint token dst amount =>
    refine ⟨_, rfl, ⟨?_, trivial⟩, ?_⟩ <;> rw [World.next]
    · intro t
      split
      · change w.balances t d.currentContract ≤ w.balances.credit token dst amount t _
        rw [Balances.credit_apply]
        split <;> omega
      · exact le_rfl
    · split <;> rfl
  | pay token src dst amount =>
    obtain ⟨balances, sound, effect⟩ := payOutside_sound d w token src dst amount
    refine ⟨_, rfl, ⟨?_, trivial⟩, ?_⟩ <;> rw [World.next, effect]
    · exact sound
    · rfl

theorem next_kept (w : World) (step : Step) (kept : w.book.Kept) : (w.next d step).book.Kept := by
  obtain ⟨ps, -, sound, effect⟩ := next_wrote kept step
  rw [← effect]
  exact run_kept sound kept

theorem deployed_kept (balances : Balances Address Address) : (deployed balances).book.Kept where
  recorded :=
    { lockstep := rfl
      numbered := by intro k p hp; cases hp
      inRange := by intro k p hp; cases hp
      ticketed := by intro k ticket ht; cases ht
      disputed := by intro k dispute hd; cases hd
      frozen := by intro k p hp; cases hp
      listed := by
        intro e k
        constructor
        · intro mem
          cases mem
        · rintro ⟨dispute, hd, -⟩
          cases hd
      distinct := fun _ => List.nodup_nil }
  configured :=
    { admin := Iff.rfl
      eventContract := Iff.rfl
      idle := fun _ _ => ⟨rfl, rfl⟩
      fee := Nat.zero_le _
      accepted := by intro e c hc; cases hc
      ratio := by intro e c r hc; cases hc
      platform := fun _ => le_rfl }

theorem run_next_kept {w : World} (kept : w.book.Kept) (steps : List Step) :
    (run (World.next d) w steps).book.Kept := by
  have step : ∀ (w : World) s, w.book.Kept → True → (w.next d s).book.Kept :=
    fun w s kept _ => next_kept w s kept
  exact run_invariant step (along_of_forall (fun _ _ => trivial) w steps) kept

theorem reachable_kept (d : Deployment) (balances : Balances Address Address)
    (steps : List Step) : (run (World.next d) (deployed balances) steps).book.Kept :=
  run_next_kept (deployed_kept balances) steps

theorem succeeds_iff {env : Env} {w : World} {c : Call} :
    c.succeeds env w = true ↔ ∃ w', c.exec env w = .ok w' := by
  unfold Call.succeeds
  cases c.exec env w <;> simp [Except.isOk, Except.toBool]

theorem succeeds_written {invocation : Invocation} {w : World} {c : Call} (kept : w.book.Kept)
    (h : c.succeeds ⟨d, invocation⟩ w = true) :
    Written ⟨d, invocation⟩ w c (w.next d (.call invocation c)).book := by
  obtain ⟨w', result⟩ := succeeds_iff.mp h
  rw [World.next, result, commit_ok]
  exact exec_written kept result

section Invariants

variable {P : World → Step → Prop} {Q : Book → Posting → Prop} {I : Book → Prop}
  (keeps : ∀ b posting, b.Kept → I b → Sound d.currentContract b posting → Q b posting →
    I (b.post d.currentContract posting))
  (writes : ∀ w step ps, w.book.Kept → I w.book → P w step → Wrote d w ps step →
    Along (post d.currentContract) (Sound d.currentContract) w.book ps →
    Along (post d.currentContract) Q w.book ps)

include keeps writes

theorem next_invariant {w : World} {step : Step} (kept : w.book.Kept) (base : I w.book)
    (meets : P w step) : I (w.next d step).book := by
  have posting : ∀ b posting, Kept b ∧ I b → Sound d.currentContract b posting ∧ Q b posting →
      (b.post d.currentContract posting).Kept ∧ I (b.post d.currentContract posting) :=
    fun b posting inv meets =>
      ⟨post_kept inv.1 meets.1, keeps b posting inv.1 inv.2 meets.1 meets.2⟩
  obtain ⟨ps, wrote, sound, effect⟩ := next_wrote kept step
  rw [← effect]
  exact (run_invariant posting (sound.and (writes w step ps kept base meets wrote sound))
    ⟨kept, base⟩).2

/-- The rule for invariants of the book: steps that meet `P` write postings that meet `Q`,
and sound postings that meet `Q` keep `I`; so runs that meet `P` keep `I`. -/
theorem book_invariant {w : World} {steps : List Step} (along : Along (World.next d) P w steps)
    (kept : w.book.Kept) (base : I w.book) : I (run (World.next d) w steps).book := by
  have step : ∀ (w : World) s, w.book.Kept ∧ I w.book → P w s →
      (w.next d s).book.Kept ∧ I (w.next d s).book :=
    fun w s inv meets =>
      ⟨next_kept w s inv.1, next_invariant keeps writes inv.1 inv.2 meets⟩
  exact (run_invariant step along ⟨kept, base⟩).2

end Invariants

theorem call_invariant {C : Env → World → Call → Prop} {Q : Book → Posting → Prop}
    {I : Book → Prop}
    (keeps : ∀ b posting, b.Kept → I b → Sound d.currentContract b posting → Q b posting →
      I (b.post d.currentContract posting))
    (outside : ∀ b balances, Q b (.outside balances))
    (writes : ∀ env w c ps, env.toDeployment = d → w.book.Kept → I w.book → C env w c →
      Posts env w ps c →
      Along (post d.currentContract) (Sound d.currentContract) w.book ps →
      Along (post d.currentContract) Q w.book ps)
    {w : World} {steps : List Step} (along : Along (World.next d) (Succeeding d C) w steps)
    (kept : w.book.Kept) (base : I w.book) : I (run (World.next d) w steps).book := by
  refine book_invariant keeps ?_ along kept base
  intro w step ps kept inv meets wrote sound
  cases step with
  | call invocation c =>
    obtain ⟨w', result, posts⟩ | ⟨-, rfl⟩ := wrote
    · exact writes _ w c ps rfl kept inv (meets (succeeds_iff.mpr ⟨w', result⟩)) posts sound
    · trivial
  | mint | pay =>
    obtain rfl := wrote
    exact along_singleton.mpr (outside _ _)

/-- What every sound posting keeps, every step keeps. -/
theorem next_posting_invariant {I : Book → Prop}
    (keeps : ∀ b posting, b.Kept → I b → Sound d.currentContract b posting →
      I (b.post d.currentContract posting))
    {w : World} (step : Step) (kept : w.book.Kept) (base : I w.book) : I (w.next d step).book :=
  next_invariant (P := fun _ _ => True) (Q := fun _ _ => True)
    (fun b posting kept inv sound _ => keeps b posting kept inv sound)
    (fun _ _ _ _ _ _ _ _ => along_of_forall (fun _ _ => trivial) _ _) kept base trivial

end Zicket.Payments
