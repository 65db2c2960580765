import Zicket.Refinement.Terms
import Zicket.Refinement.Refunds

/-! The ratio that `cancel_event` stores, and what its two roundings leave over: the
organizer's part is a floor of the whole volume, each attendee's one of his own payment. -/

namespace Zicket.Payments

open Host Foundation Book

variable {config : EventConfig} {env : Env} {w w' : World} {e : Symbol} {t : Address}

section Interpolation

def checkedDiv (m n : ℕ) : Attempt ℕ := if n = 0 then .error .trap else .ok (m / n)

/-- `cancellationRatio` with the checks that the machine makes on the way: both differences
in 32 bits, the product in 64, and a divisor. -/
def checkedRatio (config : EventConfig) (currentLedger : ℕ) : Attempt ℕ :=
  if currentLedger < config.eventStartLedger then return 0
  else if config.eventEndLedger ≤ currentLedger then return 10000
  else do
    let elapsed ← u32Sub currentLedger config.eventStartLedger
    let total : ℕ ← u32Sub config.eventEndLedger config.eventStartLedger
    if total = 0 then return 10000
    else
      let scaled ← u64 (elapsed * 10000)
      return (← checkedDiv scaled total) % 2 ^ 32

theorem cancellationRatio_mono (config : EventConfig) : Monotone (cancellationRatio config) := by
  intro ledger later le
  by_cases before : ledger < config.eventStartLedger
  · rw [cancellationRatio_before before]
    exact Nat.zero_le _
  have started : config.eventStartLedger ≤ ledger := by omega
  by_cases ended : config.eventEndLedger ≤ later
  · rw [cancellationRatio_after (started.trans le) ended]
    exact cancellationRatio_le config ledger
  rw [cancellationRatio_during started (by omega),
    cancellationRatio_during (started.trans le) (by omega)]
  exact Nat.div_le_div_right (Nat.mul_le_mul_right _ (Nat.sub_le_sub_right le _))

theorem checkedRatio_eq (bounded : config.eventEndLedger ≤ u32Max) (ledger : ℕ) :
    checkedRatio config ledger = .ok (cancellationRatio config ledger) := by
  by_cases before : ledger < config.eventStartLedger
  · rw [checkedRatio, if_pos before, cancellationRatio_before before]
    rfl
  have started : config.eventStartLedger ≤ ledger := by omega
  by_cases ended : config.eventEndLedger ≤ ledger
  · rw [checkedRatio, if_neg before, if_pos ended, cancellationRatio_after started ended]
    rfl
  have positive : config.eventEndLedger - config.eventStartLedger ≠ 0 := by omega
  have fits : (ledger - config.eventStartLedger) * 10000 < 2 ^ 64 := by
    unfold u32Max at bounded
    omega
  have elapsed : (u32Sub ledger config.eventStartLedger : Attempt ℕ) =
      .ok (ledger - config.eventStartLedger) := if_pos started
  have total : (u32Sub config.eventEndLedger config.eventStartLedger : Attempt ℕ) =
      .ok (config.eventEndLedger - config.eventStartLedger) := if_pos (by omega)
  have scaled : (u64 ((ledger - config.eventStartLedger) * 10000) : Attempt ℕ) =
      .ok ((ledger - config.eventStartLedger) * 10000) := if_pos fits
  simp only [checkedRatio, cancellationRatio, if_neg before, if_neg ended, if_neg positive,
    elapsed, total, scaled, checkedDiv, bind, Except.bind, pure, Except.pure]

end Interpolation

section Shares

theorem payRefund_transfers {p settled : PaymentRecord} {payer : Address} {x : ℤ}
    (h : payRefund env w p settled (some payer) x = .ok w') :
    w'.transfers = refundTransfer env.currentContract p payer x :: w.transfers :=
  congrArg (fun b : Book => b.transfers) (payRefund_book rfl h)

/-- A payer who got nothing back before gets his share of the payment, rounded down. -/
theorem claimRefund_share {id ratio : ℕ} {p : PaymentRecord} {payer : Address}
    (stored : w.getPayment id = .ok p) (new : p.refundedAmount = 0)
    (rate : (w.getEventConfig p.eventId).bind (·.withdrawableRatioBps) = some ratio)
    (h : claimRefund env payer id w = .ok w') :
    w'.transfers =
      refundTransfer env.currentContract p payer (bpsOf p.amount (10000 - ratio)) ::
        w.transfers := by
  simp only [claimRefund, bind_eq_ok, okOr_eq_ok, require_eq_ok, u32Sub_eq_ok, i128_eq_ok] at h
  obtain ⟨-, -, p', found, stored_payer, -, -, named, -, -, -, -, _, ⟨-, rfl⟩, -, -, share,
    computed, _, ⟨-, rfl⟩, -, -, _, ⟨-, rfl⟩, paid⟩ := h
  cases stored.symm.trans found
  subst named
  rw [payRefund_transfers paid, basisPointsOf_eq_ok computed, rate, new, sub_zero]
  rfl

theorem collectCancellationOrganizerPool_share {ratio : ℕ} {volume pool : ℤ}
    (undisputed : disputedVolume w e t = .ok 0) (total : w.getTotalTokenVolume e t = volume)
    (h : collectCancellationOrganizerPool w e t ratio = .ok pool) : pool = bpsOf volume ratio := by
  simp only [collectCancellationOrganizerPool, undisputed, total, bind_eq_ok, i128_eq_ok,
    Except.ok.injEq, exists_eq_left', sub_zero] at h
  obtain ⟨_, ⟨-, rfl⟩, computed⟩ := h
  exact basisPointsOf_eq_ok computed

end Shares

/-- What the ratio is as a function of the ledger of the cancellation. -/
structure Interpolates (config : EventConfig) (ratio : ℕ → ℕ) : Prop where
  before : ∀ ledger < config.eventStartLedger, ratio ledger = 0
  after : ∀ ledger, config.eventStartLedger ≤ ledger → config.eventEndLedger ≤ ledger →
    ratio ledger = 10000
  capped : ∀ ledger, ratio ledger ≤ 10000
  mono : Monotone ratio
  checked : config.eventEndLedger ≤ u32Max → ∀ ledger,
    checkedRatio config ledger = .ok (ratio ledger)

theorem cancellationRatio_interpolates (config : EventConfig) :
    Interpolates config (cancellationRatio config) where
  before _ := cancellationRatio_before
  after _ := cancellationRatio_after
  capped := cancellationRatio_le config
  mono := cancellationRatio_mono config
  checked := checkedRatio_eq

/-- Cancelling stores the interpolated ratio. At that ratio the organizer's pool of a volume
without disputes and the refunds of the payments it is made of are floors which together
stay within the volume and miss it by less than a unit for each of them. -/
theorem cancellation_rounding (d : Deployment) (invocation : Invocation) (w w' : World)
    (e : Symbol) (organizer : Address) (payments : List PaymentRecord)
    (new : ∀ p ∈ payments, 0 ≤ p.amount ∧ p.refundedAmount = 0)
    (cancelled : cancelEvent ⟨d, invocation⟩ e organizer w = .ok w') :
    ∃ config, w.getEventConfig e = some config ∧
      Interpolates config (cancellationRatio config) ∧
      let ratio := cancellationRatio config invocation.sequence
      w'.getEventConfig e = some { config with
        cancelLedger := some invocation.sequence, withdrawableRatioBps := some ratio } ∧
      let volume := (payments.map (·.amount)).sum
      let shares := payments.map fun p => bpsOf p.amount (10000 - ratio)
      (∀ v t pool, disputedVolume v e t = .ok 0 → v.getTotalTokenVolume e t = volume →
        collectCancellationOrganizerPool v e t ratio = .ok pool → pool = bpsOf volume ratio) ∧
      (∀ p ∈ payments, ∀ env payer v v', v.getPayment p.paymentId = .ok p →
        (v.getEventConfig p.eventId).bind (·.withdrawableRatioBps) = some ratio →
        claimRefund env payer p.paymentId v = .ok v' →
        v'.transfers =
          refundTransfer env.currentContract p payer (bpsOf p.amount (10000 - ratio)) ::
            v.transfers) ∧
      bpsOf volume ratio + shares.sum ≤ volume ∧
      volume < bpsOf volume ratio + shares.sum + (payments.length + 1) := by
  obtain ⟨config, -, stored, -, -, -, table, -⟩ := cancelEvent_ok cancelled
  refine ⟨config, stored, cancellationRatio_interpolates config, ?_, ?_, ?_, ?_⟩
  · exact (congrFun table e).trans (Function.update_self ..)
  · exact fun v t pool => collectCancellationOrganizerPool_share
  · exact fun p mem env payer v v' found rate => claimRefund_share found (new p mem).2 rate
  · have nonneg : ∀ amount ∈ payments.map (·.amount), 0 ≤ amount :=
      List.forall_mem_map.mpr fun p mem => (new p mem).1
    have parts := bpsOf_add_parts nonneg (cancellationRatio_le config invocation.sequence)
    rw [List.map_map, List.length_map] at parts
    exact parts

def Sample.payment (paymentId : ℕ) (amount : ℤ) : PaymentRecord :=
  { paymentId, eventId := concert, payer := some bob, hashedWallet := none,
    stealthDeliveryKey := none, nullifierCommitment := none, amount, token, status := .held,
    paidAt := 2, privacyLevel := .standard, refundedAmount := 0, zkEmailCommitment := none }

/-- Half way through the concert the half of 133 rounds down, and so does the half of 33. -/
theorem cancellation_rounding_half :
    ∃ ratio, ratio = 5000 ∧ bpsOf 133 ratio + (bpsOf 100 (10000 - ratio) +
      (bpsOf 33 (10000 - ratio) + 0)) ≤ 133 := by
  let w := run (World.next Sample.deployment) (deployed Sample.noBalances) Sample.opening
  let step := Sample.call 5 (.cancelEvent Sample.concert Sample.organizer)
  obtain ⟨config, stored, -, -, -, -, le, -⟩ :=
    cancellation_rounding Sample.deployment (Sample.invocation 5) w
      (w.next Sample.deployment step) Sample.concert Sample.organizer
      [Sample.payment 1 100, Sample.payment 2 33] (by decide) rfl
  have half : cancellationRatio config 5 = 5000 := by
    cases stored
    decide
  exact ⟨_, half, le⟩

/-- Where the end lies before the start, the start decides: in between nothing is the
organizer's although the end is reached. -/
theorem cancelled_between_end_and_start :
    let terms := { Sample.terms with eventStartLedger := 20, eventEndLedger := 10 }
    let w := run (World.next Sample.deployment) (deployed Sample.noBalances)
      (Sample.opening ++ [Sample.call 1 (.syncEventConfig Sample.eventContract Sample.concert terms),
        Sample.call 15 (.cancelEvent Sample.concert Sample.organizer)])
    ((w.getEventConfig Sample.concert).map fun config =>
      (config.eventEndLedger, config.cancelLedger, config.withdrawableRatioBps)) =
        some (10, some 15, some 0) := by
  decide

end Zicket.Payments
