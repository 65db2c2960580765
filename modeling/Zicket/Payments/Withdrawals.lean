import Zicket.Payments.Disputes
import Zicket.Payments.Refunds

/-! Payouts of an event's escrowed revenue to its organizer, and the platform's sweep. -/

namespace Zicket.Payments

open Host Foundation

def disputedVolume (w : World) (e : Symbol) (t : Address) : Attempt ℤ :=
  (w.getEventDisputes e).foldlM (fun total ticketId =>
    match w.getDispute ticketId with
    | none => return total
    | some dispute =>
      match w.get (.payment dispute.paymentId) with
      | none => return total
      | some payment => if payment.token = t then i128 (total + payment.amount) else return total) 0

/-- The organizer's part of a cancelled event: `ratio` of its gross volume, disputes aside. -/
def collectCancellationOrganizerPool (w : World) (e : Symbol) (t : Address) (ratio : ℕ) :
    Attempt ℤ := do
  let disputed ← disputedVolume w e t
  let eligible ← i128 (w.getTotalTokenVolume e t - disputed)
  basisPointsOf eligible ratio

def ensureNoSplits (w : World) (e : Symbol) : Attempt Unit :=
  require (w.hasSplits e = false) .invalidSplitConfig

/-- Status and timing rules shared by `withdraw` and `ensure_split_settled`; the
result is the withdrawable ratio in basis points. -/
def withdrawableRatio (env : Env) (w : World) (e : Symbol) (config : EventConfig) : Attempt ℕ :=
  match w.getEventStatus e with
  | some .completed => do
    let unlock ← u32 (config.eventEndLedger + config.withdrawalDelayLedgers)
    let unlock ← u32 (unlock + config.adminDelayExtensionLedgers)
    require (unlock ≤ env.sequence) .escrowNotExpired
    return 10000
  | some .cancelled => do
    let cancelLedger ← okOr config.cancelLedger .eventNotCompleted
    let unlock ← u32 (cancelLedger + minDisputeWindowLedgers)
    require (unlock ≤ env.sequence) .escrowNotExpired
    let ratio ← okOr config.withdrawableRatioBps .eventNotCompleted
    require (ratio ≠ 0) .noRevenue
    return ratio
  | _ => fail .eventNotCompleted

/-- What `withdraw` and `ensure_split_settled` take out of the event's revenue. -/
def amountToWithdraw (w : World) (e : Symbol) (t : Address) (ratio : ℕ) : Attempt ℤ :=
  if w.getEventStatus e = some .cancelled then collectCancellationOrganizerPool w e t ratio
  else basisPointsOf (w.getEventTokenRevenue e t) ratio

/-- A positive fee is credited to the event's platform revenue. -/
def collectPlatformFee (env : Env) (w : World) (e : Symbol) (fee net : ℤ) (t : Address) :
    Attempt World :=
  if 0 < fee then do
    let w ← w.addPlatformRevenue e fee
    return w.emitPlatformFeeCollected env e fee net t
  else return w

def bookWithdrawal (env : Env) (w : World) (e : Symbol) (t recipient : Address) (amount : ℤ) :
    Attempt World := do
  let w ← w.addTotalWithdrawn e amount
  let w ← w.addTotalTokenWithdrawn e t amount
  w.addWithdrawalRecord e { amount, timestamp := env.timestamp, organizer := recipient }

def emitWithdrawn (env : Env) (w : World) (e : Symbol) (recipient : Address) (amount : ℤ)
    (t : Address) : World :=
  w.emitRevenueWithdrawn env e recipient amount t recipient (w.getEmissionPrivacy e)

/-- What `withdraw` leaves of the revenue: nothing at the full ratio. -/
def deductRevenue (w : World) (e : Symbol) (t : Address) (ratio : ℕ) (total : ℤ) : Attempt World :=
  if ratio = 10000 then return w.setEventTokenRevenue e t 0 else do
    let w := w.setEventTokenRevenue e t (← i128 (w.getEventTokenRevenue e t - total))
    w.shiftEventRevenue e (-total)

def withdraw (env : Env) (organizer : Address) (e : Symbol) (w : World) : Attempt World := do
  requireNotPaused w
  requireAuth env organizer
  ensureNoSplits w e
  let storedOrganizer ← w.getEventOrganizer e
  require (organizer = storedOrganizer) .unauthorizedWithdrawal
  let config ← okOr (w.getEventConfig e) .invalidOrganizer
  require (config.organizerWithdrawn = false) .noRevenue
  let ratio ← withdrawableRatio env w e config
  let w ← validateRevenueInvariant env e w
  require (w.getEventDisputes e = []) .activeDisputes
  let payoutToken ← w.getEventPayoutToken e
  require (0 < w.getEventTokenRevenue e payoutToken) .noRevenue
  let total ← amountToWithdraw w e payoutToken ratio
  require (0 < total) .noRevenue
  let fee ← basisPointsOf total w.getPlatformFeeBps
  let organizerAmount ← i128 (total - fee)
  let w ← w.transfer
    { token := payoutToken, src := env.currentContract, dst := storedOrganizer,
      amount := organizerAmount, eventId := e, purpose := .revenue }
  let w ← collectPlatformFee env w e fee organizerAmount payoutToken
  let w ← deductRevenue w e payoutToken ratio total
  let w := w.setEventConfig e { config with organizerWithdrawn := true }
  let w ← bookWithdrawal env w e payoutToken storedOrganizer organizerAmount
  return emitWithdrawn env w e storedOrganizer organizerAmount payoutToken

def latchWithdrawn (w : World) (e : Symbol) : Option EventConfig → World
  | some config => w.setEventConfig e { config with organizerWithdrawn := true }
  | none => w

def withdrawRevenue (env : Env) (e : Symbol) (recipient : Address) (w : World) :
    Attempt World := do
  requireNotPaused w
  let admin ← w.getAdmin
  requireAuth env admin
  ensureNoSplits w e
  require (w.getEventStatus e ≠ some .postponed) .eventNotActive
  let config := w.getEventConfig e
  require ((config.map (·.organizerWithdrawn)).getD false = false) .paymentAlreadyProcessed
  let w ← validateRevenueInvariant env e w
  let token ← w.getAcceptedToken
  let revenue := w.getEventTokenRevenue e token
  require (0 < revenue) .invalidAmount
  let fee ← basisPointsOf revenue w.getPlatformFeeBps
  let organizerAmount ← i128 (revenue - fee)
  let w ← w.transfer
    { token, src := env.currentContract, dst := recipient, amount := organizerAmount,
      eventId := e, purpose := .revenue }
  let w ← collectPlatformFee env w e fee organizerAmount token
  let w := w.setEventTokenRevenue e token 0
  let w ← w.shiftEventRevenue e (-revenue)
  let w := latchWithdrawn w e config
  let w ← bookWithdrawal env w e token recipient organizerAmount
  return emitWithdrawn env w e recipient organizerAmount token

/-- Pay a token's whole revenue out without a fee. The three callers write the same
entries, in different orders. -/
def drainToken (env : Env) (w : World) (e : Symbol) (t recipient : Address) : Attempt World := do
  let total := w.getEventTokenRevenue e t
  let w ← w.transfer
    { token := t, src := env.currentContract, dst := recipient, amount := total, eventId := e,
      purpose := .revenue }
  let w := w.setEventTokenRevenue e t 0
  let w ← w.shiftEventRevenue e (-total)
  bookWithdrawal env w e t recipient total

def releaseTokens (env : Env) (e : Symbol) (organizer : Address) :
    List Address → ℤ → World → Attempt (ℤ × World)
  | [], total, w => return (total, w)
  | t :: rest, total, w =>
    let tokenTotal := w.getEventTokenRevenue e t
    if 0 < tokenTotal then do
      let w ← drainToken env w e t organizer
      let total ← i128 (total + tokenTotal)
      releaseTokens env e organizer rest total w
    else releaseTokens env e organizer rest total w

def releaseIfExpired (env : Env) (e : Symbol) (w : World) : Attempt World := do
  requireNotPaused w
  ensureNoSplits w e
  let escrow ← w.getEscrowMeta e
  require (escrow.autoReleased = false) .escrowAlreadyReleased
  require (w.getEventStatus e ≠ some .postponed) .eventNotActive
  require (escrow.eventEndTime ≤ env.timestamp) .escrowNotExpired
  require (((w.getEventConfig e).map (·.eventEndLedger)).getD 0 ≤ env.sequence) .escrowNotExpired
  let w ← validateRevenueInvariant env e w
  let (total, w) ← releaseTokens env e escrow.organizer (w.getEventTokens e) 0 w
  let w := w.setEscrowMeta e { escrow with autoReleased := true }
  return w.emitEscrowAutoReleased env e escrow.organizer total

def withdrawToken (env : Env) (organizer : Address) (e : Symbol) (t : Address) (w : World) :
    Attempt World := do
  requireNotPaused w
  requireAuth env organizer
  ensureNoSplits w e
  require (w.getEventStatus e = some .completed) .eventNotCompleted
  let w ← validateRevenueInvariant env e w
  let revenue := w.getEventTokenRevenue e t
  require (0 < revenue) .noRevenue
  let w ← drainToken env w e t organizer
  return emitWithdrawn env w e organizer revenue t

/-- The loop of `withdraw_all_tokens`; the flag says whether any token had revenue. -/
def drainTokens (env : Env) (e : Symbol) (organizer : Address) :
    List Address → Bool → World → Attempt (Bool × World)
  | [], hasRevenue, w => return (hasRevenue, w)
  | t :: rest, hasRevenue, w =>
    let revenue := w.getEventTokenRevenue e t
    if 0 < revenue then do
      let w ← drainToken env w e t organizer
      drainTokens env e organizer rest true (emitWithdrawn env w e organizer revenue t)
    else drainTokens env e organizer rest hasRevenue w

def withdrawAllTokens (env : Env) (organizer : Address) (e : Symbol) (w : World) :
    Attempt World := do
  requireNotPaused w
  requireAuth env organizer
  ensureNoSplits w e
  require (w.getEventStatus e = some .completed) .eventNotCompleted
  let w ← validateRevenueInvariant env e w
  let (hasRevenue, w) ← drainTokens env e organizer (w.getEventTokens e) false w
  require (hasRevenue = true) .noRevenue
  return w

def withdrawPlatformRevenue (env : Env) (e : Symbol) (w : World) : Attempt World := do
  requireNotPaused w
  let admin ← w.getAdmin
  requireAuth env admin
  let platformRevenue := w.getPlatformRevenue e
  require (0 < platformRevenue) .noPlatformRevenue
  let platformWallet ← w.getPlatformWallet
  let token ← w.getAcceptedToken
  let w ← w.transfer
    { token, src := env.currentContract, dst := platformWallet, amount := platformRevenue,
      eventId := e, purpose := .platformSweep }
  let w ← w.addTotalTokenWithdrawn e token platformRevenue
  let w := w.resetPlatformRevenue e
  return w.emitPlatformRevenueWithdrawn env e platformRevenue token platformWallet

end Zicket.Payments
