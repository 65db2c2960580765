import Zicket.Common.Validation
import Zicket.Payments.Withdrawals

/-! Revenue splits: registration, lazy settlement, the recipients' withdrawals and the
flagging of a compromised co-host. -/

namespace Zicket.Payments

open Host Foundation Common

def splitPairs (splits : List RevenueSplit) : List (Address × ℕ) :=
  splits.map fun split => (split.recipient, split.basisPoints)

def findSplitBps (splits : List RevenueSplit) (who : Address) : Option ℕ :=
  findRecipientBasisPoints (splitPairs splits) who

def recipientShare (splits : List RevenueSplit) (who : Address) (net : ℤ) : Attempt ℤ :=
  match splits with
  | [] => return 0
  | primary :: _ => calculateRecipientShare (splitPairs splits) who primary.recipient net

/-- The token revenue a settlement leaves: at the full ratio the source stores zero. -/
def remainingTokenRevenue (w : World) (e : Symbol) (t : Address) (ratio : ℕ) (total : ℤ) :
    Attempt ℤ :=
  if ratio = 10000 then return 0 else i128 (w.getEventTokenRevenue e t - total)

/-- Settle a split event once: the first call fixes the net amount, later calls return it. -/
def ensureSplitSettled (env : Env) (e : Symbol) (w : World) :
    Attempt (SplitSettlement × World) :=
  match w.getSplitSettlement e with
  | some settlement => return (settlement, w)
  | none => do
    let config ← okOr (w.getEventConfig e) .invalidOrganizer
    let ratio ← withdrawableRatio env w e config
    let w ← validateRevenueInvariant env e w
    require (w.getEventDisputes e = []) .activeDisputes
    let payoutToken ← w.getEventPayoutToken e
    require (w.getEventStatus e = some .cancelled ∨ 0 < w.getEventTokenRevenue e payoutToken)
      .noRevenue
    let total ← amountToWithdraw w e payoutToken ratio
    require (0 < total) .noRevenue
    let fee ← basisPointsOf total w.getPlatformFeeBps
    let net ← i128 (total - fee)
    require (0 < net) .noRevenue
    let left ← remainingTokenRevenue w e payoutToken ratio total
    let w := w.setEventTokenRevenue e payoutToken left
    let w ← w.shiftEventRevenue e (-total)
    let w ← collectPlatformFee env w e fee net payoutToken
    let settlement := { token := payoutToken, netDistributable := net }
    return (settlement, w.setSplitSettlement e settlement)

/-- The loop of `sync_revenue_splits`: earlier entries and their total come in. -/
def normalizeSplits : List (Address × ℕ) → List RevenueSplit → ℕ → Attempt (List RevenueSplit × ℕ)
  | [], normalized, total => return (normalized, total)
  | (recipient, bps) :: rest, normalized, total => do
    require (bps ≠ 0) .invalidSplitConfig
    require (total + bps < 2 ^ 32) .invalidSplitConfig
    require (recipient ∉ normalized.map (·.recipient)) .invalidSplitConfig
    normalizeSplits rest (normalized ++ [{ recipient, basisPoints := bps }]) (total + bps)

def syncRevenueSplits (env : Env) (eventContract : Address) (e : Symbol)
    (splits : List (Address × ℕ)) (w : World) : Attempt World := do
  requireNotPaused w
  let storedContract ← w.getEventContract
  require (eventContract = storedContract) .unauthorized
  requireAuth env eventContract
  require (w.hasSplits e = false) .invalidSplitConfig
  require (0 < splits.length ∧ splits.length ≤ 5) .invalidSplitConfig
  let config ← okOr (w.getEventConfig e) .invalidOrganizer
  require (splits.head?.map (·.1) = some config.organizer) .invalidSplitConfig
  let (normalized, total) ← normalizeSplits splits [] 0
  require (total = 10000) .invalidSplitConfig
  return w.setSplits e normalized

def withdrawSplit (env : Env) (recipient : Address) (e : Symbol) (w : World) : Attempt World := do
  requireNotPaused w
  requireAuth env recipient
  let splits := w.getSplits e
  require (splits ≠ []) .splitsNotConfigured
  require (findSplitBps splits recipient ≠ none) .notASplitRecipient
  require (w.isSplitFlagged e recipient = false) .recipientFlagged
  require (w.getSplitWithdrawn e recipient ≤ 0) .splitAlreadyWithdrawn
  let (settlement, w) ← ensureSplitSettled env e w
  let share ← recipientShare splits recipient settlement.netDistributable
  require (0 < share) .noRevenue
  let w ← w.transfer
    { token := settlement.token, src := env.currentContract, dst := recipient, amount := share,
      eventId := e, purpose := .splitShare recipient }
  let w := w.setSplitWithdrawn e recipient share
  let w ← bookWithdrawal env w e settlement.token recipient share
  return emitWithdrawn env w e recipient share settlement.token

def flagCohost (env : Env) (primaryOrganizer : Address) (e : Symbol) (recipient : Address)
    (w : World) : Attempt World := do
  requireNotPaused w
  let splits := w.getSplits e
  let primary ← okOr (splits.head?.map (·.recipient)) .splitsNotConfigured
  require (primaryOrganizer = primary) .unauthorized
  requireAuth env primaryOrganizer
  require (recipient ≠ primary) .unauthorized
  require (findSplitBps splits recipient ≠ none) .notASplitRecipient
  require (w.getSplitWithdrawn e recipient ≤ 0) .splitAlreadyWithdrawn
  let w := w.setSplitFlagged e recipient true
  return w.emitCohostFlagged env e recipient primaryOrganizer

/-- The flagged share goes to the primary organizer and counts as paid. -/
def reassignToPrimary (env : Env) (e : Symbol) (recipient : Address) (splits : List RevenueSplit)
    (w : World) : Attempt World := do
  require (w.getSplitWithdrawn e recipient ≤ 0) .splitAlreadyWithdrawn
  let (settlement, w) ← ensureSplitSettled env e w
  let primary ← okOr (splits.head?.map (·.recipient)) .splitsNotConfigured
  let share ← recipientShare splits recipient settlement.netDistributable
  require (0 < share) .noRevenue
  let w ← w.transfer
    { token := settlement.token, src := env.currentContract, dst := primary, amount := share,
      eventId := e, purpose := .splitShare recipient }
  let w := w.setSplitWithdrawn e recipient share
  let w := w.setSplitFlagged e recipient false
  let w ← bookWithdrawal env w e settlement.token primary share
  return w.emitFlaggedShareResolved env e recipient false share

def resolveFlaggedShare (env : Env) (e : Symbol) (recipient : Address)
    (resolution : FlagResolution) (w : World) : Attempt World := do
  requireNotPaused w
  let admin ← w.getAdmin
  requireAuth env admin
  let splits := w.getSplits e
  require (splits ≠ []) .splitsNotConfigured
  require (findSplitBps splits recipient ≠ none) .notASplitRecipient
  require (w.isSplitFlagged e recipient = true) .recipientNotFlagged
  match resolution with
  | .releaseToRecipient =>
    let w := w.setSplitFlagged e recipient false
    return w.emitFlaggedShareResolved env e recipient true 0
  | .reassignToPrimary => reassignToPrimary env e recipient splits w

end Zicket.Payments
