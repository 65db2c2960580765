import Zicket.Foundation.Run
import Zicket.Payments.Admin
import Zicket.Payments.Resale
import Zicket.Payments.Splits

/-! The payments contract as a machine: its public operations, what else can happen to
the token balances, and runs from the deployed contract. A failed call changes nothing. -/

namespace Zicket.Payments

open Host Foundation

inductive Call where
  | initialise (admin token : Address) (platformFeeBps : ℕ) (platformWallet eventContract : Address)
  | addSupportedToken (admin token : Address)
  | setPaused (admin : Address) (paused : Bool)
  | setEventStatus (admin : Address) (e : Symbol) (status : EventStatus)
  | payForTicket (nonce : ℕ) (payer : Address) (e : Symbol) (amount : ℤ)
      (emailHash : Option (BytesN 32)) (tokenAddress : Address) (privacyLevel : PaymentPrivacy)
      (nullifierCommitment stealthDeliveryKey : Option (BytesN 32))
  | payForTicketWithCommitment (nonce : ℕ) (payer : Address) (e : Symbol) (amount : ℤ)
      (emailHash : Option (BytesN 32)) (tokenAddress : Address) (privacyLevel : PaymentPrivacy)
      (zkEmailCommitment : Option (BytesN 32))
  | payForTicketWithOptions (nonce : ℕ) (payer : Address) (e : Symbol) (amount : ℤ)
      (tokenAddress : Address) (isAnonymous isVerified : Bool)
  | syncEventPrivacy (eventContract : Address) (e : Symbol)
      (allowAnonymous requiresVerification : Bool)
  | syncEventConfig (eventContract : Address) (e : Symbol) (terms : EventTerms)
  | refund (admin : Address) (paymentId : ℕ) (amount : Option ℤ)
  | withdraw (organizer : Address) (e : Symbol)
  | extendWithdrawalDelay (admin : Address) (e : Symbol) (additionalLedgers : ℕ)
  | cancelEvent (e : Symbol) (organizer : Address)
  | claimRefund (payer : Address) (paymentId : ℕ)
  | postponeEvent (e : Symbol) (organizer : Address) (choiceDeadlineLedger : ℕ)
  | resumeEvent (e : Symbol) (organizer : Address)
  | requestPostponementRefund (caller : Address) (ticketId : ℕ)
  | setEventEndTime (admin : Address) (e : Symbol) (organizer : Address) (eventEndTime : ℕ)
  | releaseIfExpired (e : Symbol)
  | withdrawRevenue (e : Symbol) (recipient : Address)
  | setPlatformFee (feeBps : ℕ) (wallet : Address)
  | withdrawPlatformRevenue (e : Symbol)
  | setEventPrivacy (admin : Address) (e : Symbol) (level : PrivacyLevel)
  | migrate (admin : Address)
  | migrateEvent (admin : Address) (e : Symbol)
  | withdrawToken (organizer : Address) (e : Symbol) (t : Address)
  | withdrawAllTokens (organizer : Address) (e : Symbol)
  | syncRevenueSplits (eventContract : Address) (e : Symbol) (splits : List (Address × ℕ))
  | withdrawSplit (recipient : Address) (e : Symbol)
  | flagCohost (primaryOrganizer : Address) (e : Symbol) (recipient : Address)
  | resolveFlaggedShare (e : Symbol) (recipient : Address) (resolution : FlagResolution)
  | bindEmailCommitment (payer : Address) (paymentId : ℕ) (commitment : BytesN 32)
  | setTicketContract (admin ticketContract : Address)
  | listTicketForResale (seller : Address) (ticketId : ℕ) (price : ℤ)
  | delistTicket (seller : Address) (ticketId : ℕ)
  | buyResaleTicket (buyer : Address) (ticketId : ℕ)
  | raiseDispute (ticketId reasonCode : ℕ) (proof : Option Bytes)
  | approveRefund (ticketId : ℕ)
  | rejectDispute (ticketId : ℕ)
  | processDisputeTimeouts (e : Symbol)

def Call.exec (env : Env) (w : World) : Call → Attempt World
  | .initialise admin token feeBps wallet eventContract =>
    initializeContract admin token feeBps wallet eventContract w
  | .addSupportedToken admin token => Payments.addSupportedToken env admin token w
  | .setPaused admin paused => Payments.setPaused env admin paused w
  | .setEventStatus admin e status => Payments.setEventStatus env admin e status w
  | .payForTicket nonce payer e amount emailHash token level nullifier stealthKey => do
    let (_, w) ← Payments.payForTicket env nonce payer e amount emailHash token level nullifier
      stealthKey w
    return w
  | .payForTicketWithCommitment nonce payer e amount emailHash token level commitment => do
    let (_, w) ← Payments.payForTicketWithCommitment env nonce payer e amount emailHash token
      level commitment w
    return w
  | .payForTicketWithOptions nonce payer e amount token isAnonymous isVerified => do
    let (_, w) ← Payments.payForTicketWithOptions env nonce payer e amount token isAnonymous
      isVerified w
    return w
  | .syncEventPrivacy eventContract e allowAnonymous requiresVerification =>
    Payments.syncEventPrivacy env eventContract e allowAnonymous requiresVerification w
  | .syncEventConfig eventContract e terms => Payments.syncEventConfig env eventContract e terms w
  | .refund admin paymentId amount => Payments.refund env admin paymentId amount w
  | .withdraw organizer e => Payments.withdraw env organizer e w
  | .extendWithdrawalDelay admin e ledgers => Payments.extendWithdrawalDelay env admin e ledgers w
  | .cancelEvent e organizer => Payments.cancelEvent env e organizer w
  | .claimRefund payer paymentId => Payments.claimRefund env payer paymentId w
  | .postponeEvent e organizer deadline => Payments.postponeEvent env e organizer deadline w
  | .resumeEvent e organizer => Payments.resumeEvent env e organizer w
  | .requestPostponementRefund caller ticketId =>
    Payments.requestPostponementRefund env caller ticketId w
  | .setEventEndTime admin e organizer endTime =>
    Payments.setEventEndTime env admin e organizer endTime w
  | .releaseIfExpired e => Payments.releaseIfExpired env e w
  | .withdrawRevenue e recipient => Payments.withdrawRevenue env e recipient w
  | .setPlatformFee feeBps wallet => Payments.setPlatformFee env feeBps wallet w
  | .withdrawPlatformRevenue e => Payments.withdrawPlatformRevenue env e w
  | .setEventPrivacy admin e level => Payments.setEventPrivacy env admin e level w
  | .migrate admin => do
    let (_, w) ← Payments.migrate env admin w
    return w
  | .migrateEvent admin e => Payments.migrateEvent env admin e w
  | .withdrawToken organizer e t => Payments.withdrawToken env organizer e t w
  | .withdrawAllTokens organizer e => Payments.withdrawAllTokens env organizer e w
  | .syncRevenueSplits eventContract e splits =>
    Payments.syncRevenueSplits env eventContract e splits w
  | .withdrawSplit recipient e => Payments.withdrawSplit env recipient e w
  | .flagCohost primary e recipient => Payments.flagCohost env primary e recipient w
  | .resolveFlaggedShare e recipient resolution =>
    Payments.resolveFlaggedShare env e recipient resolution w
  | .bindEmailCommitment payer paymentId commitment =>
    Payments.bindEmailCommitment env payer paymentId commitment w
  | .setTicketContract admin ticketContract => Payments.setTicketContract env admin ticketContract w
  | .listTicketForResale seller ticketId price =>
    Payments.listTicketForResale env seller ticketId price w
  | .delistTicket seller ticketId => Payments.delistTicket env seller ticketId w
  | .buyResaleTicket buyer ticketId => Payments.buyResaleTicket env buyer ticketId w
  | .raiseDispute ticketId reasonCode proof => Payments.raiseDispute env ticketId reasonCode proof w
  | .approveRefund ticketId => Payments.approveRefund env ticketId w
  | .rejectDispute ticketId => Payments.rejectDispute env ticketId w
  | .processDisputeTimeouts e => processTimedOutDisputes env e w

def Call.succeeds (env : Env) (w : World) (c : Call) : Bool := (c.exec env w).isOk

/-- A call of the contract, or token activity outside it. -/
inductive Step where
  | call (invocation : Invocation) (c : Call)
  | mint (token dst : Address) (amount : ℤ)
  | pay (token src dst : Address) (amount : ℤ)

/-- Outside the contract nobody spends the contract's own balance. -/
def World.payOutside (d : Deployment) (w : World) (token src dst : Address) (amount : ℤ) : World :=
  if src = d.currentContract then w
  else { w with balances := (w.balances.transfer token src dst amount).getD w.balances }

def World.next (d : Deployment) (w : World) : Step → World
  | .call invocation c => commit w (c.exec ⟨d, invocation⟩ w)
  | .mint token dst amount =>
    if 0 ≤ amount then { w with balances := w.balances.credit token dst amount } else w
  | .pay token src dst amount => w.payOutside d token src dst amount

/-- A condition on the successful calls of a run, read in the state before the call. -/
def Succeeding (d : Deployment) (C : Env → World → Call → Prop) (w : World) : Step → Prop
  | .call invocation c => c.succeeds ⟨d, invocation⟩ w = true → C ⟨d, invocation⟩ w c
  | _ => True

instance (d : Deployment) (C : Env → World → Call → Prop) [∀ env w c, Decidable (C env w c)]
    (w : World) (step : Step) : Decidable (Succeeding d C w step) := by
  cases step <;> dsimp only [Succeeding] <;> infer_instance

def deployed (balances : Balances Address Address) : World :=
  { storage := .empty, balances, transfers := [], events := [] }

def Step.sequence? : Step → Option ℕ
  | .call invocation _ => some invocation.sequence
  | _ => none

/-- The ledger sequence never decreases along the run. -/
def Chronological (steps : List Step) : Prop :=
  (steps.filterMap Step.sequence?).Pairwise (· ≤ ·)

instance (steps : List Step) : Decidable (Chronological steps) :=
  inferInstanceAs (Decidable (List.Pairwise _ _))

/-! A small deployment on which runs can be computed. -/

namespace Sample

def crypto : Crypto where
  addressXdr _ := []
  symbolXdr _ := []
  u64Xdr _ := []
  credentialXdr _ _ _ := []
  sha256 _ := zeroHash
  ed25519Verify _ _ _ := true

def deployment : Deployment := { currentContract := ⟨0⟩, crypto }

def invocation (ledger : ℕ) : Invocation :=
  { sequence := ledger, timestamp := ledger, authorized := fun _ => true,
    adminTransferTicket := fun _ _ _ _ _ => true }

def admin : Address := ⟨1⟩
def organizer : Address := ⟨2⟩
def token : Address := ⟨3⟩
def eventContract : Address := ⟨4⟩
def bob : Address := ⟨5⟩
def amy : Address := ⟨6⟩
def concert : Symbol := ⟨1⟩
def festival : Symbol := ⟨2⟩

def terms : EventTerms :=
  { organizer, payoutToken := token, allowAnonymous := true, requiresVerification := false,
    maxTicketsPerUser := 0, maxSupply := 0, eventStartLedger := 0, eventEndLedger := 10,
    withdrawalDelayLedgers := 0, resaleRoyaltyBps := 0, maxResalePrice := none,
    allowFreeTicketTransfer := false }

def noBalances : Balances Address Address := fun _ _ => 0

def call (ledger : ℕ) (c : Call) : Step := .call (invocation ledger) c

def sale (ledger nonce : ℕ) (payer : Address) (e : Symbol) (amount : ℤ) : Step :=
  call ledger (.payForTicket nonce payer e amount none token .standard none none)

def opening : List Step :=
  [.mint token bob 1000, call 1 (.initialise admin token 0 admin eventContract),
    call 1 (.syncEventConfig eventContract concert terms),
    call 1 (.syncEventConfig eventContract festival terms)]

end Sample

end Zicket.Payments
