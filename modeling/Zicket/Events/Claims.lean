import Zicket.Events.Sales

/-! Tickets claimed with a proof: anonymous claims of free tickets, and attendance with a
ZK passport. -/

namespace Zicket.Events

open Host Foundation

variable {σ : Type} (net : Network σ)

def anonymousClaimDomain : Bytes := "zicket:anonymous-ticket-claim:v1".toUTF8.toList

/-- The digest with its upper half cleared, so that it is a field element. -/
def anonymousClaimScope (env : Env) (e : Symbol) : BytesN 32 :=
  let digest := env.crypto.sha256
    (anonymousClaimDomain ++ net.networkId.toList ++ env.crypto.addressXdr env.currentContract ++
      env.crypto.symbolXdr e)
  Vector.ofFn fun i => if i.val < 16 then 0 else digest.get i

/-- `append_u32_field`: a 32-byte field that ends in the big-endian value. -/
def u32Field (value : ℕ) : Bytes :=
  List.replicate 28 0 ++
    [UInt8.ofNat (value / 2 ^ 24), UInt8.ofNat (value / 2 ^ 16), UInt8.ofNat (value / 2 ^ 8),
      UInt8.ofNat value]

def anonymousClaimPublicInputs (env : Env) (e : Symbol) (tierId : ℕ)
    (claim : AnonymousTicketClaim) : Bytes :=
  (anonymousClaimScope net env e).toList ++ u32Field tierId ++ u32Field claim.expiryLedger ++
    claim.nullifier.toList ++ claim.ticketCommitment.toList

def Event.findFreeTier (event : Event) (tierId : ℕ) : Attempt (ℕ × TicketTier) := do
  let (index, tier) ← event.findTier tierId
  require (tier.price = 0) .invalidInput
  return (index, tier)

def countAnonClaim (env : Env) (e : Symbol) (w : World σ) : Attempt (World σ) :=
  let settings := w.getAnonClaimSettings e
  if 0 < settings.maxAnonClaimsPerWindow ∧ 0 < settings.anonWindowSize then do
    let currentWindow := env.sequence / settings.anonWindowSize
    let state := w.getAnonWindowState e
    let count := if state.windowIndex = currentWindow then state.count else 0
    require (count < settings.maxAnonClaimsPerWindow) .anonClaimWindowFull
    let count ← u32 (count + 1)
    return w.set (.eventAnonWindow e) { windowIndex := currentWindow, count }
  else return w

def verifyClaim (env : Env) (verifier : Address) (e : Symbol) (tierId : ℕ)
    (claim : AnonymousTicketClaim) (w : World σ) : Attempt (World σ) := do
  let (accepted, outside) := net.tryVerify env verifier claim.proof
    (anonymousClaimPublicInputs net env e tierId claim) w.outside
  require (accepted = true) .anonymousProofInvalid
  return { w with outside }

def claimNewTicket (env : Env) (e : Symbol) (tierId : ℕ) (claim : AnonymousTicketClaim)
    (event : Event) (w : World σ) : Attempt (World σ) := do
  require (event.status = .active) .eventNotActive
  require (event.allowAnonymous = true) .anonymousClaimsNotEnabled
  require (env.sequence ≤ claim.expiryLedger) .anonymousProofExpired
  require (claim.expiryLedger ≤ saturatingAdd env.sequence maxAnonymousProofTtlLedgers)
    .anonymousProofExpiryTooFar
  let (index, tier) ← event.findFreeTier tierId
  require (event.soldCount < event.maxSupply) .eventSoldOut
  requireSeat tier
  let w ← countAnonClaim env e w
  let verifier ← w.getAnonymousClaimVerifier
  let w ← verifyClaim net env verifier e tierId claim w
  let w := w.set (.anonymousNullifier e claim.nullifier) claim.ticketCommitment
  let (sold, w) ← sellSeats e event index tier 1 false w
  return w.emitAnonRegistration env e tierId sold

/-- A claim made before is accepted again without effect. -/
def claimAnonymousTicket (env : Env) (e : Symbol) (tierId : ℕ) (claim : AnonymousTicketClaim)
    (w : World σ) : Attempt (World σ) := do
  let event ← w.getEvent e
  match w.get (.anonymousNullifier e claim.nullifier) with
  | some commitment =>
    if commitment = claim.ticketCommitment then return w else fail .anonymousNullifierReused
  | none => claimNewTicket net env e tierId claim event w

/-- The linked contracts charge and mint; the event contract is payer and owner. -/
def chargeAttendance (env : Env) (e : Symbol) (event : Event) (price : ℤ) (w : World σ) :
    Attempt (World σ) :=
  if w.hasLinkedContracts then do
    let paymentsContract ← w.getPaymentsContract
    let w ← chargePriced net env paymentsContract 0 env.currentContract e price price none w
    let ticketContract ← w.getTicketContract
    w.tell (net.mintTicket env ticketContract event.eventId event.organizer env.currentContract)
  else return w

def verifyAndAttend (env : Env) (e : Symbol) (tierId : ℕ) (claim : ZkPassportClaim)
    (w : World σ) : Attempt (World σ) := do
  let event ← w.getEvent e
  require (event.status = .active) .eventNotActive
  requireSettleablePrivacy w e
  require (event.requiresVerification = true) .zkVerificationRequired
  let zkConfig := w.getZkVerificationConfig e
  require (zkConfig.enabled = true) .zkVerificationRequired
  require (env.sequence ≤ claim.expiryLedger) .zkProofExpired
  require (zkConfig.requiredClaimType = .any ∨ claim.claimType = zkConfig.requiredClaimType)
    .zkClaimTypeMismatch
  -- the proof itself is not checked
  require (w.has (.zkNullifier e claim.nullifier) = false) .zkNullifierReused
  let (index, tier) ← event.findTier tierId
  require (event.soldCount < event.maxSupply) .eventSoldOut
  requireSeat tier
  let w ← chargeAttendance net env e event tier.price w
  let w := w.set (.zkNullifier e claim.nullifier) true
  let (sold, w) ← sellSeats e event index tier 1 false w
  return w.emitZkVerifiedAttendance env e claim.claimType tierId sold

end Zicket.Events
