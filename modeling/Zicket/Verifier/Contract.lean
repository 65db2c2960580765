import Mathlib.Data.ZMod.Basic
import Zicket.Foundation.BigEndian
import Zicket.Host.Env

/-! The verifier of anonymous claims: a contract around an UltraHonk verifier with one
verification key. What it reads from bytes is here, with every check it makes before the proof
system starts; the proof system itself (transcript, sumcheck, opening) is a parameter. -/

namespace Zicket.Verifier

open Host Foundation

inductive VkLoadError where
  | wrongLength
  | invalidParameters
  deriving DecidableEq, Repr

inductive VerifyError where
  | invalidInput
  | sumcheckFailed
  | shplonkFailed
  deriving DecidableEq, Repr

abbrev Attempt (α : Type) := Except (Failure VerifyError) α

def require (p : Prop) [Decidable p] (e : VerifyError) : Attempt Unit :=
  ensure p (.error e)

@[simp] theorem require_eq_ok {p : Prop} [Decidable p] {e : VerifyError} {u : Unit} :
    require p e = .ok u ↔ p :=
  ensure_eq_ok

def constProofSizeLogN : ℕ := 28

def pairingPointsSize : ℕ := 16

def proofFields : ℕ := 507

def proofBytes : ℕ := proofFields * 32

def publicInputBytes : ℕ := 5 * 32

def modulus : ℕ :=
  21888242871839275222246405745257275088548364400416034343698204186575808495617

instance : NeZero modulus := ⟨by decide⟩

/-- The commitments are the 27 points in the order of the layout. -/
structure VerificationKey where
  circuitSize : ℕ
  logCircuitSize : ℕ
  publicInputsSize : ℕ
  pubInputsOffset : ℕ
  commitments : List Bytes
  deriving DecidableEq

/-- `Bn254Fr::from_bytes` and `Bn254Fr::to_bytes` of the SDK, and the verification behind the
checks of the contract, with what it finds in the bytes of the proof. -/
structure Proving where
  fromBytes : BytesN 32 → ZMod modulus
  toBytes : ZMod modulus → BytesN 32
  checkProof : VerificationKey → Bytes → Bytes → Attempt Unit

def wordAt (size : ℕ) (bytes : Bytes) (index : ℕ) : Bytes :=
  (bytes.drop (index * size)).take size

def loadVkFromBytes (bytes : Bytes) : Except VkLoadError VerificationKey := do
  let headerWords := 4
  let numPoints := 27
  ensure (bytes.length = headerWords * 8 + numPoints * 64) .wrongLength
  let readU64 index := ofBigEndian (wordAt 8 bytes index)
  let circuitSize := readU64 0
  let logCircuitSize := readU64 1
  let publicInputsSize := readU64 2
  let pubInputsOffset := readU64 3
  ensure (logCircuitSize ≠ 0 ∧ logCircuitSize ≤ constProofSizeLogN) .invalidParameters
  ensure (pairingPointsSize ≤ publicInputsSize) .invalidParameters
  ensure (circuitSize = 2 ^ logCircuitSize) .invalidParameters
  ensure (pubInputsOffset ≤ circuitSize) .invalidParameters
  let points := bytes.drop (headerWords * 8)
  return { circuitSize, logCircuitSize, publicInputsSize, pubInputsOffset,
           commitments := (List.range numPoints).map (wordAt 64 points) }

/-- The 32 bytes from the offset on; out of range, the host traps. -/
def slice32 (bytes : Bytes) (offset : ℕ) : Attempt (BytesN 32) :=
  if h : ((bytes.drop offset).take 32).length = 32 then
    .ok ⟨((bytes.drop offset).take 32).toArray, by simpa using h⟩
  else .error .trap

/-- The loop over the words that are left, from the offset on. -/
def wordsAreCanonical (proving : Proving) (publicInputs : Bytes) (offset : ℕ) :
    (words : ℕ) → Attempt Bool
  | 0 => return true
  | words + 1 => do
    let encoded ← slice32 publicInputs offset
    if proving.toBytes (proving.fromBytes encoded) ≠ encoded then return false
    else wordsAreCanonical proving publicInputs (offset + 32) words

/-- The loop runs while the offset is in range. -/
def publicInputsAreCanonical (proving : Proving) (publicInputs : Bytes) : Attempt Bool :=
  wordsAreCanonical proving publicInputs 0 ((publicInputs.length + 31) / 32)

/-- `UltraHonkVerifier::verify`. -/
def VerificationKey.verify (vk : VerificationKey) (proving : Proving) (proof publicInputs : Bytes) :
    Attempt Unit := do
  -- `load_proof`: the layout is fixed
  require (proof.length = proofBytes) .invalidInput
  require (publicInputs.length % 32 = 0) .invalidInput
  let provided := publicInputs.length / 32
  require (pairingPointsSize ≤ vk.publicInputsSize) .invalidInput
  require (vk.publicInputsSize - pairingPointsSize = provided) .invalidInput
  let canonical ← publicInputsAreCanonical proving publicInputs
  require (canonical = true) .invalidInput
  proving.checkProof vk proof publicInputs

/-- The deployed contract, with the key it was built with. -/
structure AnonymousClaimVerifier extends Proving where
  verificationKey : Bytes

def AnonymousClaimVerifier.verify (contract : AnonymousClaimVerifier)
    (proof publicInputs : Bytes) : Option Bool :=
  if proof.length ≠ proofBytes ∨ publicInputs.length ≠ publicInputBytes then some false
  else match loadVkFromBytes contract.verificationKey with
    | .error _ => some false
    | .ok vk => match vk.verify contract.toProving proof publicInputs with
      | .ok () => some true
      | .error (.error _) => some false
      | .error .trap => none

end Zicket.Verifier
