import Zicket.Verifier.Canonical
import Zicket.Verifier.Decoding
import Zicket.Verifier.Rounds
import Zicket.Verifier.Sumcheck

/-! The proof system behind the contract: the transcript of the decoded proof, the public inputs in
the permutation argument, the sumcheck and the opening. -/

namespace Zicket.Verifier

open Host Foundation

/-- `map_err`: the reason of a step is not reported, only which step it was. -/
def atStep {α : Type} (e : VerifyError) : Checked α → Attempt α
  | .ok a => .ok a
  | .error (.error _) => .error (.error e)
  | .error .trap => .error .trap

/-- The numerator and the denominator of the grand product, and the terms of the next input. -/
structure DeltaState where
  numerator : Fr
  denominator : Fr
  numeratorAcc : Fr
  denominatorAcc : Fr

def DeltaState.step (beta : Fr) (state : DeltaState) (publicInput : Fr) : DeltaState where
  numerator := state.numerator * (state.numeratorAcc + publicInput)
  denominator := state.denominator * (state.denominatorAcc + publicInput)
  numeratorAcc := state.numeratorAcc + beta
  denominatorAcc := state.denominatorAcc - beta

/-- The words of the public inputs, and the pairing points behind them. -/
def computePublicInputDelta (publicInputs : Bytes)
    (pairingPointObject : Vector Fr pairingPointsSize) (beta gamma : Fr) (offset n : ℕ) :
    Checked Fr := do
  ensure (n + offset < 2 ^ 64 ∧ offset + 1 < 2 ^ 64) .trap
  let start : DeltaState := {
    numerator := 1
    denominator := 1
    numeratorAcc := gamma + beta * Fr.fromU64 (n + offset)
    denominatorAcc := gamma - beta * Fr.fromU64 (offset + 1) }
  let words := (List.range ((publicInputs.length + 31) / 32)).map (frWord32 publicInputs)
  let state := (words ++ pairingPointObject.toList).foldl (DeltaState.step beta) start
  ensure (state.denominator.isZero = false) (.error "denominator is zero in public_input_delta")
  return state.numerator * state.denominator⁻¹

section Checking

variable (hash32 : Bytes → BytesN 32) (curve : Bn254) (vk : VerificationKey)
  (proofBytes publicInputs : Bytes)

/-- The steps of `UltraHonkVerifier::verify` behind its checks of the public inputs. -/
def checkHonkProof : Attempt Unit := do
  let proof ← atStep .invalidInput (loadProof proofBytes)
  let pisTotal := publicInputs.length / 32 + pairingPointsSize
  let t ← atStep .invalidInput (generateTranscript hash32 proof publicInputs vk.circuitSize pisTotal
    vk.pubInputsOffset)
  let publicInputsDelta ← atStep .invalidInput (computePublicInputDelta publicInputs
    proof.pairingPointObject t.relParams.beta t.relParams.gamma vk.pubInputsOffset vk.circuitSize)
  let t := { t with relParams := { t.relParams with publicInputsDelta } }
  atStep .sumcheckFailed (verifySumcheck proof t vk)
  atStep .shplonkFailed (verifyShplemini proof t curve vk)

def honkProving : Proving where
  fromBytes := Fr.fromArray
  toBytes := Fr.toBytes
  checkProof := checkHonkProof hash32 curve

/-- The field elements of the model are those that the SDK documents. -/
theorem fr_reduces (checkProof : VerificationKey → Bytes → Bytes → Attempt Unit) :
    Proving.Reduces { fromBytes := Fr.fromArray, toBytes := Fr.toBytes, checkProof } :=
  ⟨fun _ => rfl, Fr.ofBigEndian_toBytes⟩

end Checking

section Accepted

variable {hash32 : Bytes → BytesN 32} {curve : Bn254} {vk : VerificationKey}
  {bytes proofBytes publicInputs : Bytes}

theorem atStep_eq_ok {α : Type} {e : VerifyError} {result : Checked α} {a : α} :
    atStep e result = .ok a ↔ result = .ok a := by
  rcases result with (_ | _) | _ <;> simp [atStep]

theorem readU64_lt (index : ℕ) : ofBigEndian (wordAt 8 bytes index) < 2 ^ 64 := by
  have short : (wordAt 8 bytes index).length ≤ 8 := by simp [wordAt]
  calc ofBigEndian (wordAt 8 bytes index)
      < 256 ^ (wordAt 8 bytes index).length := ofBigEndian_lt _
    _ ≤ 256 ^ 8 := Nat.pow_le_pow_right (by norm_num) short
    _ = 2 ^ 64 := by norm_num

theorem loadVkFromBytes_lt (loaded : loadVkFromBytes bytes = .ok vk) :
    vk.circuitSize < 2 ^ 64 ∧ vk.publicInputsSize < 2 ^ 64 ∧ vk.pubInputsOffset < 2 ^ 64 := by
  unfold loadVkFromBytes at loaded
  obtain ⟨-, -, loaded⟩ := bind_eq_ok.mp loaded
  obtain ⟨-, -, loaded⟩ := bind_eq_ok.mp loaded
  obtain ⟨-, -, loaded⟩ := bind_eq_ok.mp loaded
  obtain ⟨-, -, loaded⟩ := bind_eq_ok.mp loaded
  obtain ⟨-, -, loaded⟩ := bind_eq_ok.mp loaded
  obtain rfl := Except.ok.inj loaded
  exact ⟨readU64_lt 0, readU64_lt 2, readU64_lt 3⟩

/-- What is accepted has a decoded proof and a transcript over a statement whose inputs are counted
by the key, and passed the sumcheck and the opening. -/
theorem statement_of_verify (loaded : loadVkFromBytes bytes = .ok vk)
    (accepted : vk.verify (honkProving hash32 curve) proofBytes publicInputs = .ok ()) :
    ∃ s : Statement, loadProof proofBytes = .ok s.proof ∧ s.publicInputs = publicInputs ∧
      s.circuitSize = vk.circuitSize ∧ s.publicInputsSize = vk.publicInputsSize ∧
      s.pubInputsOffset = vk.pubInputsOffset ∧
      ∃ t delta, generateTranscript hash32 s.proof s.publicInputs s.circuitSize
        s.publicInputsSize s.pubInputsOffset = .ok t ∧
        verifySumcheck s.proof
          { t with relParams := { t.relParams with publicInputsDelta := delta } } vk = .ok () ∧
        verifyShplemini s.proof
          { t with relParams := { t.relParams with publicInputsDelta := delta } } curve vk =
            .ok () := by
  obtain ⟨circuit, count, start⟩ := loadVkFromBytes_lt loaded
  simp only [VerificationKey.verify, honkProving, checkHonkProof, bind_eq_ok, require_eq_ok,
    atStep_eq_ok] at accepted
  obtain ⟨-, -, -, whole, -, enough, -, counted, -, -, -, -, proof, decoded, t, transcript, delta, -,
    _, sumcheck, opening⟩ := accepted
  have total : publicInputs.length / 32 + pairingPointsSize = vk.publicInputsSize := by omega
  rw [total] at transcript
  exact ⟨⟨proof, publicInputs, vk.circuitSize, vk.publicInputsSize, vk.pubInputsOffset, circuit,
    count, start, by omega⟩, decoded, rfl, rfl, rfl, rfl, t, delta, transcript, sumcheck, opening⟩

end Accepted

end Zicket.Verifier
