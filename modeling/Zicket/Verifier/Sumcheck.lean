import Zicket.Verifier.Relations
import Zicket.Verifier.Shplemini

/-! The sumcheck: every round checks its univariate against the target before it, and evaluates it
at the challenge from its values at nine points. -/

namespace Zicket.Verifier

open Host Foundation

/-- The weights are small, or the negatives of small numbers. -/
def baryWord (start : Bytes) (last : Bytes) : BytesN 32 := toArray 32 (start ++ last)

def baryPositive : Bytes := List.replicate 30 0

def baryNegative : Bytes := [
  0x30, 0x64, 0x4e, 0x72, 0xe1, 0x31, 0xa0, 0x29, 0xb8, 0x50, 0x45, 0xb6, 0x81, 0x81, 0x58,
  0x5d, 0x28, 0x33, 0xe8, 0x48, 0x79, 0xb9, 0x70, 0x91, 0x43, 0xe1, 0xf5, 0x93, 0xef, 0xff]

def baryBytes : List (BytesN 32) := [
  baryWord baryPositive [0x9d, 0x80], baryWord baryNegative [0xec, 0x51],
  baryWord baryPositive [0x05, 0xa0], baryWord baryNegative [0xfd, 0x31],
  baryWord baryPositive [0x02, 0x40], baryWord baryNegative [0xfd, 0x31],
  baryWord baryPositive [0x05, 0xa0], baryWord baryNegative [0xec, 0x51],
  baryWord baryPositive [0x9d, 0x80]]

def barycentricWeights : List Fr := baryBytes.map Fr.fromArray

def pointIndices : List Fr := (List.range batchedRelationPartialLength).map Fr.fromU64

def checkSum (roundUnivariate : List Fr) (roundTarget : Fr) : Bool :=
  roundUnivariate.getD 0 0 + roundUnivariate.getD 1 0 = roundTarget

def computeNextTargetSum (roundUnivariate : List Fr) (roundChallenge : Fr)
    (barycentricWeights pointIndices : List Fr) : Checked Fr :=
  match (pointIndices.zip roundUnivariate).find? fun (point, _) => roundChallenge = point with
  -- a challenge among the points needs no interpolation
  | some (_, univariate) => return univariate
  | none => do
    let diffs := pointIndices.map (roundChallenge - ·)
    let bPoly := diffs.foldl (· * ·) 1
    let denoms := List.zipWith (· * ·) barycentricWeights diffs
    let invDenoms ← withText "sumcheck: barycentric denominator is zero"
      (batchInverse denoms (List.replicate batchedRelationPartialLength 0))
    let acc := (roundUnivariate.zip invDenoms).foldl
      (fun acc (univariate, invDenom) => acc + univariate * invDenom) 0
    return bPoly * acc

def partiallyEvaluatePow (gateChallenge powPartialEvaluation roundChallenge : Fr) : Fr :=
  powPartialEvaluation * (1 + roundChallenge * (gateChallenge - 1))

section Rounds

variable (proof : Proof) (tp : Transcript)

def roundUnivariate (round : ℕ) : List Fr :=
  (proof.sumcheckUnivariates.toList.getD round (Vector.replicate _ 0)).toList

/-- The target and the separator after the first rounds. -/
def sumcheckRoundsTarget : (rounds : ℕ) → Checked (Fr × Fr)
  | 0 => return (tp.libraChallenge * proof.libraSum, 1)
  | round + 1 => do
    let (roundTarget, powPartialEvaluation) ← sumcheckRoundsTarget round
    let univariate := roundUnivariate proof round
    ensure (checkSum univariate roundTarget = true) (.error "round failed")
    let roundChallenge := uChallenge tp round
    let roundTarget ←
      computeNextTargetSum univariate roundChallenge barycentricWeights pointIndices
    let gateChallenge := tp.gateChallenges.toList.getD round 0
    return (roundTarget, partiallyEvaluatePow gateChallenge powPartialEvaluation roundChallenge)

def verifySumcheck (vk : VerificationKey) : Checked Unit := do
  let logN := vk.logCircuitSize
  ensure (logN ≠ 0 ∧ logN ≤ constProofSizeLogN) (.error "sumcheck: log_circuit_size out of range")
  let (roundTarget, powPartialEvaluation) ← sumcheckRoundsTarget proof tp logN
  let grandHonkRelationSum := accumulateRelationEvaluations proof.sumcheckEvaluations tp.relParams
    tp.alphas powPartialEvaluation
  let evaluation := ((tp.sumcheckUChallenges.toList.take logN).drop 2).foldl (· * ·) 1
  let maskedRelationSum := grandHonkRelationSum * (1 - evaluation) +
    proof.libraClaimedEvaluation * tp.libraChallenge
  ensure (maskedRelationSum = roundTarget) (.error "sumcheck final mismatch")

end Rounds

end Zicket.Verifier
