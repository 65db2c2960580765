import Zicket.Verifier.Libra

/-! The batched opening: one inversion for all denominators, the reconstruction of the folds, and
one multi-scalar multiplication before the pairing. The curve is the host's. -/

namespace Zicket.Verifier

open Host Foundation

def numberUnshifted : ℕ := 35

/-- `bn254` of the host. A point that is not on the curve traps. -/
structure Bn254 where
  g1Msm : List (G1Point × Fr) → Checked G1Point
  neg : G1Point → G1Point
  pairingCheck : G1Point → G1Point → Bool

def G1Point.infinity : G1Point := Vector.replicate 64 0

def G1Point.generator : G1Point :=
  toArray 64 (List.replicate 31 0 ++ [1] ++ List.replicate 31 0 ++ [2])

def Bn254.msm (curve : Bn254) (coms : List G1Point) (scalars : List Fr) : Checked G1Point := do
  ensure (coms.length = scalars.length) (.error "msm len mismatch")
  let terms := (coms.zip scalars).filter fun (_, s) => s ≠ 0
  if terms = [] then return G1Point.infinity
  else curve.g1Msm terms

section Inversion

variable (tp : Transcript) (logN : ℕ)

def rPow (geminiR : Fr) : ℕ → Fr
  | 0 => geminiR
  | i + 1 => rPow geminiR i * rPow geminiR i

def maxBatch : ℕ := 3 * constProofSizeLogN + 2

def furtherBase : ℕ := 3 + logN

def libraDenominatorIndex : ℕ := 3 + logN + 2 * (logN - 1)

def batchSize : ℕ := libraDenominatorIndex logN + 1

def uChallenge (j : ℕ) : Fr := tp.sumcheckUChallenges.toList.getD j 0

/-- The loop over the denominators of the folds, `j` of them left. -/
def fillFolds : (j : ℕ) → List Fr → List Fr
  | 0, toInvert => toInvert
  | j + 1, toInvert =>
    let u := uChallenge tp j
    fillFolds j (toInvert.set (3 + (logN - (j + 1))) (rPow tp.geminiR j * (1 - u) + u))

/-- The loop over the pairs `z - r^j` and `z + r^j`, up to `j`. -/
def fillPairs : (j : ℕ) → List Fr → List Fr
  | 0, toInvert => toInvert
  | j + 1, toInvert =>
    let toInvert := fillPairs j toInvert
    let toInvert := toInvert.set (furtherBase logN + 2 * j) (tp.shplonkZ - rPow tp.geminiR (j + 1))
    toInvert.set (furtherBase logN + 2 * j + 1) (tp.shplonkZ + rPow tp.geminiR (j + 1))

def toInvert : List Fr :=
  let toInvert := List.replicate maxBatch 0
  let toInvert := toInvert.set 0 (tp.shplonkZ - rPow tp.geminiR 0)
  let toInvert := toInvert.set 1 (tp.shplonkZ + rPow tp.geminiR 0)
  let toInvert := toInvert.set 2 tp.geminiR
  let toInvert := fillFolds tp logN logN toInvert
  let toInvert := fillPairs tp logN (logN - 1) toInvert
  toInvert.set (libraDenominatorIndex logN) (tp.shplonkZ - subgroupGenerator * tp.geminiR)

def invertDenominators : Checked (List Fr) := do
  let inverted ← withText
    "shplemini: batch inversion failed (zero denominator in shplonk/gemini/fold/libra)"
    (batchInverse ((toInvert tp logN).take (batchSize logN))
      ((List.replicate maxBatch 0).take (batchSize logN)))
  ensure (¬ ∃ x ∈ inverted, x.isZero = true)
    (.error "shplemini: batch inversion produced zero result")
  return inverted

end Inversion

section Evaluation

variable (proof : Proof) (tp : Transcript)

/-- The state of the loop over the evaluations. -/
structure Batching where
  rhoPow : Fr
  evalAcc : Fr
  evalScalars : List Fr

/-- The first 35 evaluations are unshifted. -/
def weightEvaluation (negUnshifted negShifted : Fr) (batch : Batching) : Fr × ℕ → Batching
  | (eval, idx) =>
    let scalar := (if idx < numberUnshifted then negUnshifted else negShifted) * batch.rhoPow
    { rhoPow := batch.rhoPow * tp.rho
      evalAcc := batch.evalAcc + eval * batch.rhoPow
      evalScalars := batch.evalScalars ++ [scalar] }

def weightEvaluations (negUnshifted negShifted : Fr) : Batching :=
  proof.sumcheckEvaluations.toList.zipIdx.foldl (weightEvaluation tp negUnshifted negShifted)
    { rhoPow := tp.rho, evalAcc := proof.hidingPolynomialEvaluation, evalScalars := [] }

def geminiAEvaluation (j : ℕ) : Fr := proof.geminiAEvaluations.toList.getD j 0

/-- The folding rounds from the last to the first, `j` of them left. -/
def foldingRounds (logN : ℕ) (inverted : List Fr) : (j : ℕ) → (cur : Fr) → List Fr → List Fr
  | 0, _, foldPos => foldPos
  | j + 1, cur, foldPos =>
    let two := Fr.fromU64 2
    let r2 := rPow tp.geminiR j
    let u := uChallenge tp j
    let foldLin := r2 * (1 - u) - u
    let num := r2 * cur * two - geminiAEvaluation proof j * foldLin
    let denInv := inverted.getD (3 + (logN - (j + 1))) 0
    let cur := num * denInv
    foldingRounds logN inverted j cur (foldPos.set j cur)

/-- What the rest of the verification uses: the inverses, the weighted evaluations and the
positive evaluations of the folds. -/
structure Folds where
  inverted : List Fr
  batch : Batching
  foldPos : List Fr

def Folds.pos0 (folds : Folds) : Fr := folds.inverted.getD 0 0

def Folds.neg0 (folds : Folds) : Fr := folds.inverted.getD 1 0

/-- Up to the folding rounds. -/
def reconstructFolds (logN : ℕ) : Checked Folds := do
  let inverted ← invertDenominators tp logN
  let pos0 := inverted.getD 0 0
  let neg0 := inverted.getD 1 0
  let geminiRInv := inverted.getD 2 0
  let unshifted := tp.shplonkNu * neg0 + pos0
  let shifted := geminiRInv * (pos0 - tp.shplonkNu * neg0)
  let batch := weightEvaluations proof tp (-unshifted) (-shifted)
  let foldPos := foldingRounds proof tp logN inverted logN batch.evalAcc
    (List.replicate constProofSizeLogN 0)
  return { inverted, batch, foldPos }

/-- The state of the loop over the further folds. -/
structure Folding where
  constAcc : Fr
  vPow : Fr
  scalars : List Fr

def nuSq : Fr := tp.shplonkNu * tp.shplonkNu

def furtherFold (logN : ℕ) (folds : Folds) (folding : Folding) (k : ℕ) : Folding :=
  let posInv := folds.inverted.getD (furtherBase logN + 2 * k) 0
  let negInv := folds.inverted.getD (furtherBase logN + 2 * k + 1) 0
  let sp := folding.vPow * posInv
  let sn := folding.vPow * tp.shplonkNu * negInv
  { constAcc := folding.constAcc + geminiAEvaluation proof (k + 1) * sn +
      folds.foldPos.getD (k + 1) 0 * sp
    vPow := folding.vPow * nuSq tp
    scalars := folding.scalars.set k (-(sp + sn)) }

/-- The constant term and the scalars of the fold commitments, those of the folds that are not
used being zero. -/
def furtherFolding (logN : ℕ) (folds : Folds) : Folding :=
  let constAcc := folds.foldPos.getD 0 0 * folds.pos0 +
    geminiAEvaluation proof 0 * tp.shplonkNu * folds.neg0
  (List.range (logN - 1)).foldl (furtherFold proof tp logN folds)
    { constAcc, vPow := nuSq tp, scalars := List.replicate (constProofSizeLogN - 1) 0 }

/-- The Libra terms: the constant and the four scalars. -/
def libraTerms (logN : ℕ) (folds : Folds) (constAcc : Fr) : Fr × List Fr :=
  let libraDenominators := [folds.pos0, folds.inverted.getD (libraDenominatorIndex logN) 0,
    folds.pos0, folds.pos0]
  let terms := (libraDenominators.zip proof.libraPolynomialEvaluations.toList).zipIdx.foldl
    (fun (constAcc, scalars) ((denominator, evaluation), index) =>
      let scaling := denominator * tp.shplonkNu ^ (2 * constProofSizeLogN + 2 + index)
      (constAcc + scaling * evaluation, scalars ++ [-scaling]))
    (constAcc, [])
  terms

/-- The commitments in the order of the scalars. -/
def commitments (vk : VerificationKey) : List G1Point :=
  [proof.shplonkQ, proof.hidingPolynomialCommitment] ++ vk.commitments.map (toArray 64) ++
    [proof.w1, proof.w2, proof.w3, proof.w4, proof.zPerm, proof.lookupInverses,
      proof.lookupReadCounts, proof.lookupReadTags] ++
    [proof.w1, proof.w2, proof.w3, proof.w4, proof.zPerm] ++ proof.geminiFoldComms.toList ++
    [proof.libraConcatenationCommitment, proof.libraGrandSumCommitment,
      proof.libraQuotientCommitment, G1Point.generator, proof.kzgQuotient]

def verifyShplemini (curve : Bn254) (vk : VerificationKey) : Checked Unit := do
  let logN := vk.logCircuitSize
  ensure (logN ≠ 0 ∧ logN ≤ constProofSizeLogN) (.error "shplemini: log_circuit_size out of range")
  let folds ← reconstructFolds proof tp logN
  let unshifted := tp.shplonkNu * folds.neg0 + folds.pos0
  let further := furtherFolding proof tp logN folds
  let (constAcc, libraScalars) := libraTerms proof tp logN folds further.constAcc
  let libra index := libraScalars.getD index 0
  let scalars := [1, -unshifted] ++ folds.batch.evalScalars ++ further.scalars ++
    [libra 0, libra 1 + libra 2, libra 3, constAcc, tp.shplonkZ]
  checkLibraEvaluationsConsistency proof tp
  let p0 ← curve.msm (commitments proof vk) scalars
  let p1 := curve.neg proof.kzgQuotient
  ensure (curve.pairingCheck p0 p1 = true) (.error "Shplonk pairing check failed")

end Evaluation

end Zicket.Verifier
