import Zicket.Foundation.Layout
import Zicket.Verifier.Contract
import Zicket.Verifier.Field

/-! A proof as it is read from its bytes, and as the transcript writes its parts back. A
coordinate of a point travels as two words: the low 17 bytes and the high 15. -/

namespace Zicket.Verifier

open Host Foundation

def numberOfEntities : ℕ := 40

def batchedRelationPartialLength : ℕ := 9

/-- The affine point as the host keeps it, `x` before `y`; the host checks it where it is used. -/
abbrev G1Point := BytesN 64

def toArray (size : ℕ) (bytes : Bytes) : BytesN size := Vector.ofFn fun i => bytes.getD i 0

structure Proof where
  pairingPointObject : Vector Fr pairingPointsSize
  w1 : G1Point
  w2 : G1Point
  w3 : G1Point
  w4 : G1Point
  lookupReadCounts : G1Point
  lookupReadTags : G1Point
  lookupInverses : G1Point
  zPerm : G1Point
  libraConcatenationCommitment : G1Point
  libraSum : Fr
  sumcheckUnivariates : Vector (Vector Fr batchedRelationPartialLength) constProofSizeLogN
  sumcheckEvaluations : Vector Fr numberOfEntities
  libraClaimedEvaluation : Fr
  libraGrandSumCommitment : G1Point
  libraQuotientCommitment : G1Point
  hidingPolynomialCommitment : G1Point
  hidingPolynomialEvaluation : Fr
  geminiFoldComms : Vector G1Point (constProofSizeLogN - 1)
  geminiAEvaluations : Vector Fr constProofSizeLogN
  libraPolynomialEvaluations : Vector Fr 4
  shplonkQ : G1Point
  kzgQuotient : G1Point
  deriving Inhabited

def pairingObjBytes : ℕ := pairingPointsSize * 32

def proofHeadG1Bytes : ℕ := 8 * 128

def libraConcatenationBytes : ℕ := 128 + 32

def sumcheckUnivBytes : ℕ := constProofSizeLogN * batchedRelationPartialLength * 32

def sumcheckEvalBytes : ℕ := numberOfEntities * 32

def zkOpeningBytes : ℕ := 32 + 3 * 128 + 32

def geminiFoldCommsBytes : ℕ := (constProofSizeLogN - 1) * 128

def geminiAEvalBytes : ℕ := constProofSizeLogN * 32

def libraEvalBytes : ℕ := 4 * 32

def finalTwoG1Bytes : ℕ := 2 * 128

/-- The next bytes, and the index after them; out of range, the host traps. -/
def readBytes (count : ℕ) (bytes : Bytes) (idx : ℕ) : Checked (Bytes × ℕ) := do
  ensure (idx + count ≤ bytes.length) .trap
  return ((bytes.drop idx).take count, idx + count)

def slice (bytes : Bytes) (first last : ℕ) : Bytes := (bytes.drop first).take (last - first)

def combineLimbs (lo hi : BytesN 32) : BytesN 32 :=
  toArray 32 (hi.toList.drop 17 ++ lo.toList.drop 15)

def frWord32 (blob : Bytes) (wordIdx : ℕ) : Fr := Fr.fromArray (toArray 32 (wordAt 32 blob wordIdx))

def G1Point.fromXy (x y : BytesN 32) : G1Point := toArray 64 (x.toList ++ y.toList)

def g1FromProofChunk128 (b : Bytes) : G1Point :=
  let x := combineLimbs (toArray 32 (wordAt 32 b 0)) (toArray 32 (wordAt 32 b 1))
  let y := combineLimbs (toArray 32 (wordAt 32 b 2)) (toArray 32 (wordAt 32 b 3))
  G1Point.fromXy x y

def g1FromProofBlobAt (blob : Bytes) (pointIdx : ℕ) : G1Point :=
  g1FromProofChunk128 (wordAt 128 blob pointIdx)

def loadProof (proof : Bytes) : Checked Proof := do
  ensure (proof.length = proofBytes) (.error "proof bytes length mismatch")
  let (ppo, boundary) ← readBytes pairingObjBytes proof 0
  let (g1Head, boundary) ← readBytes proofHeadG1Bytes proof boundary
  let (libraHead, boundary) ← readBytes libraConcatenationBytes proof boundary
  let (su, boundary) ← readBytes sumcheckUnivBytes proof boundary
  let (se, boundary) ← readBytes sumcheckEvalBytes proof boundary
  let (zkOpening, boundary) ← readBytes zkOpeningBytes proof boundary
  let (gf, boundary) ← readBytes geminiFoldCommsBytes proof boundary
  let (ga, boundary) ← readBytes geminiAEvalBytes proof boundary
  let (libraEvals, boundary) ← readBytes libraEvalBytes proof boundary
  let (tailG1, _) ← readBytes finalTwoG1Bytes proof boundary
  return {
    pairingPointObject := .ofFn fun i => frWord32 ppo i
    w1 := g1FromProofBlobAt g1Head 0
    w2 := g1FromProofBlobAt g1Head 1
    w3 := g1FromProofBlobAt g1Head 2
    lookupReadCounts := g1FromProofBlobAt g1Head 3
    lookupReadTags := g1FromProofBlobAt g1Head 4
    w4 := g1FromProofBlobAt g1Head 5
    lookupInverses := g1FromProofBlobAt g1Head 6
    zPerm := g1FromProofBlobAt g1Head 7
    libraConcatenationCommitment := g1FromProofChunk128 (slice libraHead 0 128)
    libraSum := frWord32 libraHead 4
    sumcheckUnivariates := .ofFn fun r => .ofFn fun c =>
      frWord32 su (r * batchedRelationPartialLength + c)
    sumcheckEvaluations := .ofFn fun i => frWord32 se i
    libraClaimedEvaluation := frWord32 zkOpening 0
    libraGrandSumCommitment := g1FromProofChunk128 (slice zkOpening 32 160)
    libraQuotientCommitment := g1FromProofChunk128 (slice zkOpening 160 288)
    hidingPolynomialCommitment := g1FromProofChunk128 (slice zkOpening 288 416)
    hidingPolynomialEvaluation := frWord32 zkOpening 13
    geminiFoldComms := .ofFn fun i => g1FromProofBlobAt gf i
    geminiAEvaluations := .ofFn fun i => frWord32 ga i
    libraPolynomialEvaluations := .ofFn fun i => frWord32 libraEvals i
    shplonkQ := g1FromProofChunk128 (slice tailG1 0 128)
    kzgQuotient := g1FromProofChunk128 (slice tailG1 128 256) }

def pushCoordHalves (coord : Bytes) : Bytes :=
  let low := List.replicate 15 0 ++ coord.drop 15
  let high := List.replicate 17 0 ++ coord.take 15
  low ++ high

def pushPoint (pt : G1Point) : Bytes :=
  pushCoordHalves (pt.toList.take 32) ++ pushCoordHalves (pt.toList.drop 32)

def pushScalar (x : Fr) : Bytes := x.toBytes.toList

def pushScalars {n : ℕ} (xs : Vector Fr n) : Bytes := xs.toList.flatMap pushScalar

def pushPoints (pts : List G1Point) : Bytes := pts.flatMap pushPoint

@[simp] theorem pushScalar_length (x : Fr) : (pushScalar x).length = 32 := by
  simp [pushScalar]

@[simp] theorem pushPoint_length (pt : G1Point) : (pushPoint pt).length = 128 := by
  simp [pushPoint, pushCoordHalves]

@[simp] theorem pushScalars_length {n : ℕ} (xs : Vector Fr n) :
    (pushScalars xs).length = n * 32 := by
  simp [pushScalars, length_flatMap_of_width pushScalar_length]

@[simp] theorem pushPoints_length (pts : List G1Point) :
    (pushPoints pts).length = pts.length * 128 :=
  length_flatMap_of_width pushPoint_length pts

theorem pushScalar_injective : Function.Injective pushScalar := by
  intro x y same
  have values := congrArg ofBigEndian same
  rw [pushScalar, pushScalar, Fr.ofBigEndian_toBytes, Fr.ofBigEndian_toBytes] at values
  exact ZMod.val_injective modulus values

theorem pushCoordHalves_inj {a b : Bytes} (same : pushCoordHalves a = pushCoordHalves b)
    (lengths : a.length = b.length) : a = b := by
  obtain ⟨low, high⟩ := List.append_inj same (by simp [lengths])
  have low := List.append_cancel_left low
  have high := List.append_cancel_left high
  rw [← List.take_append_drop 15 a, ← List.take_append_drop 15 b, low, high]

theorem pushPoint_injective : Function.Injective pushPoint := by
  intro a b same
  obtain ⟨x, y⟩ := List.append_inj same (by simp [pushCoordHalves])
  have x := pushCoordHalves_inj x (by simp)
  have y := pushCoordHalves_inj y (by simp)
  rw [← Vector.toList_inj, ← List.take_append_drop 32 a.toList, x, y, List.take_append_drop]

theorem pushScalars_injective {n : ℕ} : Function.Injective (pushScalars (n := n)) := by
  intro xs ys same
  exact Vector.toList_inj.mp
    (flatMap_inj_of_width pushScalar_injective pushScalar_length (by simp) same)

theorem pushPoints_inj {as bs : List G1Point} (counts : as.length = bs.length)
    (same : pushPoints as = pushPoints bs) : as = bs :=
  flatMap_inj_of_width pushPoint_injective pushPoint_length counts same

end Zicket.Verifier
