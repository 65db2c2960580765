import Zicket.Verifier.Transcript

/-! The 26 subrelations at the purported evaluations, and their batching with the alphas. Each
family gives its subrelations in the order of their indices. -/

namespace Zicket.Verifier

open Host Foundation

/-- The polynomials by their place among the evaluations. -/
inductive Wire where
  | qm | qc | ql | qr | qo | q4 | qLookup | qArith | qRange | qElliptic | qAux
  | qPoseidon2External | qPoseidon2Internal
  | sigma1 | sigma2 | sigma3 | sigma4 | id1 | id2 | id3 | id4
  | table1 | table2 | table3 | table4 | lagrangeFirst | lagrangeLast
  | wl | wr | wo | w4 | zPerm | lookupInverses | lookupReadCounts | lookupReadTags
  | wlShift | wrShift | woShift | w4Shift | zPermShift
  deriving DecidableEq, Repr

/-- The evaluation of a polynomial: `p[wire]`. -/
def evaluationOf (p : Vector Fr numberOfEntities) (wire : Wire) : Fr :=
  p.toList.getD wire.ctorIdx 0

def Fr.negHalf : Fr := 0x183227397098d014dc2822db40c0ac2e9419f4243cdcb848a1f0fac9f8000000

def Fr.minusOne : Fr := 0x30644e72e131a029b85045b68181585d2833e84879b9709143e1f593f0000000

def Fr.minusTwo : Fr := 0x30644e72e131a029b85045b68181585d2833e84879b9709143e1f593efffffff

def Fr.minusThree : Fr := 0x30644e72e131a029b85045b68181585d2833e84879b9709143e1f593effffffe

def Fr.internalMatrixDiagonal : List Fr :=
  [0x10dc6e9c006ea38b04b1e03b4bd9490c0d03f98929ca1d7fb56821fd19d3b6e7,
   0x0c28145b6a44df3e0149b3d0a30b3bb599df9756d4dd9b84a86b38cfb45a740b,
   0x00544b8338791518b2c7645a50392798b21f75bb60e3596170067d00141cac15,
   0x222c01175718386f2e2e82eb122789e352e105a3b8fa852613bc534433ee428b]

section Families

variable (p : Wire → Fr) (rp : RelationParameters) (domainSep : Fr)

/-- Subrelations 0 and 1. -/
def accumulateArithmeticRelation : List Fr :=
  let two := Fr.fromU64 2
  let three := Fr.fromU64 3
  let first := (p .qArith - three) * p .qm * p .wr * p .wl * Fr.negHalf +
    (p .ql * p .wl + p .qr * p .wr + p .qo * p .wo + p .q4 * p .w4 + p .qc)
  let second := p .wl + p .w4 - p .wlShift + p .qm
  [(first + (p .qArith - 1) * p .w4Shift) * p .qArith * domainSep,
   second * (p .qArith - two) * (p .qArith - 1) * p .qArith * domainSep]

/-- Subrelations 2 and 3. -/
def accumulatePermutationRelation : List Fr :=
  let grandProductNumerator := (p .wl + p .id1 * rp.beta + rp.gamma) *
    (p .wr + p .id2 * rp.beta + rp.gamma) * (p .wo + p .id3 * rp.beta + rp.gamma) *
    (p .w4 + p .id4 * rp.beta + rp.gamma)
  let grandProductDenominator := (p .wl + p .sigma1 * rp.beta + rp.gamma) *
    (p .wr + p .sigma2 * rp.beta + rp.gamma) * (p .wo + p .sigma3 * rp.beta + rp.gamma) *
    (p .w4 + p .sigma4 * rp.beta + rp.gamma)
  [((p .zPerm + p .lagrangeFirst) * grandProductNumerator -
      (p .zPermShift + p .lagrangeLast * rp.publicInputsDelta) * grandProductDenominator) *
        domainSep,
   p .lagrangeLast * p .zPermShift * domainSep]

/-- Subrelations 4 and 5; the second sums to zero over all rows and is not separated. -/
def accumulateLogDerivativeLookupRelation : List Fr :=
  let writeTerm := p .table1 + rp.gamma + p .table2 * rp.eta + p .table3 * rp.etaTwo +
    p .table4 * rp.etaThree
  let derivedEntry2 := p .wr + p .qm * p .wrShift
  let derivedEntry3 := p .wo + p .qc * p .woShift
  let readTerm := p .wl + rp.gamma + p .qr * p .wlShift + derivedEntry2 * rp.eta +
    derivedEntry3 * rp.etaTwo + p .qo * rp.etaThree
  let inv := p .lookupInverses
  let invExists := p .lookupReadTags + p .qLookup - p .lookupReadTags * p .qLookup
  [(readTerm * writeTerm * inv - invExists) * domainSep,
   p .qLookup * (writeTerm * inv) - p .lookupReadCounts * (readTerm * inv)]

/-- Subrelations 6 to 9. -/
def accumulateDeltaRangeRelation : List Fr :=
  let deltas := [p .wr - p .wl, p .wo - p .wr, p .w4 - p .wo, p .wlShift - p .w4]
  let negs := [Fr.minusOne, Fr.minusTwo, Fr.minusThree]
  let qRangeDom := p .qRange * domainSep
  deltas.map fun delta => negs.foldl (fun acc n => acc * (delta + n)) delta * qRangeDom

/-- Subrelations 10 and 11. -/
def accumulateEllipticRelation : List Fr :=
  let x1 := p .wr
  let y1 := p .wo
  let x2 := p .wlShift
  let y2 := p .w4Shift
  let x3 := p .wrShift
  let y3 := p .woShift
  let qSign := p .ql
  let qDouble := p .qm
  let deltaX := x2 - x1
  let y1Sq := y1 * y1
  let y1y2 := y1 * y2 * qSign
  let xAddId := (x3 + x2 + x1) * deltaX * deltaX - y2 * y2 - y1Sq + y1y2 + y1y2
  let yDiff := y2 * qSign - y1
  let yAddId := (y1 + y3) * deltaX + (x3 - x1) * yDiff
  let nine := Fr.fromU64 9
  let bNeg := Fr.fromU64 17
  let xPow4 := (y1Sq + bNeg) * x1
  let y1SqrMul4 := y1Sq + y1Sq + y1Sq + y1Sq
  let xDoubleId := (x3 + x1 + x1) * y1SqrMul4 - xPow4 * nine
  let x1SqrMul3 := (x1 + x1 + x1) * x1
  let yDoubleId := x1SqrMul3 * (x1 - x3) - (y1 + y1) * (y1 + y3)
  let qGateDom := p .qElliptic * domainSep
  let addFactor := (1 - qDouble) * qGateDom
  let doubleFactor := qDouble * qGateDom
  [xAddId * addFactor + xDoubleId * doubleFactor, yAddId * addFactor + yDoubleId * doubleFactor]

/-- Subrelations 12 to 17. -/
def accumulateAuxiliaryRelation : List Fr :=
  let limbSize : Fr := 0x100000000000000000
  let sublimbShift := Fr.fromU64 (1 <<< 14)
  let limbSubproduct := p .wl * p .wrShift + p .wlShift * p .wr
  let nonNativeFieldGate2 := ((p .wl * p .w4 + p .wr * p .wo - p .woShift) * limbSize -
    p .w4Shift + limbSubproduct) * p .q4
  let limbSubproduct := limbSize * limbSubproduct + p .wlShift * p .wrShift
  let nonNativeFieldGate1 := (limbSubproduct - (p .wo + p .w4)) * p .qo
  let nonNativeFieldGate3 := (p .w4 - (p .woShift + p .w4Shift) + limbSubproduct) * p .qm
  let nonNativeFieldIdentity :=
    (nonNativeFieldGate1 + nonNativeFieldGate2 + nonNativeFieldGate3) * p .qr
  let limbAccumulator1 := (((p .wrShift * sublimbShift + p .wlShift) * sublimbShift + p .wo) *
    sublimbShift + p .wr) * sublimbShift + p .wl
  let limbAccumulator1 := (limbAccumulator1 - p .w4) * p .q4
  let limbAccumulator2 := (((p .woShift * sublimbShift + p .wrShift) * sublimbShift +
    p .wlShift) * sublimbShift + p .w4) * sublimbShift + p .wo
  let limbAccumulator2 := (limbAccumulator2 - p .w4Shift) * p .qm
  let limbAccumulatorIdentity := (limbAccumulator1 + limbAccumulator2) * p .qo
  let memoryRecordCheck := p .wo * rp.etaThree + p .wr * rp.etaTwo + p .wl * rp.eta + p .qc
  let accessType := p .w4 - memoryRecordCheck
  let memoryRecordCheck := memoryRecordCheck - p .w4
  let indexDelta := p .wlShift - p .wl
  let recordDelta := p .w4Shift - p .w4
  let indexIsMonotonicallyIncreasing := indexDelta * indexDelta - indexDelta
  let adjacentValuesMatch := (1 - indexDelta) * recordDelta
  let romGateCommon := p .ql * p .qr * p .qAux * domainSep
  let accessCheck := accessType * accessType - accessType
  let nextGateAccessType := p .w4Shift -
    (p .woShift * rp.etaThree + p .wrShift * rp.etaTwo + p .wlShift * rp.eta)
  let valueDelta := p .woShift - p .wo
  let adjacentValuesMatchAndNextAccessIsARead :=
    (1 - indexDelta) * valueDelta * (1 - nextGateAccessType)
  let ramGateCommon := p .qArith * p .qAux * domainSep
  let romConsistencyCheckIdentity := memoryRecordCheck * p .ql * p .qr
  let ramTimestampCheckIdentity := (1 - indexDelta) * (p .wrShift - p .wr) - p .wo
  let ramConsistencyCheckIdentity := accessCheck * p .qArith
  let memoryIdentity := romConsistencyCheckIdentity +
    ramTimestampCheckIdentity * p .q4 * p .ql + memoryRecordCheck * p .qm * p .ql +
    ramConsistencyCheckIdentity
  let auxiliaryIdentity := memoryIdentity + nonNativeFieldIdentity + limbAccumulatorIdentity
  [auxiliaryIdentity * p .qAux * domainSep,
   adjacentValuesMatch * romGateCommon,
   indexIsMonotonicallyIncreasing * romGateCommon,
   adjacentValuesMatchAndNextAccessIsARead * ramGateCommon,
   indexIsMonotonicallyIncreasing * ramGateCommon,
   (nextGateAccessType * nextGateAccessType - nextGateAccessType) * ramGateCommon]

/-- Subrelations 18 to 21. -/
def accumulatePoseidonExternalRelation : List Fr :=
  let u1 := (p .wl + p .ql) ^ 5
  let u2 := (p .wr + p .qr) ^ 5
  let u3 := (p .wo + p .qo) ^ 5
  let u4 := (p .w4 + p .q4) ^ 5
  let t0 := u1 + u2
  let t1 := u3 + u4
  let t2 := u2 + u2 + t1
  let t3 := u4 + u4 + t0
  let v4 := t1 + t1 + t1 + t1 + t3
  let v2 := t0 + t0 + t0 + t0 + t2
  let v1 := t3 + v2
  let v3 := t2 + v4
  let qPoseidonDom := p .qPoseidon2External * domainSep
  [(v1 - p .wlShift) * qPoseidonDom, (v2 - p .wrShift) * qPoseidonDom,
   (v3 - p .woShift) * qPoseidonDom, (v4 - p .w4Shift) * qPoseidonDom]

/-- Subrelations 22 to 25. -/
def accumulatePoseidonInternalRelation (diag : List Fr) : List Fr :=
  let u1 := (p .wl + p .ql) ^ 5
  let u2 := p .wr
  let u3 := p .wo
  let u4 := p .w4
  let qPoseidonDom := p .qPoseidon2Internal * domainSep
  let uSum := u1 + u2 + u3 + u4
  [(u1 * diag.getD 0 0 + uSum - p .wlShift) * qPoseidonDom,
   (u2 * diag.getD 1 0 + uSum - p .wrShift) * qPoseidonDom,
   (u3 * diag.getD 2 0 + uSum - p .woShift) * qPoseidonDom,
   (u4 * diag.getD 3 0 + uSum - p .w4Shift) * qPoseidonDom]

end Families

def scaleAndBatchSubrelations (evaluations subrelationChallenges : List Fr) : Fr :=
  (evaluations.tail.zip subrelationChallenges).foldl
    (fun accumulator (evaluation, challenge) => accumulator + evaluation * challenge)
    (evaluations.headD 0)

def accumulateRelationEvaluations (purportedEvaluations : Vector Fr numberOfEntities)
    (rp : RelationParameters) (alphas : Vector Fr numberOfAlphas) (powPartialEval : Fr) : Fr :=
  let p := evaluationOf purportedEvaluations
  let evaluations := accumulateArithmeticRelation p powPartialEval ++
    accumulatePermutationRelation p rp powPartialEval ++
    accumulateLogDerivativeLookupRelation p rp powPartialEval ++
    accumulateDeltaRangeRelation p powPartialEval ++ accumulateEllipticRelation p powPartialEval ++
    accumulateAuxiliaryRelation p rp powPartialEval ++
    accumulatePoseidonExternalRelation p powPartialEval ++
    accumulatePoseidonInternalRelation p powPartialEval Fr.internalMatrixDiagonal
  scaleAndBatchSubrelations evaluations alphas.toList

-- the value that the test of the source pins
example : (accumulateRelationEvaluations (.ofFn fun i => (i.val : Fr))
    ⟨100, 101, 102, 103, 104, 105⟩ (.ofFn fun i => ((200 + i.val : ℕ) : Fr)) 300).val =
      0x1ec606befa857100f90267ac1dc687413b93e8586fdbb4682dfda24b864515aa := by rfl

end Zicket.Verifier
