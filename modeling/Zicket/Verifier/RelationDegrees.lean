import Zicket.Foundation.DegreeBounds
import Zicket.Verifier.Libra
import Zicket.Verifier.Relations

/-! The degree of the relations in the columns: with the separator of the rows at most seven, so
that with the factor that leaves out the last rows nine values fix a round. -/

namespace Zicket.Verifier

open Host Foundation

/-- The values of all subrelations, in the order of their indices. -/
def subrelations (p : Wire → Fr) (rp : RelationParameters) (domainSep : Fr) : List Fr :=
  accumulateArithmeticRelation p domainSep ++ accumulatePermutationRelation p rp domainSep ++
    accumulateLogDerivativeLookupRelation p rp domainSep ++
    accumulateDeltaRangeRelation p domainSep ++ accumulateEllipticRelation p domainSep ++
    accumulateAuxiliaryRelation p rp domainSep ++ accumulatePoseidonExternalRelation p domainSep ++
    accumulatePoseidonInternalRelation p domainSep Fr.internalMatrixDiagonal

theorem accumulateRelationEvaluations_eq (evaluations : Vector Fr numberOfEntities)
    (rp : RelationParameters) (alphas : Vector Fr numberOfAlphas) (domainSep : Fr) :
    accumulateRelationEvaluations evaluations rp alphas domainSep =
      scaleAndBatchSubrelations (subrelations (evaluationOf evaluations) rp domainSep)
        alphas.toList := rfl

section Separation

variable (p : Wire → Fr) (rp : RelationParameters) (domainSep : Fr)

theorem arithmetic_separated : accumulateArithmeticRelation p domainSep =
    (accumulateArithmeticRelation p 1).map (· * domainSep) := by
  simp only [accumulateArithmeticRelation, List.map_cons, List.map_nil, mul_one]

theorem permutation_separated : accumulatePermutationRelation p rp domainSep =
    (accumulatePermutationRelation p rp 1).map (· * domainSep) := by
  simp only [accumulatePermutationRelation, List.map_cons, List.map_nil, mul_one]

theorem deltaRange_separated : accumulateDeltaRangeRelation p domainSep =
    (accumulateDeltaRangeRelation p 1).map (· * domainSep) := by
  simp only [accumulateDeltaRangeRelation, List.map_map, mul_one]
  exact List.map_congr_left fun delta _ => (mul_assoc _ _ _).symm

theorem elliptic_separated : accumulateEllipticRelation p domainSep =
    (accumulateEllipticRelation p 1).map (· * domainSep) := by
  simp only [accumulateEllipticRelation, List.map_cons, List.map_nil, mul_one, add_mul, mul_assoc]

theorem auxiliary_separated : accumulateAuxiliaryRelation p rp domainSep =
    (accumulateAuxiliaryRelation p rp 1).map (· * domainSep) := by
  simp only [accumulateAuxiliaryRelation, List.map_cons, List.map_nil, mul_one, mul_assoc]

theorem poseidonExternal_separated : accumulatePoseidonExternalRelation p domainSep =
    (accumulatePoseidonExternalRelation p 1).map (· * domainSep) := by
  simp only [accumulatePoseidonExternalRelation, List.map_cons, List.map_nil, mul_one, mul_assoc]

theorem poseidonInternal_separated (diag : List Fr) :
    accumulatePoseidonInternalRelation p domainSep diag =
      (accumulatePoseidonInternalRelation p 1 diag).map (· * domainSep) := by
  simp only [accumulatePoseidonInternalRelation, List.map_cons, List.map_nil, mul_one, mul_assoc]

theorem getD_weighted (before after : List Fr) (x weight : Fr) (k : ℕ) :
    (before.map (· * weight) ++ x :: after.map (· * weight)).getD k 0 =
      (before ++ x :: after).getD k 0 * if k = before.length then 1 else weight := by
  induction before generalizing k with
  | nil =>
    cases k with
    | zero => simp
    | succ k =>
      rw [List.length_nil, if_neg (Nat.succ_ne_zero k)]
      cases found : after[k]? <;> simp [List.getD_eq_getElem?_getD, found]
  | cons y before ih =>
    cases k with
    | zero => simp
    | succ k => simpa using ih k

/-- The relations of a row but one carry the weight of the row. -/
theorem subrelations_separated (k : ℕ) : (subrelations p rp domainSep).getD k 0 =
    (subrelations p rp 1).getD k 0 * if k = 5 then 1 else domainSep := by
  let before := accumulateArithmeticRelation p 1 ++ accumulatePermutationRelation p rp 1 ++
    (accumulateLogDerivativeLookupRelation p rp 1).take 1
  let after := accumulateDeltaRangeRelation p 1 ++ accumulateEllipticRelation p 1 ++
    accumulateAuxiliaryRelation p rp 1 ++ accumulatePoseidonExternalRelation p 1 ++
    accumulatePoseidonInternalRelation p 1 Fr.internalMatrixDiagonal
  let sum := (accumulateLogDerivativeLookupRelation p rp 1).getD 1 0
  have weighted (weight : Fr) : subrelations p rp weight =
      before.map (· * weight) ++ sum :: after.map (· * weight) := by
    have lookup : accumulateLogDerivativeLookupRelation p rp weight =
        ((accumulateLogDerivativeLookupRelation p rp 1).take 1).map (· * weight) ++ [sum] := by
      simp [accumulateLogDerivativeLookupRelation, sum]
    rw [subrelations, arithmetic_separated, permutation_separated, lookup, deltaRange_separated,
      elliptic_separated, auxiliary_separated, poseidonExternal_separated,
      poseidonInternal_separated]
    simp only [before, after, List.map_append, List.append_assoc, List.cons_append,
      List.nil_append]
  have plain : subrelations p rp 1 = before ++ sum :: after := by
    simpa only [mul_one, List.map_id'] using weighted 1
  have length : before.length = 5 := rfl
  rw [weighted, plain, getD_weighted, length]

theorem subrelations_length : (subrelations p rp domainSep).length = 26 := rfl

/-- The first relation has no challenge. -/
def relationWeight (alphas : List Fr) : ℕ → Fr
  | 0 => 1
  | k + 1 => alphas.getD k 0

theorem scaleAndBatch_eq {evaluations alphas : List Fr} (count : evaluations.length = 26)
    (challenges : alphas.length = 25) : scaleAndBatchSubrelations evaluations alphas =
      ∑ k ∈ Finset.range 26, evaluations.getD k 0 * relationWeight alphas k := by
  cases evaluations with
  | nil => cases count
  | cons x evaluations =>
    have tail : evaluations.length = 25 := Nat.succ.inj count
    have loop := foldl_zip_eq_sum tail challenges x
    calc scaleAndBatchSubrelations (x :: evaluations) alphas
        = x + ∑ k ∈ Finset.range 25, evaluations.getD k 0 * alphas.getD k 0 := loop
      _ = (∑ k ∈ Finset.range 25, evaluations.getD k 0 * alphas.getD k 0) + x * 1 := by ring
      _ = _ := (Finset.sum_range_succ' (fun k =>
        (x :: evaluations).getD k 0 * relationWeight alphas k) 25).symm

end Separation

section Degrees

variable {n : ℕ} {column : Wire → (Fin n → Fr) → Fr} {domainSep : (Fin n → Fr) → Fr}
  (rp : RelationParameters)

variable (each : ∀ wire, HasDegree 1 (column wire)) (sep : HasDegree 1 domainSep)
include each sep

theorem subrelations_degree :
    HaveDegree 7 fun u => subrelations (fun wire => column wire u) rp (domainSep u) := by
  unfold subrelations accumulateArithmeticRelation accumulatePermutationRelation
    accumulateLogDerivativeLookupRelation accumulateDeltaRangeRelation accumulateEllipticRelation
    accumulateAuxiliaryRelation accumulatePoseidonExternalRelation
    accumulatePoseidonInternalRelation
  dsimp only [List.map_cons, List.map_nil, List.foldl_cons, List.foldl_nil, List.cons_append,
    List.nil_append]
  -- each relation is built from columns and constants, which give its degree
  repeat
    apply HaveDegree.cons
    · apply HasDegree.mono
      · repeat' with_reducible_and_instances first
          | exact each _ | exact sep | apply HasDegree.const | apply HasDegree.mul
          | apply HasDegree.add | apply HasDegree.sub | apply HasDegree.pow
      · decide
  exact HaveDegree.nil

theorem batched_degree (alphas : List Fr) :
    HasDegree 7 fun u => scaleAndBatchSubrelations
      (subrelations (fun wire => column wire u) rp (domainSep u)) alphas := by
  have degrees := subrelations_degree rp each sep
  exact degrees.tail.weighted alphas degrees.head

end Degrees

end Zicket.Verifier
