import Zicket.Foundation.CubeSums
import Zicket.Verifier.Sumcheck

/-! The value of a round's univariate at its challenge: the one of the polynomial of degree at most
eight that has the nine values. -/

namespace Zicket.Verifier

open Host Foundation Polynomial

section Weights

theorem baryPositive_eq {last : Bytes} {n : ℕ}
    (value : ofBigEndian (baryWord baryPositive last).toList = n) :
    Fr.fromArray (baryWord baryPositive last) = n :=
  congrArg Nat.cast value

theorem baryNegative_eq {last : Bytes} {n : ℕ}
    (value : ofBigEndian (baryWord baryNegative last).toList + n = modulus) :
    Fr.fromArray (baryWord baryNegative last) = -n := by
  rw [eq_neg_iff_add_eq_zero, Fr.fromArray, ← Nat.cast_add, value, ZMod.natCast_self]

theorem barycentricWeights_eq : barycentricWeights =
    [40320, -5040, 1440, -720, 576, -720, 1440, -5040, 40320] := by
  simp only [barycentricWeights, baryBytes, List.map_cons, List.map_nil]
  rw [baryPositive_eq (by decide : _ = 40320), baryPositive_eq (by decide : _ = 1440),
    baryPositive_eq (by decide : _ = 576), baryNegative_eq (by decide : _ + 5040 = _),
    baryNegative_eq (by decide : _ + 720 = _)]
  norm_num

def point (i : ℕ) : Fr := i

theorem injOn_point : Set.InjOn point (Finset.range 9) := by
  intro a ha b hb same
  have ha := Finset.mem_range.mp ha
  have hb := Finset.mem_range.mp hb
  have size : 9 < modulus := by decide
  have values := (ZMod.natCast_eq_natCast_iff a b modulus).mp same
  rwa [Nat.ModEq, Nat.mod_eq_of_lt (by omega), Nat.mod_eq_of_lt (by omega)] at values

theorem barycentricWeights_getD {i : ℕ} (less : i < 9) : barycentricWeights.getD i 0 =
    ∏ j ∈ Finset.range 9, if j = i then 1 else point i - point j := by
  rw [barycentricWeights_eq]
  simp only [point]
  interval_cases i <;> simp [Finset.prod_range_succ] <;> norm_num

theorem nodalWeight_eq {i : ℕ} (less : i < 9) :
    Lagrange.nodalWeight (Finset.range 9) point i = (barycentricWeights.getD i 0)⁻¹ := by
  have erased : ∏ j ∈ (Finset.range 9).erase i, (if j = i then 1 else point i - point j) =
      ∏ j ∈ Finset.range 9, if j = i then 1 else point i - point j :=
    Finset.prod_erase _ (if_pos rfl)
  rw [barycentricWeights_getD less, ← erased, Lagrange.nodalWeight, ← Finset.prod_inv_distrib]
  refine Finset.prod_congr rfl fun j mem => ?_
  rw [if_neg (Finset.ne_of_mem_erase mem)]

end Weights

section Target

variable {univariate : List Fr} {P : Fr[X]} {challenge : Fr}

theorem pointIndices_eq : pointIndices = (List.range 9).map point := rfl

/-- The points that the code compares the challenge with, each with the value there. -/
theorem mem_zip_pointIndices (length : univariate.length = 9) {entry : Fr × Fr} :
    entry ∈ pointIndices.zip univariate ↔ ∃ i < 9, entry = (point i, univariate.getD i 0) := by
  rw [pointIndices_eq, List.mem_iff_getElem?]
  constructor
  · rintro ⟨i, found⟩
    obtain ⟨left, right⟩ := List.getElem?_zip_eq_some.mp found
    have less : i < 9 := length ▸ (List.getElem?_eq_some_iff.mp right).1
    rw [List.getElem?_map, List.getElem?_range less] at left
    refine ⟨i, less, Prod.ext (Option.some.inj left).symm ?_⟩
    rw [List.getD_eq_getElem?_getD, right]
    rfl
  · rintro ⟨i, less, rfl⟩
    refine ⟨i, List.getElem?_zip_eq_some.mpr ⟨?_, ?_⟩⟩
    · rw [List.getElem?_map, List.getElem?_range less]
      rfl
    · rw [List.getD_eq_getElem?_getD, List.getElem?_eq_getElem (by omega)]
      rfl

theorem denoms_eq :
    List.zipWith (· * ·) barycentricWeights (pointIndices.map (challenge - ·)) =
      (List.range 9).map fun i => barycentricWeights.getD i 0 * (challenge - point i) := rfl

theorem bPoly_eq : (pointIndices.map (challenge - ·)).foldl (· * ·) 1 =
    (Lagrange.nodal (Finset.range 9) point).eval challenge := by
  rw [Lagrange.eval_nodal, ← List.prod_eq_foldl, pointIndices_eq, List.map_map]
  rfl

/-- Away from the points, the code interpolates with the inverted denominators. -/
theorem interpolate_eq (length : univariate.length = 9)
    (values : ∀ i < 9, univariate.getD i 0 = P.eval (point i)) (degree : P.degree < 9)
    (outside : ∀ i < 9, challenge ≠ point i) :
    (pointIndices.map (challenge - ·)).foldl (· * ·) 1 *
      (univariate.zip (((List.range 9).map fun i =>
        barycentricWeights.getD i 0 * (challenge - point i)).map (·⁻¹))).foldl
          (fun acc (univariate, invDenom) => acc + univariate * invDenom) 0 =
      P.eval challenge := by
  have interpolated : P = Lagrange.interpolate (Finset.range 9) point fun i =>
      P.eval (point i) := Lagrange.eq_interpolate injOn_point (by simpa using degree)
  rw [bPoly_eq, foldl_zip_eq_sum length (by simp), zero_add]
  conv_rhs => rw [interpolated, Lagrange.eval_interpolate_not_at_node _
    fun i mem => outside i (Finset.mem_range.mp mem)]
  refine congrArg (_ * ·) (Finset.sum_congr rfl fun i mem => ?_)
  have less := Finset.mem_range.mp mem
  rw [values i less, nodalWeight_eq less]
  simp [List.getD_eq_getElem?_getD, less]
  ring

/-- The loop over the points gives the value at the challenge, of the polynomial with the nine
values. -/
theorem computeNextTargetSum_eq (length : univariate.length = 9) (degree : P.degree < 9)
    (values : ∀ i < 9, univariate.getD i 0 = P.eval (point i)) :
    computeNextTargetSum univariate challenge barycentricWeights pointIndices =
      .ok (P.eval challenge) := by
  unfold computeNextTargetSum
  split
  · rename_i found
    obtain ⟨i, less, entry⟩ := (mem_zip_pointIndices length).mp (List.mem_of_find?_eq_some found)
    have here := List.find?_some found
    simp only [Prod.mk.injEq] at entry
    rw [entry.2, values i less, ← entry.1, ← of_decide_eq_true here]
    rfl
  · rename_i none
    have outside (i : ℕ) (less : i < 9) : challenge ≠ point i := fun same =>
      List.find?_eq_none.mp none _ ((mem_zip_pointIndices length).mpr ⟨i, less, rfl⟩)
        (decide_eq_true same)
    have nonzero : 0 ∉ (List.range 9).map fun i =>
        barycentricWeights.getD i 0 * (challenge - point i) := by
      intro mem
      obtain ⟨i, inside, zero⟩ := List.mem_map.mp mem
      have less := List.mem_range.mp inside
      have weight := Lagrange.nodalWeight_ne_zero injOn_point (Finset.mem_range.mpr less)
      rw [nodalWeight_eq less, ne_eq, inv_eq_zero] at weight
      exact mul_ne_zero weight (sub_ne_zero_of_ne (outside i less)) zero
    have inverted : batchInverse ((List.range 9).map fun i =>
        barycentricWeights.getD i 0 * (challenge - point i))
          (List.replicate batchedRelationPartialLength 0) = .ok _ :=
      (batchInverse_eq (by simp [batchedRelationPartialLength])).trans (if_neg nonzero)
    simp only [denoms_eq, inverted, withText_ok]
    exact congrArg Except.ok (interpolate_eq length values degree outside)

end Target

end Zicket.Verifier
