import Zicket.Results.Sumcheck
import Zicket.Verifier.RelationDegrees

/-! The columns of a circuit as functions of a point, the rows being the points of the cube, and
what the sumcheck sums up over them: the relations of a row, weighted by its separator, and a mask.
The last four rows hold random values and are left out. -/

namespace Zicket.Verifier

open Host Foundation MvPolynomial

/-- The columns, extended from the rows to all points. -/
structure Columns (n : ℕ) where
  column : Wire → (Fin n → Fr) → Fr
  multilinear : ∀ wire, HasDegree 1 (column wire)

variable {n : ℕ} (cols : Columns n) (mask : (Fin n → Fr) → Fr) (tp : Transcript) (u : Fin n → Fr)

def cube (n : ℕ) : Finset (Fin n → Fr) := Fintype.piFinset fun _ => {0, 1}

def Columns.evaluations : Vector Fr numberOfEntities := .ofFn fun k => cols.column (Wire.ofNat k) u

def rowSeparator : Fr := ∏ k : Fin n, (1 + u k * (tp.gateChallenges.toList.getD k 0 - 1))

/-- One on the last four rows, and zero on the others. -/
def lastRows : Fr := ∏ k : Fin n with 2 ≤ k.val, u k

def Columns.row (rp : RelationParameters) : List Fr := subrelations (cols.column · u) rp 1

def relationAt : Fr :=
  accumulateRelationEvaluations (cols.evaluations u) tp.relParams tp.alphas (rowSeparator tp u)

def summand : Fr := relationAt cols tp u * (1 - lastRows u) + mask u * tp.libraChallenge

section Values

variable {cols mask tp u}

theorem ctorIdx_lt (wire : Wire) : wire.ctorIdx < numberOfEntities := by
  cases wire <;> decide

@[simp] theorem evaluationOf_evaluations :
    evaluationOf (cols.evaluations u) = (cols.column · u) := by
  funext wire
  rw [evaluationOf, Columns.evaluations, Vector.toList_ofFn, List.getD_eq_getElem?_getD,
    List.getElem?_ofFn, dif_pos (ctorIdx_lt wire), Option.getD_some, Wire.ofNat_ctorIdx]

theorem relationAt_eq : relationAt cols tp u =
    scaleAndBatchSubrelations (subrelations (cols.column · u) tp.relParams (rowSeparator tp u))
      tp.alphas.toList := by
  rw [relationAt, accumulateRelationEvaluations_eq, evaluationOf_evaluations]

theorem accumulate_opened {evaluations : Vector Fr numberOfEntities}
    (opened : evaluationOf evaluations = (cols.column · u)) :
    accumulateRelationEvaluations evaluations tp.relParams tp.alphas (rowSeparator tp u) =
      relationAt cols tp u := by
  rw [relationAt_eq, accumulateRelationEvaluations_eq, opened]

theorem relationAt_eq_sum : relationAt cols tp u =
    ∑ k ∈ Finset.range 26, (cols.row u tp.relParams).getD k 0 *
      (if k = 5 then 1 else rowSeparator tp u) * relationWeight tp.alphas.toList k := by
  have challenges : tp.alphas.toList.length = 25 := Vector.length_toList
  rw [relationAt_eq, scaleAndBatch_eq (subrelations_length ..) challenges]
  refine Finset.sum_congr rfl fun k _ => ?_
  rw [subrelations_separated, Columns.row]

end Values

section Rows

variable {cols mask tp}

theorem eq_zero_or_one_of_mem_cube {z : Fin n → Fr} (mem : z ∈ cube n) (k : Fin n) :
    z k = 0 ∨ z k = 1 := by
  simpa using Fintype.mem_piFinset.mp mem k

theorem lastRows_bit {z : Fin n → Fr} (mem : z ∈ cube n) : lastRows z = 0 ∨ lastRows z = 1 := by
  by_cases zero : ∃ k : Fin n, 2 ≤ k.val ∧ z k = 0
  · obtain ⟨k, later, zero⟩ := zero
    exact .inl (Finset.prod_eq_zero (by simpa using later) zero)
  · refine .inr (Finset.prod_eq_one fun k later => ?_)
    refine (eq_zero_or_one_of_mem_cube mem k).resolve_left fun here => zero ⟨k, ?_, here⟩
    exact (Finset.mem_filter.mp later).2

def enabledRows (n : ℕ) : Finset (Fin n → Fr) := {z ∈ cube n | lastRows z = 0}

theorem sum_enabled (f : (Fin n → Fr) → Fr) :
    ∑ z ∈ cube n, f z * (1 - lastRows z) = ∑ z ∈ enabledRows n, f z := by
  rw [enabledRows, Finset.sum_filter]
  refine Finset.sum_congr rfl fun z mem => ?_
  rcases lastRows_bit mem with off | on
  · rw [if_pos off, off, sub_zero, mul_one]
  · rw [if_neg (by rw [on]; exact one_ne_zero), on, sub_self, mul_zero]

/-- Each enabled row satisfies its relations; the lookups are compared with the tables over all
rows together. -/
structure Satisfied (cols : Columns n) (rp : RelationParameters) : Prop where
  gates : ∀ z ∈ enabledRows n, ∀ k, k ≠ 5 → (cols.row z rp).getD k 0 = 0
  lookups : ∑ z ∈ enabledRows n, (cols.row z rp).getD 5 0 = 0

def rowSum (cols : Columns n) (tp : Transcript) : Fr := ∑ z ∈ enabledRows n, relationAt cols tp z

theorem sum_summand : ∑ z ∈ cube n, summand cols mask tp z =
    rowSum cols tp + (∑ z ∈ cube n, mask z) * tp.libraChallenge := by
  simp only [summand, Finset.sum_add_distrib, sum_enabled, Finset.sum_mul]
  rfl

def relationSum (cols : Columns n) (tp : Transcript) (k : ℕ) : Fr :=
  ∑ z ∈ enabledRows n,
    (cols.row z tp.relParams).getD k 0 * if k = 5 then 1 else rowSeparator tp z

theorem rowSum_eq : rowSum cols tp =
    ∑ k ∈ Finset.range 26, relationSum cols tp k * relationWeight tp.alphas.toList k := by
  simp only [rowSum, relationAt_eq_sum, relationSum, Finset.sum_mul]
  exact Finset.sum_comm

theorem Satisfied.rowSum_eq_zero (satisfied : Satisfied cols tp.relParams) :
    rowSum cols tp = 0 := by
  rw [rowSum_eq]
  refine Finset.sum_eq_zero fun k _ => mul_eq_zero_of_left ?_ _
  by_cases lookup : k = 5
  · subst lookup
    simpa only [relationSum, if_true, mul_one] using satisfied.lookups
  · refine Finset.sum_eq_zero fun z mem => mul_eq_zero_of_left ?_ _
    exact satisfied.gates z mem k lookup

end Rows

section Degrees

theorem rowSeparator_degree : HasDegree 1 (rowSeparator (n := n) tp) := by
  have factors := HasDegree.prod_affine Finset.univ 1
    fun k : Fin n => tp.gateChallenges.toList.getD k 0 - 1
  refine factors.congr fun u => Finset.prod_congr rfl fun k _ => ?_
  rw [Pi.one_apply, mul_comm]

theorem lastRows_degree : HasDegree 1 (lastRows (n := n)) := by
  have factors := HasDegree.prod_affine (F := Fr) {k : Fin n | 2 ≤ k.val} 0 1
  refine factors.congr fun u => Finset.prod_congr rfl fun k _ => ?_
  rw [Pi.zero_apply, Pi.one_apply, zero_add, one_mul]

theorem relationAt_degree : HasDegree 7 (relationAt cols tp) := by
  have batched := batched_degree tp.relParams cols.multilinear (rowSeparator_degree tp)
    tp.alphas.toList
  exact batched.congr fun u => relationAt_eq.symm

/-- Nine values fix what is summed up, in each variable. -/
theorem summand_degree {mask : (Fin n → Fr) → Fr} (masks : HasDegree 8 mask) :
    HasDegree 8 (summand cols mask tp) := by
  have rows := (relationAt_degree cols tp).mul ((HasDegree.const 1).sub lastRows_degree)
  have masked := masks.mul (HasDegree.const tp.libraChallenge)
  exact (rows.add masked).mono (by decide)

end Degrees

section Links

variable {tp}

theorem separator_eq : separator tp n = rowSeparator tp (challengePoint tp n) := by
  rw [separator, Finset.prod_range]
  rfl

theorem take_challenges (le : n ≤ constProofSizeLogN) :
    tp.sumcheckUChallenges.toList.take n = (List.range n).map (uChallenge tp) := by
  refine List.ext_getElem? fun k => ?_
  rw [List.getElem?_take, List.getElem?_map]
  by_cases less : k < n
  · have inside : k < tp.sumcheckUChallenges.toList.length := by
      rw [Vector.length_toList]
      omega
    rw [if_pos less, List.getElem?_range less, Option.map_some, uChallenge,
      List.getD_eq_getElem?_getD, List.getElem?_eq_getElem inside, Option.getD_some]
  · rw [if_neg less, List.getElem?_eq_none (by simpa using less), Option.map_none]

theorem lastRows_eq (le : n ≤ constProofSizeLogN) :
    ((tp.sumcheckUChallenges.toList.take n).drop 2).foldl (· * ·) 1 =
      lastRows (challengePoint tp n) := by
  have later : ((List.range n).drop 2).toFinset = {k ∈ Finset.range n | 2 ≤ k} := by
    ext k
    rw [List.range_eq_range', List.drop_range', List.mem_toFinset, List.mem_range'_1,
      Finset.mem_filter, Finset.mem_range]
    omega
  have nodup : ((List.range n).drop 2).Nodup := (List.drop_sublist 2 _).nodup List.nodup_range
  rw [take_challenges le, ← List.map_drop, ← List.prod_eq_foldl, ← List.prod_toFinset _ nodup,
    later, Finset.prod_filter, Finset.prod_range, lastRows, Finset.prod_filter]
  rfl

end Links

end Zicket.Verifier
