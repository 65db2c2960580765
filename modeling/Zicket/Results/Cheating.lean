import Zicket.Foundation.SumcheckSoundness
import Zicket.Results.HonestTrace
import Zicket.Verifier.RoundTargets

/-! A circuit whose relations fail is rejected by the sumcheck but for few challenges, whatever the
prover sends: the challenges that batch the rows and the relations give a sum of zero, the
challenge of the mask hides the sum, or a round lets a wrong polynomial through. -/

namespace Zicket.Verifier

open Host Foundation MvPolynomial

variable {n : ℕ} {cols : Columns n} {tp : Transcript} {vk : VerificationKey}

section Drawing

def redraw {m : ℕ} (challenges : Vector Fr m) (drawn : Fin n → Fr) : Vector Fr m :=
  .ofFn fun k => if less : k.val < n then drawn ⟨k, less⟩ else challenges[k]

def Transcript.draw (tp : Transcript) (gates : Fin n → Fr) (alphas : Fin numberOfAlphas → Fr)
    (libra : Fr) (u : Fin n → Fr) : Transcript :=
  { tp with
    alphas := .ofFn alphas
    gateChallenges := redraw tp.gateChallenges gates
    libraChallenge := libra
    sumcheckUChallenges := redraw tp.sumcheckUChallenges u }

variable {gates u : Fin n → Fr} {alphas : Fin numberOfAlphas → Fr} {libra : Fr}

@[simp] theorem draw_relParams : (tp.draw gates alphas libra u).relParams = tp.relParams := by
  simp only [Transcript.draw]

@[simp] theorem draw_alphas : (tp.draw gates alphas libra u).alphas = .ofFn alphas := by
  simp only [Transcript.draw]

@[simp] theorem draw_libraChallenge : (tp.draw gates alphas libra u).libraChallenge = libra := by
  simp only [Transcript.draw]

theorem redraw_getD {m : ℕ} {challenges : Vector Fr m} (le : n ≤ m) (drawn : Fin n → Fr) (k : Fin n) :
    (redraw challenges drawn).toList.getD k 0 = drawn k := by
  have inside : k.val < m := by omega
  rw [redraw, Vector.toList_ofFn, List.getD_eq_getElem?_getD, List.getElem?_ofFn, dif_pos inside,
    Option.getD_some, dif_pos k.isLt]

theorem challengePoint_draw (le : n ≤ constProofSizeLogN) :
    challengePoint (tp.draw gates alphas libra u) n = u := by
  funext k
  rw [challengePoint, uChallenge, Transcript.draw]
  exact redraw_getD le u k

def drawnSeparator (gates z : Fin n → Fr) : Fr := ∏ k, (1 + z k * (gates k - 1))

theorem rowSeparator_draw (le : n ≤ constProofSizeLogN) (z : Fin n → Fr) :
    rowSeparator (tp.draw gates alphas libra u) z = drawnSeparator gates z := by
  rw [rowSeparator, drawnSeparator, Transcript.draw]
  simp only [redraw_getD le]

theorem summand_draw (le : n ≤ constProofSizeLogN) (mask : (Fin n → Fr) → Fr) (v z : Fin n → Fr) :
    summand cols mask (tp.draw gates alphas libra u) z =
      summand cols mask (tp.draw gates alphas libra v) z := by
  simp only [summand, relationAt, rowSeparator_draw le, draw_relParams, draw_alphas,
    draw_libraChallenge]

def drawnSum (cols : Columns n) (rp : RelationParameters) (k : ℕ) (gates : Fin n → Fr) : Fr :=
  ∑ z ∈ enabledRows n, (cols.row z rp).getD k 0 * if k = 5 then 1 else drawnSeparator gates z

theorem relationSum_draw (le : n ≤ constProofSizeLogN) (k : ℕ) :
    relationSum cols (tp.draw gates alphas libra u) k = drawnSum cols tp.relParams k gates := by
  simp only [relationSum, drawnSum, rowSeparator_draw le, draw_relParams]

theorem relationWeight_ofFn {m : ℕ} (alphas : Fin m → Fr) (k : Fin m) :
    relationWeight (Vector.ofFn alphas).toList (k + 1) = alphas k := by
  rw [relationWeight, Vector.toList_ofFn, List.getD_eq_getElem?_getD, List.getElem?_ofFn,
    dif_pos k.isLt, Option.getD_some]

theorem rowSum_draw (le : n ≤ constProofSizeLogN) :
    rowSum cols (tp.draw gates alphas libra u) =
      drawnSum cols tp.relParams 0 gates +
        ∑ k, alphas k * drawnSum cols tp.relParams (k + 1) gates := by
  have count : numberOfAlphas = 25 := rfl
  rw [rowSum_eq, draw_alphas]
  simp only [relationSum_draw le]
  rw [Finset.sum_range_succ', relationWeight, mul_one, add_comm, ← count, Finset.sum_range]
  simp only [relationWeight_ofFn, mul_comm]

end Drawing

section Weights

/-- The weights of the rows at a corner of the cube: one for the rows below it. -/
theorem drawnSeparator_corner {corner z : Fin n → Fr} (inside : corner ∈ cube n)
    (row : z ∈ cube n) : drawnSeparator corner z =
      if ∀ k, z k = 1 → corner k = 1 then 1 else 0 := by
  by_cases below : ∀ k, z k = 1 → corner k = 1
  · rw [if_pos below]
    refine Finset.prod_eq_one fun k _ => ?_
    rcases eq_zero_or_one_of_mem_cube row k with zero | one
    · rw [zero, zero_mul, add_zero]
    · rw [below k one, sub_self, mul_zero, add_zero]
  · rw [if_neg below]
    push Not at below
    obtain ⟨k, one, off⟩ := below
    have zero := (eq_zero_or_one_of_mem_cube inside k).resolve_right off
    refine Finset.prod_eq_zero (Finset.mem_univ k) ?_
    rw [one, zero]
    ring

theorem drawnSum_degree (rp : RelationParameters) (k : ℕ) :
    HasDegree 1 (drawnSum cols rp k) := by
  refine HasDegree.sum fun z _ => ?_
  have weight : HasDegree 1 fun gates => if k = 5 then 1 else drawnSeparator gates z := by
    by_cases lookup : k = 5
    · simp only [lookup, if_true]
      exact (HasDegree.const 1).mono (by decide)
    · simp only [lookup, if_false]
      have factors := HasDegree.prod_affine Finset.univ (fun k => 1 - z k) z
      refine factors.congr fun gates => Finset.prod_congr rfl fun k _ => ?_
      ring
  exact ((HasDegree.const _).mul weight).mono (by decide)

def ones (z : Fin n → Fr) : Finset (Fin n) := {k | z k = 1}

theorem eq_of_ones {z w : Fin n → Fr} (hz : z ∈ cube n) (hw : w ∈ cube n)
    (same : ones z = ones w) : z = w := by
  funext k
  have bit : z k = 1 ↔ w k = 1 := by simpa [ones] using Finset.ext_iff.mp same k
  rcases eq_zero_or_one_of_mem_cube hz k with zero | one
  · rcases eq_zero_or_one_of_mem_cube hw k with zero' | one'
    · rw [zero, zero']
    · exact absurd (bit.mpr one') (by rw [zero]; exact zero_ne_one)
  · rw [one, bit.mp one]

/-- A relation that fails in a row has weights that do not hide it: among the rows where it fails
one has no other below it. -/
theorem drawnSum_ne_zero {rp : RelationParameters} (broken : ¬ Satisfied cols rp) :
    ∃ k < 26, ∃ gates, drawnSum cols rp k gates ≠ 0 := by
  by_cases lookups : ∑ z ∈ enabledRows n, (cols.row z rp).getD 5 0 = 0
  · have fails : ∃ k ≠ 5, ∃ z ∈ enabledRows n, (cols.row z rp).getD k 0 ≠ 0 := by
      by_contra none
      push Not at none
      exact broken ⟨fun z mem k other => none k other z mem, lookups⟩
    obtain ⟨k, other, z, mem, fails⟩ := fails
    have less : k < 26 := by
      by_contra beyond
      refine fails ?_
      rw [List.getD_eq_getElem?_getD, List.getElem?_eq_none (by
        rw [Columns.row, subrelations_length]
        omega), Option.getD_none]
    obtain ⟨w, failing, least⟩ := Finset.exists_min_image
      {z ∈ enabledRows n | (cols.row z rp).getD k 0 ≠ 0} (fun z => (ones z).card)
      ⟨z, Finset.mem_filter.mpr ⟨mem, fails⟩⟩
    obtain ⟨row, wrong⟩ := Finset.mem_filter.mp failing
    have inside := (Finset.mem_filter.mp row).1
    refine ⟨k, less, w, ?_⟩
    have single : drawnSum cols rp k w = (cols.row w rp).getD k 0 := by
      rw [drawnSum, Finset.sum_eq_single w]
      · rw [if_neg other, drawnSeparator_corner inside inside, if_pos fun _ one => one, mul_one]
      · intro z mem differs
        have corner := (Finset.mem_filter.mp mem).1
        rw [if_neg other, drawnSeparator_corner inside corner]
        by_cases below : ∀ k, z k = 1 → w k = 1
        · have fewer : ones z ⊂ ones w := by
            refine Finset.ssubset_iff_subset_ne.mpr ⟨fun j one => ?_, fun same =>
              differs (eq_of_ones corner inside same)⟩
            simpa [ones] using below j (by simpa [ones] using one)
          have holds : (cols.row z rp).getD k 0 = 0 := by
            by_contra fails
            have more := least z (Finset.mem_filter.mpr ⟨mem, fails⟩)
            exact absurd (Finset.card_lt_card fewer) (by omega)
          rw [holds, zero_mul]
        · rw [if_neg below, mul_zero]
      · exact fun outside => absurd row outside
    rw [single]
    exact wrong
  · refine ⟨5, by decide, 0, ?_⟩
    simpa [drawnSum] using lookups

theorem card_hidden_le (le : n ≤ constProofSizeLogN) (broken : ¬ Satisfied cols tp.relParams) (libra : Fr)
    (u : Fin n → Fr) (hidden : Finset ((Fin n → Fr) × (Fin numberOfAlphas → Fr)))
    (zero : ∀ draw ∈ hidden, rowSum cols (tp.draw draw.1 draw.2 libra u) = 0) :
    hidden.card ≤ (n + 1) * modulus ^ (n + 24) := by
  obtain ⟨k, less, gates, nonzero⟩ := drawnSum_ne_zero broken
  have size : Fintype.card Fr = modulus := ZMod.card modulus
  obtain ⟨zeros, few, outside⟩ := (drawnSum_degree tp.relParams k).exists_zeros nonzero
  have fibers : ∀ gates ∉ zeros, ∀ fiber : Finset (Fin numberOfAlphas → Fr),
      (∀ alphas ∈ fiber, (gates, alphas) ∈ hidden) → fiber.card ≤ modulus ^ 24 := by
    intro gates good fiber inside
    have seen := outside gates good
    have weight : drawnSum cols tp.relParams 0 gates ≠ 0 ∨
        ∃ j : Fin numberOfAlphas, drawnSum cols tp.relParams (j + 1) gates ≠ 0 := by
      cases k with
      | zero => exact .inl seen
      | succ j => exact .inr ⟨⟨j, Nat.lt_of_succ_lt_succ less⟩, seen⟩
    have vanish : ∀ alphas ∈ fiber, drawnSum cols tp.relParams 0 gates +
        ∑ j, alphas j * drawnSum cols tp.relParams (j + 1) gates = 0 := by
      intro alphas mem
      rw [← rowSum_draw le]
      exact zero (gates, alphas) (inside alphas mem)
    have bound := card_linear_zeros_le weight fiber vanish
    rwa [size] at bound
  have pairs := card_pairs_le few hidden fibers
  rw [Fintype.card_fun, Fintype.card_fun, Fintype.card_fin, Fintype.card_fin, size] at pairs
  calc hidden.card ≤ n * 1 * modulus ^ (n - 1) * modulus ^ 25 + modulus ^ n * modulus ^ 24 := pairs
    _ = (n + 1) * modulus ^ (n + 24) := by
        rw [mul_one, mul_assoc, ← pow_add, ← pow_add, add_mul, one_mul]
        rcases Nat.eq_zero_or_pos n with rfl | positive
        · simp
        · rw [(by omega : n - 1 + 25 = n + 24)]

end Weights

section Rounds

/-- A prover behind the challenges of the rows and the relations: the mask is fixed, and each
round is fixed by the challenges before it; the columns and the mask are opened as they are. -/
structure SumcheckProver (cols : Columns n) where
  mask : (Fin n → Fr) → Fr
  masks : HasDegree 8 mask
  libraSum : Fr
  proof : Fr → (Fin n → Fr) → Proof
  sends : ∀ libra u, (proof libra u).libraSum = libraSum
  causal : ∀ libra u v, ∀ i : Fin n, (∀ j < i, u j = v j) →
    roundUnivariate (proof libra u) i = roundUnivariate (proof libra v) i
  evaluations : ∀ libra u, evaluationOf (proof libra u).sumcheckEvaluations =
    fun wire => cols.column wire u
  claimed : ∀ libra u, (proof libra u).libraClaimedEvaluation = mask u

variable {prover : SumcheckProver cols} {gates u : Fin n → Fr} {alphas : Fin numberOfAlphas → Fr}
  {libra : Fr}

noncomputable def SumcheckProver.rounds (prover : SumcheckProver cols) (libra : Fr) :
    Prover Fr n 8 where
  message i u := roundPolynomial (prover.proof libra u) i
  degree i u := natDegree_roundPolynomial_le i
  causal i u v same := by
    rw [roundPolynomial, roundPolynomial, prover.causal libra u v i same]

variable (positive : 0 < n) (le : n ≤ constProofSizeLogN) (size : vk.logCircuitSize = n)
include positive le size

theorem accepted_rounds (accepted : verifySumcheck (prover.proof libra u)
    (tp.draw gates alphas libra u) vk = .ok ()) :
    (prover.rounds libra).Accepted (libra * prover.libraSum)
      (summand cols prover.mask (tp.draw gates alphas libra 0) u) u
      (targetAt (prover.proof libra u) (tp.draw gates alphas libra u)) := by
  have point : challengePoint (tp.draw gates alphas libra u) n = u := challengePoint_draw le
  have range := accepted
  subst size
  unfold verifySumcheck at range
  obtain ⟨_, -, passed⟩ := bind_eq_ok.mp range
  obtain ⟨⟨target, power⟩, rounds, -⟩ := bind_eq_ok.mp passed
  obtain ⟨rfl, rfl, sums⟩ := sumcheckRoundsTarget_ok rounds
  have evaluations := (prover.evaluations libra u).trans
    (congrArg (fun v wire => cols.column wire v) point.symm)
  have claimed := (prover.claimed libra u).trans (congrArg prover.mask point.symm)
  have final := (verifySumcheck_of_target positive le rfl rounds evaluations claimed).mp accepted
  refine ⟨?_, fun i => sums i i.isLt, fun i => ?_, ?_⟩
  · rw [targetAt, prover.sends, draw_libraChallenge]
  · have challenge : uChallenge (tp.draw gates alphas libra u) i = u i := congrFun point i
    rw [targetAt, challenge]
    rfl
  · rw [← final, point, summand_draw le]

theorem card_rounds_le
    (wrong : libra * prover.libraSum ≠
      rowSum cols (tp.draw gates alphas libra 0) + (∑ z ∈ cube n, prover.mask z) * libra)
    (passed : Finset (Fin n → Fr))
    (accepted : ∀ u ∈ passed, verifySumcheck (prover.proof libra u)
      (tp.draw gates alphas libra u) vk = .ok ()) :
    passed.card ≤ n * (8 * modulus ^ (n - 1)) := by
  obtain ⟨F, degree, value⟩ := summand_degree cols (tp.draw gates alphas libra 0) prover.masks
  have sum : ∑ z ∈ Fintype.piFinset fun _ : Fin n => ({0, 1} : Finset Fr), eval z F =
      rowSum cols (tp.draw gates alphas libra 0) + (∑ z ∈ cube n, prover.mask z) * libra := by
    simp only [value]
    exact sum_summand
  rw [← sum] at wrong
  have few := (prover.rounds libra).card_accepted_le degree wrong passed fun u mem => by
    rw [value]
    exact ⟨_, accepted_rounds positive le size (accepted u mem)⟩
  rwa [ZMod.card] at few

/-- One challenge of the mask, at most, hides a sum other than zero. -/
theorem card_masked_le (prover : SumcheckProver cols)
    (shown : rowSum cols (tp.draw gates alphas 0 0) ≠ 0)
    (passed : Finset (Fr × (Fin n → Fr)))
    (accepted : ∀ draw ∈ passed, verifySumcheck (prover.proof draw.1 draw.2)
      (tp.draw gates alphas draw.1 draw.2) vk = .ok ()) :
    passed.card ≤ (8 * n + 1) * modulus ^ n := by
  let sum := rowSum cols (tp.draw gates alphas 0 0)
  let masked := ∑ z ∈ cube n, prover.mask z
  obtain ⟨bad, meets⟩ := exists_members
    fun libra : Fr => libra * prover.libraSum = sum + masked * libra
  have few : bad.card ≤ 1 := by
    refine Finset.card_le_one.mpr fun x hx y hy => ?_
    have left := (meets x).mp hx
    have right := (meets y).mp hy
    have factor : prover.libraSum - masked ≠ 0 := by
      intro zero
      exact shown (by linear_combination -left + x * zero)
    exact mul_right_cancel₀ factor (by linear_combination left - right)
  have fibers : ∀ libra ∉ bad, ∀ fiber : Finset (Fin n → Fr),
      (∀ u ∈ fiber, (libra, u) ∈ passed) → fiber.card ≤ n * (8 * modulus ^ (n - 1)) := by
    intro libra good fiber inside
    have same : rowSum cols (tp.draw gates alphas libra 0) = sum := by
      rw [rowSum_draw le]
      exact (rowSum_draw le).symm
    have wrong : libra * prover.libraSum ≠
        rowSum cols (tp.draw gates alphas libra 0) + masked * libra := by
      rw [same]
      exact fun right => good ((meets libra).mpr right)
    exact card_rounds_le positive le size wrong fiber fun u mem => accepted (libra, u) (inside u mem)
  have pairs := card_pairs_le few passed fibers
  rw [Fintype.card_fun, Fintype.card_fin, ZMod.card] at pairs
  calc passed.card ≤ 1 * modulus ^ n + modulus * (n * (8 * modulus ^ (n - 1))) := pairs
    _ = modulus ^ n + 8 * n * (modulus * modulus ^ (n - 1)) := by ring
    _ = (8 * n + 1) * modulus ^ n := by
        rw [mul_pow_sub_one positive.ne']
        ring

/-- A circuit with a relation that fails in some row passes the sumcheck for a share of the
challenges that grows with the number of rounds only, whatever the prover sends. -/
theorem sumcheck_rejects_unsatisfied (broken : ¬ Satisfied cols tp.relParams)
    (strategy : (Fin n → Fr) → (Fin numberOfAlphas → Fr) → SumcheckProver cols)
    (passed : Finset (((Fin n → Fr) × (Fin numberOfAlphas → Fr)) × (Fr × (Fin n → Fr))))
    (accepted : ∀ draw ∈ passed,
      verifySumcheck ((strategy draw.1.1 draw.1.2).proof draw.2.1 draw.2.2)
        (tp.draw draw.1.1 draw.1.2 draw.2.1 draw.2.2) vk = .ok ()) :
    passed.card ≤ (9 * n + 2) * modulus ^ (2 * n + 25) := by
  obtain ⟨hidden, zero⟩ := exists_members
    fun draw : (Fin n → Fr) × (Fin numberOfAlphas → Fr) =>
      rowSum cols (tp.draw draw.1 draw.2 0 0) = 0
  have few := card_hidden_le le broken 0 0 hidden fun draw => (zero draw).mp
  have fibers : ∀ draw ∉ hidden, ∀ fiber : Finset (Fr × (Fin n → Fr)),
      (∀ later ∈ fiber, (draw, later) ∈ passed) → fiber.card ≤ (8 * n + 1) * modulus ^ n := by
    intro draw good fiber inside
    exact card_masked_le positive le size (strategy draw.1 draw.2)
      (fun shown => good ((zero draw).mpr shown)) fiber
      fun later mem => accepted (draw, later) (inside later mem)
  have count : numberOfAlphas = 25 := rfl
  have pairs := card_pairs_le few passed fibers
  simp only [Fintype.card_prod, Fintype.card_fun, Fintype.card_fin, ZMod.card] at pairs
  calc passed.card ≤ (n + 1) * modulus ^ (n + 24) * (modulus * modulus ^ n) +
        modulus ^ n * modulus ^ numberOfAlphas * ((8 * n + 1) * modulus ^ n) := pairs
    _ = (9 * n + 2) * modulus ^ (2 * n + 25) := by
        rw [count]
        ring

end Rounds

section Sample

/-- The gate `w_l = 0` in every row, with a wire that is one in half of the rows. -/
def brokenGate : Columns 3 where
  column
    | .qArith, _ | .ql, _ => 1
    | .wl, u => u 0
    | _, _ => 0
  multilinear wire := by
    cases wire
    case wl => exact .var 0
    case qArith => exact (HasDegree.const 1).mono (Nat.zero_le 1)
    case ql => exact (HasDegree.const 1).mono (Nat.zero_le 1)
    all_goals exact (HasDegree.const 0).mono (Nat.zero_le 1)

theorem brokenGate_row (u : Fin 3 → Fr) :
    brokenGate.row u default = u 0 :: List.replicate 25 0 := by
  have params : (default : RelationParameters) = ⟨0, 0, 0, 0, 0, 0⟩ := rfl
  simp [Columns.row, brokenGate, params, subrelations, accumulateArithmeticRelation,
    accumulatePermutationRelation, accumulateLogDerivativeLookupRelation,
    accumulateDeltaRangeRelation, accumulateEllipticRelation, accumulateAuxiliaryRelation,
    accumulatePoseidonExternalRelation, accumulatePoseidonInternalRelation, List.replicate]

theorem brokenGate_broken : ¬ Satisfied brokenGate default := by
  intro satisfied
  have inside : (fun k : Fin 3 => if k = 0 then 1 else 0 : Fin 3 → Fr) ∈ enabledRows 3 := by
    refine Finset.mem_filter.mpr ⟨Fintype.mem_piFinset.mpr fun k => ?_, ?_⟩
    · by_cases first : k = 0 <;> simp [first]
    · exact Finset.prod_eq_zero (i := 2) (by simp) (by simp)
  have gate := satisfied.gates _ inside 0 (by decide)
  rw [brokenGate_row] at gate
  exact one_ne_zero gate

def silentProver : SumcheckProver brokenGate where
  mask _ := 0
  masks := (HasDegree.const 0).mono (by decide)
  libraSum := 0
  proof _ u := silentProof brokenGate u
  sends _ _ := rfl
  causal _ _ _ _ _ := by rw [roundUnivariate_silentProof, roundUnivariate_silentProof]
  evaluations _ _ := evaluationOf_evaluations
  claimed _ _ := rfl

def originDraw : Transcript := (default : Transcript).draw (n := 3) 0 0 0 0

/-- At the origin the wire is zero, and silence is accepted. -/
theorem silentProver_accepted :
    verifySumcheck (silentProof brokenGate 0) originDraw (keyOfSize 3) = .ok () := by
  have point : challengePoint originDraw 3 = 0 := challengePoint_draw (by decide)
  have params : originDraw.relParams = default := draw_relParams
  have silent : Honest (silentProof brokenGate 0) originDraw (0 : MvPolynomial (Fin 3) Fr) := by
    intro i k _
    rw [roundUnivariate_silentProof, getD_replicate_zero, partialSum]
    simp only [map_zero, Finset.sum_const_zero]
  have rounds := sumcheckRoundsTarget_eq (by simp) (by simp [silentProof]) silent le_rfl
  rw [fixedSum_last, map_zero] at rounds
  have opened : evaluationOf (silentProof brokenGate 0).sumcheckEvaluations =
      fun wire => brokenGate.column wire (challengePoint originDraw 3) := by
    rw [point]
    exact evaluationOf_evaluations
  have final : verifySumcheck (silentProof brokenGate 0) originDraw (keyOfSize 3) = .ok () ↔
      summand brokenGate (fun _ => 0) originDraw (challengePoint originDraw 3) = 0 :=
    verifySumcheck_of_target (by decide) (by decide) rfl rounds opened rfl
  refine final.mpr ?_
  rw [point, summand, relationAt_eq_sum, params, brokenGate_row]
  have zeros : (0 : Fin 3 → Fr) 0 :: List.replicate 25 0 = List.replicate 26 0 := rfl
  rw [zeros]
  simp only [getD_replicate_zero, zero_mul, Finset.sum_const_zero, add_zero]

theorem sumcheck_rejects_unsatisfied_sample :
    ({((0, 0), (0, 0))} : Finset (((Fin 3 → Fr) × (Fin numberOfAlphas → Fr)) ×
      (Fr × (Fin 3 → Fr)))).card ≤ (9 * 3 + 2) * modulus ^ (2 * 3 + 25) := by
  have accepted : ∀ draw ∈ ({((0, 0), (0, 0))} : Finset (((Fin 3 → Fr) ×
      (Fin numberOfAlphas → Fr)) × (Fr × (Fin 3 → Fr)))),
      verifySumcheck (silentProver.proof draw.2.1 draw.2.2)
        ((default : Transcript).draw draw.1.1 draw.1.2 draw.2.1 draw.2.2) (keyOfSize 3) = .ok () := by
    intro draw mem
    rw [Finset.mem_singleton.mp mem]
    exact silentProver_accepted
  have size : (keyOfSize 3).logCircuitSize = 3 := rfl
  exact sumcheck_rejects_unsatisfied (by decide) (by decide) size brokenGate_broken
    (fun _ _ => silentProver) _ accepted

end Sample

end Zicket.Verifier
