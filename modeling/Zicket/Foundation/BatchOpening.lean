import Mathlib.Algebra.Polynomial.Eval.SMul
import Mathlib.Algebra.Polynomial.Div
import Mathlib.LinearAlgebra.Span.Basic
import Mathlib.Tactic.FieldSimp
import Zicket.Foundation.RandomPoints

/-! Openings of committed polynomials in one batch: the claims, weighted by the powers of a
challenge, each over the distance of its point from a common one, and a quotient that stands for
all of them. A commitment is the value of the polynomial at a secret point, times a generator. -/

namespace Zicket.Foundation

open Polynomial

theorem sum_range_mul {M : Type} [AddCommMonoid M] (f : ℕ → M) (width rows : ℕ) :
    ∑ i ∈ Finset.range (width * rows), f i =
      ∑ k ∈ Finset.range rows, ∑ j ∈ Finset.range width, f (width * k + j) := by
  induction rows with
  | zero => simp
  | succ rows ih => rw [Nat.mul_succ, Finset.sum_range_add, ih, Finset.sum_range_succ]

structure OpeningClaim (F G : Type) where
  commitment : G
  point : F
  value : F

variable {F : Type} [Field F] {G : Type} [AddCommGroup G] [Module F G]

namespace OpeningClaim

/-- The commitment less its value, over the distance of the points. -/
def excess (g : G) (z : F) (claim : OpeningClaim F G) : G :=
  (z - claim.point)⁻¹ • (claim.commitment - claim.value • g)

def map {H : Type} (f : G → H) (claim : OpeningClaim F G) : OpeningClaim F H :=
  ⟨f claim.commitment, claim.point, claim.value⟩

def Holds (claim : OpeningClaim F F[X]) : Prop := claim.commitment.eval claim.point = claim.value

end OpeningClaim

/-- The claims at the common point `z`, the one at `e` with the weight `ν ^ e`. -/
def batchedExcess (g : G) (ν z : F) (powers : Finset ℕ) (claims : ℕ → OpeningClaim F G) : G :=
  ∑ e ∈ powers, ν ^ e • (claims e).excess g z

/-- The quotient and the witness open the claims, for the secret point `τ`. -/
def BatchOpens (g : G) (τ ν z : F) (powers : Finset ℕ) (claims : ℕ → OpeningClaim F G)
    (quotient witness : G) : Prop :=
  quotient - batchedExcess g ν z powers claims = (τ - z) • witness

section Commitments

variable (g : G) (τ : F)

noncomputable def commitTo : F[X] →ₗ[F] G := (LinearMap.toSpanSingleton F G g).comp (leval τ)

theorem commitTo_apply (P : F[X]) : commitTo g τ P = P.eval τ • g := rfl

@[simp] theorem commitTo_one : commitTo g τ 1 = g := by
  rw [commitTo_apply, eval_one, one_smul]

theorem commitTo_X_sub_C_mul (z : F) (P : F[X]) :
    commitTo g τ ((X - C z) * P) = (τ - z) • commitTo g τ P := by
  rw [commitTo_apply, commitTo_apply, eval_mul, eval_sub, eval_X, eval_C, mul_smul]

theorem commitTo_excess (z : F) (claim : OpeningClaim F F[X]) :
    commitTo g τ (claim.excess 1 z) = (claim.map (commitTo g τ)).excess g z := by
  rw [OpeningClaim.excess, map_smul, map_sub, map_smul, commitTo_one]
  rfl

theorem commitTo_batchedExcess (ν z : F) (powers : Finset ℕ) (claims : ℕ → OpeningClaim F F[X]) :
    commitTo g τ (batchedExcess 1 ν z powers claims) =
      batchedExcess g ν z powers fun e => (claims e).map (commitTo g τ) := by
  rw [batchedExcess, map_sum]
  refine Finset.sum_congr rfl fun e _ => ?_
  rw [map_smul, commitTo_excess]

end Commitments

section Quotients

noncomputable def OpeningClaim.quotient (claim : OpeningClaim F F[X]) : F[X] :=
  (claim.commitment - C claim.value) /ₘ (X - C claim.point)

variable (ν z : F) (powers : Finset ℕ) (claims : ℕ → OpeningClaim F F[X])

noncomputable def batchQuotient : F[X] := ∑ e ∈ powers, ν ^ e • (claims e).quotient

noncomputable def batchWitness : F[X] :=
  (batchQuotient ν powers claims - batchedExcess 1 ν z powers claims) /ₘ (X - C z)

variable {ν z : F} {powers : Finset ℕ} {claims : ℕ → OpeningClaim F F[X]}

theorem OpeningClaim.eval_excess (claim : OpeningClaim F F[X]) (x : F) :
    (claim.excess 1 z).eval x =
      (z - claim.point)⁻¹ * (claim.commitment.eval x - claim.value) := by
  rw [OpeningClaim.excess, eval_smul, eval_sub, eval_smul, eval_one, smul_eq_mul, smul_eq_mul,
    mul_one]

theorem eval_batchedExcess (x : F) : (batchedExcess 1 ν z powers claims).eval x =
    ∑ e ∈ powers, ν ^ e * ((z - (claims e).point)⁻¹ *
      ((claims e).commitment.eval x - (claims e).value)) := by
  rw [batchedExcess, eval_finsetSum]
  refine Finset.sum_congr rfl fun e _ => ?_
  rw [eval_smul, smul_eq_mul, OpeningClaim.eval_excess]

theorem OpeningClaim.Holds.eval_quotient {claim : OpeningClaim F F[X]} (holds : claim.Holds)
    (away : z ≠ claim.point) : claim.quotient.eval z = (claim.excess 1 z).eval z := by
  have root : (claim.commitment - C claim.value).IsRoot claim.point := by
    rw [IsRoot, eval_sub, eval_C, holds, sub_self]
  have divided := congrArg (eval z) (mul_divByMonic_eq_iff_isRoot.mpr root)
  rw [eval_mul, eval_sub, eval_X, eval_C, eval_sub, eval_C] at divided
  rw [claim.eval_excess, ← divided, inv_mul_cancel_left₀ (sub_ne_zero.mpr away)]
  rfl

/-- At the common point, the quotient of right claims is their batch. -/
theorem eval_batchQuotient (holds : ∀ e ∈ powers, (claims e).Holds)
    (away : ∀ e ∈ powers, z ≠ (claims e).point) : (batchQuotient ν powers claims).eval z =
      (batchedExcess 1 ν z powers claims).eval z := by
  rw [batchQuotient, batchedExcess, eval_finsetSum, eval_finsetSum]
  refine Finset.sum_congr rfl fun e mem => ?_
  rw [eval_smul, eval_smul, (holds e mem).eval_quotient (away e mem)]

theorem mul_batchWitness (holds : ∀ e ∈ powers, (claims e).Holds)
    (away : ∀ e ∈ powers, z ≠ (claims e).point) : (X - C z) * batchWitness ν z powers claims =
      batchQuotient ν powers claims - batchedExcess 1 ν z powers claims := by
  refine mul_divByMonic_eq_iff_isRoot.mpr ?_
  rw [IsRoot, eval_sub, eval_batchQuotient holds away, sub_self]

theorem batchOpens_of_holds (g : G) (τ : F) (holds : ∀ e ∈ powers, (claims e).Holds)
    (away : ∀ e ∈ powers, z ≠ (claims e).point) :
    BatchOpens g τ ν z powers (fun e => (claims e).map (commitTo g τ))
      (commitTo g τ (batchQuotient ν powers claims))
      (commitTo g τ (batchWitness ν z powers claims)) := by
  rw [BatchOpens, ← commitTo_batchedExcess, ← map_sub, ← mul_batchWitness holds away,
    commitTo_X_sub_C_mul]

section Degrees

variable {d : ℕ} (committed : ∀ e ∈ powers, (claims e).commitment.natDegree ≤ d)
include committed

theorem natDegree_batchQuotient_le : (batchQuotient ν powers claims).natDegree ≤ d := by
  refine natDegree_sum_le_of_forall_le _ _ fun e mem => (natDegree_smul_le _ _).trans ?_
  rw [OpeningClaim.quotient, natDegree_divByMonic _ (monic_X_sub_C _), natDegree_sub_C]
  exact (Nat.sub_le _ _).trans (committed e mem)

theorem natDegree_batchWitness_le : (batchWitness ν z powers claims).natDegree ≤ d := by
  have excess : (batchedExcess 1 ν z powers claims).natDegree ≤ d := by
    refine natDegree_sum_le_of_forall_le _ _ fun e mem => (natDegree_smul_le _ _).trans ?_
    refine (natDegree_smul_le _ _).trans ((natDegree_sub_le _ _).trans (max_le (committed e mem) ?_))
    exact (natDegree_smul_le _ _).trans (natDegree_one.trans_le (Nat.zero_le d))
  rw [batchWitness, natDegree_divByMonic _ (monic_X_sub_C _)]
  exact (Nat.sub_le _ _).trans
    ((natDegree_sub_le _ _).trans (max_le (natDegree_batchQuotient_le committed) excess))

end Degrees

end Quotients

section Soundness

variable {ν z : F} {powers : Finset ℕ} {claims : ℕ → OpeningClaim F F[X]}

/-- The difference that the equation at the secret point evaluates. -/
noncomputable def openingDefect (ν z : F) (powers : Finset ℕ) (claims : ℕ → OpeningClaim F F[X])
    (quotient witness : F[X]) : F[X] :=
  quotient - batchedExcess 1 ν z powers claims - (X - C z) * witness

theorem batchOpens_iff {g : G} (free : g ≠ 0) (τ : F) (quotient witness : F[X]) :
    BatchOpens g τ ν z powers (fun e => (claims e).map (commitTo g τ)) (commitTo g τ quotient)
      (commitTo g τ witness) ↔ (openingDefect ν z powers claims quotient witness).eval τ = 0 := by
  have same : (openingDefect ν z powers claims quotient witness).eval τ • g =
      commitTo g τ quotient - batchedExcess g ν z powers (fun e => (claims e).map (commitTo g τ)) -
        (τ - z) • commitTo g τ witness := by
    rw [← commitTo_apply, openingDefect, map_sub, map_sub, commitTo_batchedExcess,
      commitTo_X_sub_C_mul]
  rw [BatchOpens, ← sub_eq_zero, ← same, smul_eq_zero, or_iff_left free]

theorem natDegree_openingDefect {d : ℕ} {quotient witness : F[X]} (divided : quotient.natDegree ≤ d)
    (opened : witness.natDegree ≤ d)
    (committed : ∀ e ∈ powers, (claims e).commitment.natDegree ≤ d) :
    (openingDefect ν z powers claims quotient witness).natDegree ≤ d + 1 := by
  refine (natDegree_sub_le _ _).trans (max_le ((natDegree_sub_le _ _).trans (max_le ?_ ?_)) ?_)
  · exact divided.trans (Nat.le_succ d)
  · refine natDegree_sum_le_of_forall_le _ _ fun e mem => ?_
    refine (natDegree_smul_le _ _).trans ((natDegree_smul_le _ _).trans ?_)
    refine (natDegree_sub_le _ _).trans (max_le ((committed e mem).trans (Nat.le_succ d)) ?_)
    exact (natDegree_smul_le _ _).trans (by simp)
  · exact natDegree_mul_le.trans (by rw [natDegree_X_sub_C]; omega)

theorem card_roots_le {P : F[X]} (nonzero : P ≠ 0) {d : ℕ} (degree : P.natDegree ≤ d)
    (roots : Finset F) (root : ∀ x ∈ roots, P.eval x = 0) : roots.card ≤ d :=
  (card_le_degree_of_subset_roots fun x mem => (mem_roots nonzero).mpr (root x mem)).trans degree

/-- What the claims at one point are wrong by, as a polynomial of the weight. -/
noncomputable def pointErrors (powers : Finset ℕ) (claims : ℕ → OpeningClaim F F[X]) (x : F)
    [DecidablePred fun e => (claims e).point = x] : F[X] :=
  ∑ e ∈ powers with (claims e).point = x, monomial e ((claims e).commitment.eval x - (claims e).value)

variable [DecidableEq F]

theorem coeff_pointErrors {e : ℕ} (mem : e ∈ powers) :
    (pointErrors powers claims (claims e).point).coeff e =
      (claims e).commitment.eval (claims e).point - (claims e).value := by
  have inside : e ∈ {i ∈ powers | (claims i).point = (claims e).point} :=
    Finset.mem_filter.mpr ⟨mem, rfl⟩
  rw [pointErrors, finsetSum_coeff, Finset.sum_eq_single_of_mem e inside]
  · rw [coeff_monomial, if_pos rfl]
  · intro i _ other
    rw [coeff_monomial, if_neg other]

theorem natDegree_pointErrors {most : ℕ} (bound : ∀ e ∈ powers, e ≤ most) (x : F) :
    (pointErrors powers claims x).natDegree ≤ most := by
  refine natDegree_sum_le_of_forall_le _ _ fun e mem => ?_
  exact (natDegree_monomial_le _).trans (bound e (Finset.mem_filter.mp mem).1)

def claimPoints (powers : Finset ℕ) (claims : ℕ → OpeningClaim F F[X]) : Finset F :=
  powers.image fun e => (claims e).point

noncomputable def clearedDefect (ν : F) (powers : Finset ℕ) (claims : ℕ → OpeningClaim F F[X])
    (quotient : F[X]) : F[X] :=
  (∏ x ∈ claimPoints powers claims, (X - C x)) * quotient -
    ∑ e ∈ powers, ν ^ e • ((∏ x ∈ (claimPoints powers claims).erase (claims e).point, (X - C x)) *
      ((claims e).commitment - C (claims e).value))

theorem natDegree_clearedDefect {d : ℕ} {quotient : F[X]} (divided : quotient.natDegree ≤ d)
    (committed : ∀ e ∈ powers, (claims e).commitment.natDegree ≤ d) :
    (clearedDefect ν powers claims quotient).natDegree ≤ (claimPoints powers claims).card + d := by
  refine (natDegree_sub_le _ _).trans (max_le ?_ ?_)
  · exact natDegree_mul_le.trans (Nat.add_le_add (natDegree_finsetProd_X_sub_C_eq_card _ id).le divided)
  · refine natDegree_sum_le_of_forall_le _ _ fun e mem => ?_
    refine (natDegree_smul_le _ _).trans (natDegree_mul_le.trans (Nat.add_le_add ?_ ?_))
    · exact (natDegree_finsetProd_X_sub_C_eq_card _ id).le.trans (Finset.card_le_card (Finset.erase_subset _ _))
    · exact (natDegree_sub_le _ _).trans (max_le (committed e mem) (by simp))

theorem eval_clearedDefect {quotient : F[X]} (away : z ∉ claimPoints powers claims) :
    (clearedDefect ν powers claims quotient).eval z =
      (∏ x ∈ claimPoints powers claims, (z - x)) *
        (quotient.eval z - (batchedExcess 1 ν z powers claims).eval z) := by
  rw [clearedDefect, eval_batchedExcess, eval_sub, eval_mul, eval_prod, eval_finsetSum, mul_sub,
    Finset.mul_sum]
  simp only [eval_sub, eval_X, eval_C]
  refine congrArg _ (Finset.sum_congr rfl fun e mem => ?_)
  have point : (claims e).point ∈ claimPoints powers claims :=
    Finset.mem_image_of_mem (fun e => (claims e).point) mem
  have apart : z - (claims e).point ≠ 0 := sub_ne_zero.mpr fun same => away (same ▸ point)
  rw [eval_smul, eval_mul, eval_prod, eval_sub, eval_C, smul_eq_mul,
    ← Finset.mul_prod_erase _ _ point]
  simp only [eval_sub, eval_X, eval_C]
  field_simp

/-- At a point, the cleared difference is what the claims there are wrong by. -/
theorem eval_clearedDefect_point (ν : F) (quotient : F[X]) {x : F} (mem : x ∈ claimPoints powers claims) :
    (clearedDefect ν powers claims quotient).eval x =
      -((∏ y ∈ (claimPoints powers claims).erase x, (x - y)) *
        (pointErrors powers claims x).eval ν) := by
  have vanishes : ∏ y ∈ claimPoints powers claims, (x - y) = 0 :=
    Finset.prod_eq_zero mem (sub_self x)
  rw [clearedDefect, eval_sub, eval_mul, eval_prod, eval_finsetSum, pointErrors, eval_finsetSum,
    Finset.mul_sum, Finset.sum_filter]
  simp only [eval_sub, eval_X, eval_C, vanishes, zero_mul, zero_sub]
  refine congrArg _ (Finset.sum_congr rfl fun e inside => ?_)
  rw [eval_smul, eval_mul, eval_prod, eval_sub, eval_C, smul_eq_mul]
  simp only [eval_sub, eval_X, eval_C]
  by_cases here : (claims e).point = x
  · rw [if_pos here, eval_monomial, here]
    ring
  · have factor : ∏ y ∈ (claimPoints powers claims).erase (claims e).point, (x - y) = 0 :=
      Finset.prod_eq_zero (Finset.mem_erase.mpr ⟨fun same => here same.symm, mem⟩) (sub_self x)
    rw [if_neg here, factor, zero_mul, mul_zero]

theorem clearedDefect_ne_zero (quotient : F[X]) {e : ℕ} (mem : e ∈ powers)
    (lucky : (pointErrors powers claims (claims e).point).eval ν ≠ 0) :
    clearedDefect ν powers claims quotient ≠ 0 := by
  have point : (claims e).point ∈ claimPoints powers claims :=
    Finset.mem_image_of_mem (fun e => (claims e).point) mem
  intro zero
  have value := eval_clearedDefect_point ν quotient point
  rw [zero, eval_zero, zero_eq_neg] at value
  refine mul_ne_zero (Finset.prod_ne_zero_iff.mpr fun y other => ?_) lucky value
  exact sub_ne_zero.mpr fun same => (Finset.mem_erase.mp other).1 same.symm

/-- A batch with a wrong claim is opened for few choices of the weight, of the common point and of
the secret point, whatever quotient answers the weight and whatever witness answers the point. -/
theorem card_opens_le [Fintype F] {d most e : ℕ} (mem : e ∈ powers) (wrong : ¬ (claims e).Holds)
    (bound : ∀ e ∈ powers, e ≤ most)
    (committed : ∀ e ∈ powers, (claims e).commitment.natDegree ≤ d)
    (quotient : F → F[X]) (divided : ∀ ν, (quotient ν).natDegree ≤ d)
    (witness : F → F → F[X]) (opened : ∀ ν z, (witness ν z).natDegree ≤ d)
    (passed : Finset (F × F × F))
    (away : ∀ draw ∈ passed, draw.2.1 ∉ claimPoints powers claims)
    (vanishes : ∀ draw ∈ passed, (openingDefect draw.1 draw.2.1 powers claims (quotient draw.1)
      (witness draw.1 draw.2.1)).eval draw.2.2 = 0) :
    passed.card ≤ (most + (claimPoints powers claims).card + 2 * d + 1) * Fintype.card F ^ 2 := by
  have error : pointErrors powers claims (claims e).point ≠ 0 := by
    intro zero
    have coeff : (pointErrors powers claims (claims e).point).coeff e =
        (claims e).commitment.eval (claims e).point - (claims e).value := coeff_pointErrors mem
    rw [zero, coeff_zero] at coeff
    exact wrong (sub_eq_zero.mp coeff.symm)
  obtain ⟨cancelling, cancels⟩ :=
    exists_members fun ν => (pointErrors powers claims (claims e).point).eval ν = 0
  have weights := card_roots_le error (natDegree_pointErrors bound _) cancelling
    fun ν mem => (cancels ν).mp mem
  have points : ∀ ν ∉ cancelling, ∀ fiber : Finset (F × F),
      (∀ later ∈ fiber, (ν, later) ∈ passed) → fiber.card ≤
        ((claimPoints powers claims).card + d) * Fintype.card F + Fintype.card F * (d + 1) := by
    intro ν lucky fiber inside
    have nonzero := clearedDefect_ne_zero (quotient ν) mem fun zero =>
      lucky ((cancels ν).mpr zero)
    obtain ⟨meeting, meets⟩ :=
      exists_members fun z => (clearedDefect ν powers claims (quotient ν)).eval z = 0
    refine card_pairs_le (card_roots_le nonzero (natDegree_clearedDefect (divided ν) committed)
      meeting fun z mem => (meets z).mp mem) fiber fun z good secrets accepted => ?_
    by_cases used : secrets.Nonempty
    · obtain ⟨τ, some⟩ := used
      have outside := away _ (inside _ (accepted τ some))
      have apart : (openingDefect ν z powers claims (quotient ν) (witness ν z)).eval z ≠ 0 := by
        intro zero
        refine good ((meets z).mpr ?_)
        rw [openingDefect, eval_sub, eval_sub, eval_mul, eval_sub, eval_X, eval_C, sub_self,
          zero_mul, sub_zero] at zero
        rw [eval_clearedDefect outside, zero, mul_zero]
      refine card_roots_le (P := openingDefect ν z powers claims (quotient ν) (witness ν z))
        (fun zero => apart (by rw [zero, eval_zero]))
        (natDegree_openingDefect (divided ν) (opened ν z) committed) secrets fun τ mem => ?_
      exact vanishes _ (inside _ (accepted τ mem))
    · rw [Finset.not_nonempty_iff_eq_empty.mp used, Finset.card_empty]
      exact Nat.zero_le _
  have total := card_pairs_le weights passed points
  rw [Fintype.card_prod] at total
  calc passed.card ≤ most * (Fintype.card F * Fintype.card F) + Fintype.card F *
        (((claimPoints powers claims).card + d) * Fintype.card F + Fintype.card F * (d + 1)) := total
    _ = (most + (claimPoints powers claims).card + 2 * d + 1) * Fintype.card F ^ 2 := by ring

end Soundness

end Zicket.Foundation
