import Zicket.Foundation.BatchOpening
import Zicket.Verifier.FoldEvaluations

/-! The claims that the one multi-scalar multiplication of the opening stands for: every fold at two
opposite points, the first of them split into the columns with their weights, and the polynomials of
the mask. The weight of a claim is the power of `ν` it is listed at. -/

namespace Zicket.Verifier

open Host Foundation

section Curve

variable {G : Type} [AddCommGroup G] [Module Fr G]

/-- What the host documents of its curve, `τ` being the secret behind the second of its two points
of the other group: sums and opposites are those of a module, and the pairing compares two points. -/
structure CurveLaws (curve : Bn254) (OnCurve : G1Point → Prop) (denote : G1Point → G) (τ : Fr) :
    Prop where
  msm (terms : List (G1Point × Fr)) : terms ≠ [] → (∀ term ∈ terms, OnCurve term.1) →
    ∃ p, curve.g1Msm terms = .ok p ∧ OnCurve p ∧
      denote p = (terms.map fun (c, s) => s • denote c).sum
  infinity : OnCurve G1Point.infinity ∧ denote G1Point.infinity = 0
  generator : OnCurve G1Point.generator
  neg (p : G1Point) : OnCurve p → OnCurve (curve.neg p) ∧ denote (curve.neg p) = -denote p
  pairing (p q : G1Point) : OnCurve p → OnCurve q →
    (curve.pairingCheck p q = true ↔ denote p + τ • denote q = 0)

def linearCombination (denote : G1Point → G) (coms : List G1Point) (scalars : List Fr) : G :=
  ((coms.zip scalars).map fun (c, s) => s • denote c).sum

variable {curve : Bn254} {OnCurve : G1Point → Prop} {denote : G1Point → G} {τ : Fr}
  {coms : List G1Point} {scalars : List Fr}

@[simp] theorem linearCombination_cons (c : G1Point) (s : Fr) :
    linearCombination denote (c :: coms) (s :: scalars) =
      s • denote c + linearCombination denote coms scalars := rfl

@[simp] theorem linearCombination_nil : linearCombination denote [] [] = 0 := rfl

theorem linearCombination_append {coms' : List G1Point} {scalars' : List Fr}
    (same : coms.length = scalars.length) :
    linearCombination denote (coms ++ coms') (scalars ++ scalars') =
      linearCombination denote coms scalars + linearCombination denote coms' scalars' := by
  rw [linearCombination, List.zip_append same, List.map_append, List.sum_append]
  rfl

theorem linearCombination_eq_sum {n : ℕ} (left : coms.length = n) (right : scalars.length = n) :
    linearCombination denote coms scalars =
      ∑ i ∈ Finset.range n, scalars.getD i 0 • denote (coms.getD i G1Point.infinity) := by
  subst left
  induction coms generalizing scalars with
  | nil =>
    obtain rfl := List.length_eq_zero_iff.mp right
    rfl
  | cons c coms ih =>
    cases scalars with
    | nil => cases right
    | cons s scalars =>
      rw [linearCombination_cons, ih (Nat.succ.inj right), List.length_cons,
        Finset.sum_range_succ']
      simp only [List.getD_cons_succ, List.getD_cons_zero]
      exact add_comm _ _

theorem sum_filter_ne_zero (terms : List (G1Point × Fr)) :
    ((terms.filter fun (_, s) => s ≠ 0).map fun (c, s) => s • denote c).sum =
      (terms.map fun (c, s) => s • denote c).sum := by
  induction terms with
  | nil => rfl
  | cons term terms ih =>
    obtain ⟨c, s⟩ := term
    by_cases zero : s = 0
    · subst zero
      simpa using ih
    · simpa [zero] using ih

theorem CurveLaws.msm_eq (laws : CurveLaws curve OnCurve denote τ)
    (same : coms.length = scalars.length) (valid : ∀ c ∈ coms, OnCurve c) :
    ∃ p, curve.msm coms scalars = .ok p ∧ OnCurve p ∧
      denote p = linearCombination denote coms scalars := by
  rw [linearCombination, ← sum_filter_ne_zero]
  by_cases none : (coms.zip scalars).filter (fun (_, s) => s ≠ 0) = []
  · refine ⟨G1Point.infinity, ?_, laws.infinity.1, ?_⟩
    · refine bind_eq_ok.mpr ⟨(), ensure_eq_ok.mpr same, ?_⟩
      rw [if_pos none]
      rfl
    · rw [none]
      exact laws.infinity.2
  · obtain ⟨p, product, inside, value⟩ := laws.msm _ none fun term mem =>
      valid _ (List.of_mem_zip (List.mem_of_mem_filter mem)).1
    refine ⟨p, bind_eq_ok.mpr ⟨(), ensure_eq_ok.mpr same, ?_⟩, inside, value⟩
    rw [if_neg none]
    exact product

end Curve

section Claims

variable (proof : Proof) (vk : VerificationKey) (tp : Transcript) (logN : ℕ)

/-- The value of a fold at its positive point, as many folds below the last one: the last one is
constant. -/
def foldValue : (below : ℕ) → Fr
  | 0 => batchedEvaluation proof tp
  | k + 1 =>
    let j := logN - (k + 1)
    let r := tp.geminiR ^ 2 ^ j
    (r * foldValue k * Fr.fromU64 2 -
      geminiAEvaluation proof j * (r * (1 - uChallenge tp j) - uChallenge tp j)) *
      (foldDenominator tp j)⁻¹

/-- What an opening is about: points of the curve, or the polynomials behind them. -/
structure OpenedParts (G : Type) where
  hidingPolynomial : G
  entity : ℕ → G
  fold : ℕ → G
  concatenation : G
  grandSum : G
  quotient : G

def OpenedParts.map {G H : Type} (f : G → H) (parts : OpenedParts G) : OpenedParts H where
  hidingPolynomial := f parts.hidingPolynomial
  entity i := f (parts.entity i)
  fold j := f (parts.fold j)
  concatenation := f parts.concatenation
  grandSum := f parts.grandSum
  quotient := f parts.quotient

def entityCommitments : List G1Point :=
  vk.commitments.map (toArray 64) ++
    [proof.w1, proof.w2, proof.w3, proof.w4, proof.zPerm, proof.lookupInverses,
      proof.lookupReadCounts, proof.lookupReadTags] ++
    [proof.w1, proof.w2, proof.w3, proof.w4, proof.zPerm]

/-- The points of a proof, the first fold not being sent. -/
def openedPoints : OpenedParts G1Point where
  hidingPolynomial := proof.hidingPolynomialCommitment
  entity i := (entityCommitments proof vk).getD i G1Point.infinity
  fold j := proof.geminiFoldComms.toList.getD (j - 1) G1Point.infinity
  concatenation := proof.libraConcatenationCommitment
  grandSum := proof.libraGrandSumCommitment
  quotient := proof.libraQuotientCommitment

variable {G : Type} [AddCommGroup G] [Module Fr G] (parts : OpenedParts G)

def unshiftedPart : G :=
  parts.hidingPolynomial + ∑ i ∈ Finset.range numberUnshifted, tp.rho ^ (i + 1) • parts.entity i

def shiftedPart : G :=
  ∑ i ∈ Finset.Ico numberUnshifted numberOfEntities, tp.rho ^ (i + 1) • parts.entity i

def positiveClaim (j : ℕ) : OpeningClaim Fr G where
  commitment :=
    if j = 0 then unshiftedPart tp parts + tp.geminiR⁻¹ • shiftedPart tp parts else parts.fold j
  point := tp.geminiR ^ 2 ^ j
  value := foldValue proof tp logN (logN - j)

def negativeClaim (j : ℕ) : OpeningClaim Fr G where
  commitment :=
    if j = 0 then unshiftedPart tp parts - tp.geminiR⁻¹ • shiftedPart tp parts else parts.fold j
  point := -tp.geminiR ^ 2 ^ j
  value := geminiAEvaluation proof j

/-- The polynomials of the mask: the concatenation, the grand sum at two points, the quotient. -/
def libraClaim (index : ℕ) : OpeningClaim Fr G where
  commitment :=
    match index with
    | 0 => parts.concatenation
    | 1 | 2 => parts.grandSum
    | _ => parts.quotient
  point := if index = 1 then subgroupGenerator * tp.geminiR else tp.geminiR
  value := libraEvaluation proof index

def libraPower : ℕ := 2 * constProofSizeLogN + 2

def openingClaim (e : ℕ) : OpeningClaim Fr G :=
  if libraPower ≤ e then libraClaim proof tp parts (e - libraPower)
  else if e % 2 = 0 then positiveClaim proof tp logN parts (e / 2)
  else negativeClaim proof tp parts (e / 2)

def claimPowers : Finset ℕ := Finset.range (2 * logN) ∪ Finset.Ico libraPower (libraPower + 4)

end Claims

end Zicket.Verifier
