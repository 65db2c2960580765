import Mathlib.Tactic.LinearCombination
import Zicket.Foundation.UnityLagrange
import Zicket.Verifier.Transcript

/-! The consistency check of the Libra evaluations. The powers of the challenges are laid out over
the subgroup, and the polynomial through them is never formed: its value is a sum over inverted
denominators. -/

namespace Zicket.Verifier

open Host Foundation

def subgroupSize : ℕ := 256

def subgroupGeneratorBytes : BytesN 32 := #v[
  0x07, 0xb0, 0xc5, 0x61, 0xa6, 0x14, 0x84, 0x04, 0xf0, 0x86, 0x20, 0x4a, 0x9f, 0x36, 0xff, 0xb0,
  0x61, 0x79, 0x42, 0x54, 0x67, 0x50, 0xf2, 0x30, 0xc8, 0x93, 0x61, 0x91, 0x74, 0xa5, 0x7a, 0x76]

def subgroupGeneratorInverseBytes : BytesN 32 := #v[
  0x20, 0x4b, 0xd3, 0x27, 0x74, 0x22, 0xfa, 0xd3, 0x64, 0x75, 0x1a, 0xd9, 0x38, 0xe2, 0xb5, 0xe6,
  0xa5, 0x4c, 0xf8, 0xc6, 0x87, 0x12, 0x84, 0x8a, 0x69, 0x2c, 0x55, 0x3d, 0x03, 0x29, 0xf5, 0xd6]

def subgroupGenerator : Fr := Fr.fromArray subgroupGeneratorBytes

def subgroupGeneratorInverse : Fr := Fr.fromArray subgroupGeneratorInverseBytes

/-- The powers of one challenge: a one at `current`, and `count` products behind it. -/
def fillPowers (challenge : Fr) (current : ℕ) : (count : ℕ) → List Fr → List Fr
  | 0, lagrange => lagrange.set current 1
  | count + 1, lagrange =>
    let lagrange := fillPowers challenge current count lagrange
    let index := current + 1 + count
    lagrange.set index (lagrange.getD (index - 1) 0 * challenge)

def fillRounds (challenges : Vector Fr constProofSizeLogN) : (rounds : ℕ) → List Fr → List Fr
  | 0, lagrange => lagrange
  | round + 1, lagrange =>
    fillPowers (challenges.toList.getD round 0) (1 + batchedRelationPartialLength * round)
      (batchedRelationPartialLength - 1) (fillRounds challenges round lagrange)

def challengeLagrange (challenges : Vector Fr constProofSizeLogN) : List Fr :=
  fillRounds challenges constProofSizeLogN ((List.replicate subgroupSize 0).set 0 1)

/-- The loop over the denominators, with the power of the inverse root it carries. -/
def libraDenominators (geminiR : Fr) : (count : ℕ) → (rootPower : Fr) → List Fr
  | 0, _ => []
  | count + 1, rootPower =>
    (rootPower * geminiR - 1) ::
      libraDenominators geminiR count (rootPower * subgroupGeneratorInverse)

/-- `map_err`: a failure takes the given text. -/
def withText {α : Type} (text : String) : Checked α → Checked α
  | .error (.error _) => .error (.error text)
  | result => result

def libraEvaluation (proof : Proof) (j : ℕ) : Fr := proof.libraPolynomialEvaluations.toList.getD j 0

def checkLibraEvaluationsConsistency (proof : Proof) (tp : Transcript) : Checked Unit := do
  let vanishingEvaluation := tp.geminiR ^ subgroupSize - 1
  ensure (vanishingEvaluation.isZero = false)
    (.error "gemini challenge is in the Libra subgroup")
  let lagrange := challengeLagrange tp.sumcheckUChallenges
  let denominators := libraDenominators tp.geminiR subgroupSize 1
  let denominatorInverses ←
    withText "Libra denominator is zero" (batchInverse denominators (List.replicate subgroupSize 0))
  let challengeEvaluation := (lagrange.zip denominatorInverses).foldl
    (fun evaluation (lagrange, denominator) => evaluation + lagrange * denominator) 0
  let numerator := vanishingEvaluation * (Fr.fromU64 subgroupSize)⁻¹
  let challengeEvaluation := challengeEvaluation * numerator
  let lagrangeFirst := denominatorInverses.getD 0 0 * numerator
  let lagrangeLast := denominatorInverses.getD (subgroupSize - 1) 0 * numerator
  let difference := lagrangeFirst * libraEvaluation proof 2 +
    (tp.geminiR - subgroupGeneratorInverse) *
      (libraEvaluation proof 1 - libraEvaluation proof 2 -
        libraEvaluation proof 0 * challengeEvaluation) +
    lagrangeLast * (libraEvaluation proof 2 - proof.libraClaimedEvaluation) -
    vanishingEvaluation * libraEvaluation proof 3
  ensure (difference.isZero = true) (.error "Libra evaluations are inconsistent")

section Constants

theorem subgroupGenerator_eq : subgroupGenerator =
    (0x07b0c561a6148404f086204a9f36ffb0617942546750f230c893619174a57a76 : ℕ) :=
  congrArg Nat.cast (by decide : ofBigEndian subgroupGeneratorBytes.toList = _)

theorem subgroupGeneratorInverse_eq : subgroupGeneratorInverse =
    (0x204bd3277422fad364751ad938e2b5e6a54cf8c68712848a692c553d0329f5d6 : ℕ) :=
  congrArg Nat.cast (by decide : ofBigEndian subgroupGeneratorInverseBytes.toList = _)

theorem subgroupGenerator_mul_inverse : subgroupGenerator * subgroupGeneratorInverse = 1 := by
  rw [subgroupGenerator_eq, subgroupGeneratorInverse_eq, ← Nat.cast_mul, ← Nat.cast_one,
    ZMod.natCast_eq_natCast_iff]
  decide

theorem subgroupGeneratorInverse_eq_inv : subgroupGeneratorInverse = subgroupGenerator⁻¹ :=
  eq_inv_of_mul_eq_one_right subgroupGenerator_mul_inverse

theorem subgroupGenerator_pow_half : subgroupGenerator ^ 2 ^ 7 = -1 := by
  rw [subgroupGenerator_eq, eq_neg_iff_add_eq_zero, ← Nat.cast_pow, ← Nat.cast_succ,
    ← Nat.cast_zero, ZMod.natCast_eq_natCast_iff]
  decide

theorem natCast_ne_zero_fr {n : ℕ} (positive : 0 < n) (less : n < modulus) : (n : Fr) ≠ 0 := by
  intro zero
  have divides := (ZMod.natCast_eq_zero_iff n modulus).mp zero
  exact Nat.not_le.mpr less (Nat.le_of_dvd positive divides)

theorem two_ne_zero_fr : (2 : Fr) ≠ 0 := natCast_ne_zero_fr two_pos (by decide)

theorem isPrimitiveRoot_subgroupGenerator : IsPrimitiveRoot subgroupGenerator subgroupSize := by
  have half : ¬ subgroupGenerator ^ 2 ^ 7 = 1 := by
    rw [subgroupGenerator_pow_half]
    intro same
    exact two_ne_zero_fr (by linear_combination -same)
  have full : subgroupGenerator ^ 2 ^ (7 + 1) = 1 := by
    rw [pow_succ 2 7, pow_mul, subgroupGenerator_pow_half]
    norm_num
  exact IsPrimitiveRoot.iff_orderOf.mpr (orderOf_eq_prime_pow half full)

end Constants

section Filling

variable {challenge : Fr} {challenges : Vector Fr constProofSizeLogN} {lagrange : List Fr}

theorem toList_getD {k : ℕ} (less : k < constProofSizeLogN) :
    challenges.toList.getD k 0 = challenges[k] := by
  simp [List.getD_eq_getElem?_getD, less]

@[simp] theorem fillPowers_length (current count : ℕ) :
    (fillPowers challenge current count lagrange).length = lagrange.length := by
  induction count with
  | zero => simp [fillPowers]
  | succ count ih => simp [fillPowers, ih]

@[simp] theorem fillRounds_length (rounds : ℕ) :
    (fillRounds challenges rounds lagrange).length = lagrange.length := by
  induction rounds with
  | zero => rfl
  | succ rounds ih => rw [fillRounds, fillPowers_length, ih]

theorem fillPowers_getD {current count : ℕ} (within : current + count < lagrange.length) (j : ℕ) :
    (fillPowers challenge current count lagrange).getD j 0 =
      if current ≤ j ∧ j ≤ current + count then challenge ^ (j - current)
      else lagrange.getD j 0 := by
  induction count generalizing j with
  | zero =>
    rw [fillPowers, getD_set]
    by_cases here : current = j
    · subst here
      rw [if_pos ⟨rfl, within⟩, if_pos ⟨le_rfl, le_rfl⟩, Nat.sub_self, pow_zero]
    · rw [if_neg (by omega), if_neg (by omega)]
  | succ count ih =>
    rw [fillPowers, getD_set, ih (by omega), ih (by omega), fillPowers_length]
    by_cases here : current + 1 + count = j
    · subst here
      rw [if_pos ⟨rfl, by omega⟩, if_pos ⟨by omega, by omega⟩, if_pos ⟨by omega, by omega⟩,
        ← pow_succ]
      congr 1
      omega
    · rw [if_neg (by omega)]
      by_cases inside : current ≤ j ∧ j ≤ current + count
      · rw [if_pos inside, if_pos ⟨inside.1, by omega⟩]
      · rw [if_neg inside, if_neg (by omega)]

theorem fillRounds_getD {rounds : ℕ} (within : 9 * rounds < lagrange.length) (j : ℕ) :
    (fillRounds challenges rounds lagrange).getD j 0 =
      if 1 ≤ j ∧ j ≤ 9 * rounds then challenges.toList.getD ((j - 1) / 9) 0 ^ ((j - 1) % 9)
      else lagrange.getD j 0 := by
  induction rounds with
  | zero =>
    rw [fillRounds, if_neg (by omega)]
  | succ round ih =>
    rw [fillRounds, fillPowers_getD (by rw [fillRounds_length, batchedRelationPartialLength]; omega),
      ih (by omega), batchedRelationPartialLength]
    by_cases row : 1 + 9 * round ≤ j ∧ j ≤ 1 + 9 * round + (9 - 1)
    · have quotient : (j - 1) / 9 = round := by omega
      have remainder : (j - 1) % 9 = j - (1 + 9 * round) := by omega
      rw [if_pos row, if_pos (by omega), quotient, remainder]
    · rw [if_neg row]
      by_cases before : 1 ≤ j ∧ j ≤ 9 * round
      · rw [if_pos before, if_pos (by omega)]
      · rw [if_neg before, if_neg (by omega)]

@[simp] theorem challengeLagrange_length :
    (challengeLagrange challenges).length = subgroupSize := by
  simp [challengeLagrange]

theorem challengeLagrange_getD (j : ℕ) : (challengeLagrange challenges).getD j 0 =
    if 1 ≤ j ∧ j ≤ 252 then challenges.toList.getD ((j - 1) / 9) 0 ^ ((j - 1) % 9)
    else if j = 0 then 1 else 0 := by
  have within : 9 * constProofSizeLogN < ((List.replicate subgroupSize (0 : Fr)).set 0 1).length := by
    rw [List.length_set, List.length_replicate]
    decide
  rw [challengeLagrange, fillRounds_getD within, getD_set, getD_replicate_zero,
    List.length_replicate]
  congr 1
  by_cases first : j = 0
  · subst first
    rfl
  · rw [if_neg (fun found => first found.1.symm), if_neg first]

end Filling

section Checking

@[simp] theorem isZero_eq_true {x : Fr} : x.isZero = true ↔ x = 0 := decide_eq_true_iff

@[simp] theorem isZero_eq_false {x : Fr} : x.isZero = false ↔ x ≠ 0 := decide_eq_false_iff_not

@[simp] theorem withText_ok {α : Type} (text : String) (a : α) :
    withText text (.ok a) = .ok a := rfl

end Checking

section Denominators

variable {geminiR : Fr}

theorem libraDenominators_eq (count : ℕ) (rootPower : Fr) :
    libraDenominators geminiR count rootPower = (List.range count).map fun i =>
      rootPower * subgroupGeneratorInverse ^ i * geminiR - 1 := by
  induction count generalizing rootPower with
  | zero => rfl
  | succ count ih =>
    rw [libraDenominators, ih, List.range_succ_eq_map, List.map_cons, List.map_map]
    refine congrArg₂ List.cons (by ring) (List.map_congr_left fun i _ => ?_)
    rw [Function.comp_apply, pow_succ']
    ring

theorem foldl_zip_eq_sum {as bs : List Fr} {n : ℕ} (left : as.length = n) (right : bs.length = n)
    (start : Fr) : (as.zip bs).foldl (fun sum (a, b) => sum + a * b) start =
      start + ∑ i ∈ Finset.range n, as.getD i 0 * bs.getD i 0 := by
  subst left
  induction as generalizing bs start with
  | nil => simp
  | cons a as ih =>
    cases bs with
    | nil => cases right
    | cons b bs =>
      rw [List.zip_cons_cons, List.foldl_cons, ih _ (Nat.succ.inj right), List.length_cons,
        Finset.sum_range_succ']
      simp only [List.getD_cons_succ, List.getD_cons_zero]
      ring

theorem batchInverse_libraDenominators
    (outside : ∀ i < subgroupSize, geminiR ≠ subgroupGenerator ^ i) :
    batchInverse (libraDenominators geminiR subgroupSize 1) (List.replicate subgroupSize 0) =
      .ok ((List.range subgroupSize).map fun i => (subgroupGenerator⁻¹ ^ i * geminiR - 1)⁻¹) := by
  have root : subgroupGenerator ≠ 0 := isPrimitiveRoot_subgroupGenerator.ne_zero (by decide)
  have nonzero : 0 ∉ libraDenominators geminiR subgroupSize 1 := by
    rw [libraDenominators_eq, subgroupGeneratorInverse_eq_inv]
    intro mem
    obtain ⟨i, less, zero⟩ := List.mem_map.mp mem
    refine outside i (List.mem_range.mp less) ?_
    rw [one_mul, sub_eq_zero, inv_pow] at zero
    exact ((inv_mul_eq_one₀ (pow_ne_zero i root)).mp zero).symm
  rw [batchInverse_eq (by simp [libraDenominators_eq]), if_neg nonzero, libraDenominators_eq,
    subgroupGeneratorInverse_eq_inv, List.map_map]
  simp only [one_mul]
  rfl

end Denominators

end Zicket.Verifier
