import Mathlib.Algebra.BigOperators.Group.List.Lemmas
import Mathlib.Algebra.Field.ZMod
import Zicket.Verifier.Modulus

/-! The scalars of the proof system, and the inversion of many of them by one inverse: the prefix
products are stored where the inverses will be, and overwritten from the last to the first. -/

namespace Zicket.Verifier

open Host Foundation

/-- `Bn254Fr`: residues, which the host keeps reduced. -/
abbrev Fr := ZMod modulus

/-- What a function of the verifier returns; the text is its error. -/
abbrev Checked (α : Type) := Except (Failure String) α

namespace Fr

def fromU64 (x : ℕ) : Fr := x

def fromArray (value : BytesN 32) : Fr := ofBigEndian value.toList

def toBytes (x : Fr) : BytesN 32 := ⟨(toBigEndian 32 x.val).toArray, by simp⟩

theorem ofBigEndian_toBytes (x : Fr) : ofBigEndian x.toBytes.toList = x.val :=
  ofBigEndian_toBigEndian ((ZMod.val_lt x).trans (by decide))

@[simp] theorem fromArray_toBytes (x : Fr) : fromArray x.toBytes = x := by
  rw [fromArray, ofBigEndian_toBytes, ZMod.natCast_zmod_val]

def isZero (x : Fr) : Bool := x = 0

end Fr

/-- The first loop: `out[i]` becomes the product of the values up to `i`. -/
def prefixProducts (vals : List Fr) : ℕ → List Fr → List Fr
  | 0, out => out.set 0 (vals.getD 0 0)
  | i + 1, out =>
    let out := prefixProducts vals i out
    out.set (i + 1) (out.getD i 0 * vals.getD (i + 1) 0)

/-- The second loop, from `i` down. -/
def sweepBack (vals : List Fr) : ℕ → Fr → List Fr → List Fr
  | 0, invAcc, out => out.set 0 invAcc
  | i + 1, invAcc, out =>
    sweepBack vals i (invAcc * vals.getD (i + 1) 0) (out.set (i + 1) (invAcc * out.getD i 0))

def batchInverse (vals out : List Fr) : Checked (List Fr) := do
  let n := vals.length
  ensure (n = out.length) .trap
  if n = 0 then return out
  else do
    let out := prefixProducts vals (n - 1) out
    let total := out.getD (n - 1) 0
    ensure (total.isZero = false) (.error "denominator is zero")
    return sweepBack vals (n - 1) total⁻¹ out

section Inversion

variable {vals out : List Fr} {i j : ℕ}

theorem getD_set (a : Fr) : (out.set i a).getD j 0 = if i = j ∧ j < out.length then a else out.getD j 0 := by
  simp only [List.getD_eq_getElem?_getD, List.getElem?_set]
  by_cases same : i = j
  · subst same
    by_cases within : i < out.length
    · simp [within]
    · simp [within]
  · simp [same]

theorem getD_set_of_lt (within : i < out.length) (a : Fr) :
    (out.set i a).getD j 0 = if j = i then a else out.getD j 0 := by
  rw [getD_set]
  by_cases same : j = i
  · subst same
    rw [if_pos ⟨rfl, within⟩, if_pos rfl]
  · rw [if_neg (fun found => same found.1.symm), if_neg same]

theorem getD_replicate_zero (n : ℕ) : (List.replicate n (0 : Fr)).getD j 0 = 0 := by
  rw [List.getD_eq_getElem?_getD, List.getElem?_replicate]
  split <;> rfl

theorem ext_getD {a b : List Fr} (lengths : a.length = b.length)
    (same : ∀ j < a.length, a.getD j 0 = b.getD j 0) : a = b := by
  refine List.ext_getElem lengths fun j left right => ?_
  have entry := same j left
  rwa [List.getD_eq_getElem?_getD, List.getD_eq_getElem?_getD, List.getElem?_eq_getElem left,
    List.getElem?_eq_getElem right] at entry

@[simp] theorem prefixProducts_length (i : ℕ) : (prefixProducts vals i out).length = out.length := by
  induction i with
  | zero => simp [prefixProducts]
  | succ i ih => simp [prefixProducts, ih]

@[simp] theorem sweepBack_length (i : ℕ) (invAcc : Fr) (out : List Fr) :
    (sweepBack vals i invAcc out).length = out.length := by
  induction i generalizing invAcc out with
  | zero => simp [sweepBack]
  | succ i ih => simp [sweepBack, ih]

theorem take_succ_prod (i : ℕ) (within : i < vals.length) :
    (vals.take (i + 1)).prod = (vals.take i).prod * vals.getD i 0 := by
  rw [List.take_add_one, List.prod_append, List.getD_eq_getElem?_getD,
    List.getElem?_eq_getElem within]
  simp

/-- Up to the position reached, the prefix products are stored. -/
theorem prefixProducts_getD (vals_within : i < vals.length) (out_within : i < out.length)
    (le : j ≤ i) : (prefixProducts vals i out).getD j 0 = (vals.take (j + 1)).prod := by
  induction i generalizing j with
  | zero =>
    obtain rfl := Nat.le_zero.mp le
    rw [prefixProducts, getD_set, if_pos ⟨rfl, out_within⟩, take_succ_prod 0 vals_within]
    simp
  | succ i ih =>
    rw [prefixProducts, getD_set, prefixProducts_length]
    split
    · rename_i here
      obtain rfl := here.1
      rw [ih (by omega) (by omega) le_rfl, ← take_succ_prod (i + 1) vals_within]
    · exact ih (by omega) (by omega) (by omega)

/-- Before position `i` is overwritten, what is accumulated inverts the product up to it. -/
theorem sweepBack_getD (nonzero : (vals.take (i + 1)).prod ≠ 0) (vals_within : i < vals.length)
    (out_within : i < out.length)
    (stored : ∀ k < i, out.getD k 0 = (vals.take (k + 1)).prod) (j : ℕ) :
    (sweepBack vals i (vals.take (i + 1)).prod⁻¹ out).getD j 0 =
      if j ≤ i then (vals.getD j 0)⁻¹ else out.getD j 0 := by
  induction i generalizing out with
  | zero =>
    rw [sweepBack, getD_set]
    by_cases here : j = 0
    · subst here
      rw [if_pos ⟨rfl, out_within⟩, if_pos le_rfl, take_succ_prod 0 vals_within]
      simp
    · rw [if_neg (by omega), if_neg (by omega)]
  | succ i ih =>
    have product := take_succ_prod (i + 1) vals_within
    rw [product] at nonzero
    have last : vals.getD (i + 1) 0 ≠ 0 := right_ne_zero_of_mul nonzero
    have before : (vals.take (i + 1)).prod ≠ 0 := left_ne_zero_of_mul nonzero
    have acc : (vals.take (i + 1 + 1)).prod⁻¹ * vals.getD (i + 1) 0 =
        (vals.take (i + 1)).prod⁻¹ := by
      rw [product, mul_inv, inv_mul_cancel_right₀ last]
    have inverse : (vals.take (i + 1 + 1)).prod⁻¹ * out.getD i 0 = (vals.getD (i + 1) 0)⁻¹ := by
      rw [stored i (Nat.lt_succ_self i), product, mul_inv, mul_comm, mul_inv_cancel_left₀ before]
    rw [sweepBack, acc, inverse]
    rw [ih before (by omega) (by simpa using Nat.lt_of_succ_lt out_within) fun k less => ?_]
    · by_cases le : j ≤ i
      · rw [if_pos le, if_pos (by omega)]
      · rw [if_neg le, getD_set]
        by_cases here : j = i + 1
        · subst here
          rw [if_pos ⟨rfl, out_within⟩, if_pos le_rfl]
        · rw [if_neg fun found => here found.1.symm, if_neg (by omega)]
    · rw [getD_set, if_neg (by omega)]
      exact stored k (by omega)

theorem batchInverse_eq (same : vals.length = out.length) :
    batchInverse vals out = if 0 ∈ vals then .error (.error "denominator is zero")
      else .ok (vals.map (·⁻¹)) := by
  have lengths : (ensure (vals.length = out.length) .trap : Checked Unit) = .ok () :=
    ensure_eq_ok.mpr same
  unfold batchInverse
  simp only [lengths]
  by_cases empty : vals.length = 0
  · obtain rfl := List.length_eq_zero_iff.mp empty
    obtain rfl := List.length_eq_zero_iff.mp (same.symm.trans empty)
    rfl
  · have total : (prefixProducts vals (vals.length - 1) out).getD (vals.length - 1) 0 =
        vals.prod := by
      rw [prefixProducts_getD (by omega) (by omega) le_rfl, Nat.sub_add_cancel (by omega),
        List.take_length]
    change (if vals.length = 0 then _ else _) = _
    rw [if_neg empty]
    simp only [total]
    by_cases zero : 0 ∈ vals
    · have product : vals.prod.isZero = true := decide_eq_true (List.prod_eq_zero zero)
      rw [if_pos zero, product]
      rfl
    · have nonzero : vals.prod ≠ 0 := List.prod_ne_zero zero
      have product : vals.prod.isZero = false := decide_eq_false nonzero
      rw [if_neg zero, product]
      refine congrArg Except.ok (ext_getD (by simp [same]) fun j within => ?_)
      rw [sweepBack_length, prefixProducts_length, ← same] at within
      have last : vals.prod = (vals.take (vals.length - 1 + 1)).prod := by
        rw [Nat.sub_add_cancel (by omega), List.take_length]
      have stored (k : ℕ) (less : k < vals.length - 1) :
          (prefixProducts vals (vals.length - 1) out).getD k 0 = (vals.take (k + 1)).prod :=
        prefixProducts_getD (by omega) (by omega) (by omega)
      have inverse : (vals.map (·⁻¹)).getD j 0 = (vals.getD j 0)⁻¹ := by
        simp [List.getD_eq_getElem?_getD, within]
      rw [last] at nonzero ⊢
      rw [sweepBack_getD nonzero (by omega) (by simp [← same]; omega) stored, if_pos (by omega),
        inverse]

end Inversion

end Zicket.Verifier
