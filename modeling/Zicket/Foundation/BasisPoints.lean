import Zicket.Foundation.Tally

/-! Shares in basis points, rounded towards zero. Of a non-negative amount a share is a
floor, so the shares of the parts never exceed the share of the whole. -/

namespace Zicket.Foundation

def bpsOf (amount : ℤ) (bps : ℕ) : ℤ := (amount * bps).tdiv 10000

theorem bpsOf_eq_ediv {amount : ℤ} (h : 0 ≤ amount) (bps : ℕ) :
    bpsOf amount bps = amount * bps / 10000 :=
  Int.tdiv_eq_ediv_of_nonneg (mul_nonneg h (Int.natCast_nonneg bps))

theorem bpsOf_nonneg {amount : ℤ} (h : 0 ≤ amount) (bps : ℕ) : 0 ≤ bpsOf amount bps := by
  rw [bpsOf_eq_ediv h]
  exact Int.ediv_nonneg (mul_nonneg h (Int.natCast_nonneg bps)) (by norm_num)

@[simp] theorem bpsOf_full (amount : ℤ) : bpsOf amount 10000 = amount := by
  unfold bpsOf
  exact Int.mul_tdiv_cancel amount (by norm_num)

@[simp] theorem bpsOf_zero (amount : ℤ) : bpsOf amount 0 = 0 := by
  simp [bpsOf]

theorem bpsOf_add_complement_le {amount : ℤ} (h : 0 ≤ amount) {bps : ℕ} (le : bps ≤ 10000) :
    bpsOf amount bps + bpsOf amount (10000 - bps) ≤ amount := by
  rw [bpsOf_eq_ediv h, bpsOf_eq_ediv h]
  have split : amount * bps + amount * (10000 - bps : ℕ) = amount * 10000 := by
    rw [← mul_add]
    congr 1
    push_cast [le]
    ring
  omega

theorem bpsOf_le {amount : ℤ} (h : 0 ≤ amount) {bps : ℕ} (le : bps ≤ 10000) :
    bpsOf amount bps ≤ amount := by
  have := bpsOf_add_complement_le h le
  have := bpsOf_nonneg h (10000 - bps)
  omega

theorem bpsOf_lt {amount : ℤ} (h : 0 < amount) {bps : ℕ} (lt : bps < 10000) :
    bpsOf amount bps < amount := by
  rw [bpsOf_eq_ediv h.le]
  have product : amount * bps ≤ amount * 9999 := by
    gcongr
    exact_mod_cast Nat.le_of_lt_succ lt
  omega

theorem bpsOf_add_le {x y : ℤ} (hx : 0 ≤ x) (hy : 0 ≤ y) (bps : ℕ) :
    bpsOf x bps + bpsOf y bps ≤ bpsOf (x + y) bps := by
  rw [bpsOf_eq_ediv hx, bpsOf_eq_ediv hy, bpsOf_eq_ediv (by omega), add_mul]
  omega

theorem sum_bpsOf_le {amount : ℤ} (h : 0 ≤ amount) (rates : List ℕ) :
    (rates.map (bpsOf amount)).sum ≤ bpsOf amount rates.sum := by
  induction rates with
  | nil => simp
  | cons rate rates ih =>
    have split : amount * ((rate + rates.sum : ℕ) : ℤ) = amount * rate + amount * rates.sum := by
      push_cast
      ring
    rw [List.map_cons, List.sum_cons, List.sum_cons]
    rw [bpsOf_eq_ediv h rates.sum] at ih
    rw [bpsOf_eq_ediv h rate, bpsOf_eq_ediv h (rate + rates.sum), split]
    omega

theorem bpsOf_mono_rate {amount : ℤ} (h : 0 ≤ amount) {rate rate' : ℕ} (le : rate ≤ rate') :
    bpsOf amount rate ≤ bpsOf amount rate' := by
  rw [bpsOf_eq_ediv h, bpsOf_eq_ediv h]
  have := mul_le_mul_of_nonneg_left (Int.ofNat_le.mpr le) h
  omega

section Parts

variable {amounts : List ℤ} (nonneg : ∀ amount ∈ amounts, 0 ≤ amount)

include nonneg

theorem sum_map_bpsOf_le (bps : ℕ) : (amounts.map (bpsOf · bps)).sum ≤ bpsOf amounts.sum bps := by
  induction amounts with
  | nil => exact bpsOf_nonneg le_rfl bps
  | cons amount amounts ih =>
    rw [List.forall_mem_cons] at nonneg
    rw [List.map_cons, List.sum_cons, List.sum_cons]
    exact (Int.add_le_add_left (ih nonneg.2) _).trans
      (bpsOf_add_le nonneg.1 (List.sum_nonneg nonneg.2) bps)

/-- Each part loses less than one unit to rounding. -/
theorem mul_le_sum_map_bpsOf (bps : ℕ) :
    amounts.sum * bps ≤ 10000 * (amounts.map (bpsOf · bps)).sum + 9999 * amounts.length := by
  induction amounts with
  | nil => simp
  | cons amount amounts ih =>
    rw [List.forall_mem_cons] at nonneg
    have rest := ih nonneg.2
    have first := Int.mul_ediv_add_emod (amount * bps) 10000
    have below := Int.emod_lt_of_pos (amount * bps) (show (0 : ℤ) < 10000 by norm_num)
    rw [List.map_cons, List.sum_cons, List.sum_cons, List.length_cons, add_mul,
      bpsOf_eq_ediv nonneg.1]
    push_cast
    omega

/-- A rate of the whole and the complementary rate of each part: together at most the whole,
and short of it by less than a unit for each of them. -/
theorem bpsOf_add_parts {bps : ℕ} (le : bps ≤ 10000) :
    let paid := bpsOf amounts.sum bps + (amounts.map (bpsOf · (10000 - bps))).sum
    paid ≤ amounts.sum ∧ amounts.sum < paid + (amounts.length + 1) := by
  have total : 0 ≤ amounts.sum := List.sum_nonneg nonneg
  have whole := bpsOf_add_complement_le total le
  have parts := sum_map_bpsOf_le nonneg (10000 - bps)
  have dust := mul_le_sum_map_bpsOf nonneg (10000 - bps)
  have pool := mul_le_sum_map_bpsOf (List.forall_mem_singleton.mpr total) bps
  have split : amounts.sum * bps + amounts.sum * (10000 - bps : ℕ) = amounts.sum * 10000 := by
    rw [← mul_add]
    congr 1
    push_cast [le]
    ring
  simp only [List.sum_singleton, List.map_singleton, List.length_singleton] at pool
  push_cast at pool
  constructor
  · omega
  · omega

end Parts

theorem tableSum_bpsOf_le {α : Type} (n : ℕ) (table : ℕ → Option α) (f : α → ℤ) (bps : ℕ)
    (nonneg : ∀ k a, table k = some a → 0 ≤ f a) :
    tableSum n table (fun a => bpsOf (f a) bps) ≤ bpsOf (tableSum n table f) bps := by
  induction n with
  | zero => simp [tableSum, bpsOf]
  | succ n ih =>
    have total : 0 ≤ tableSum n table f := tableSum_nonneg nonneg
    unfold tableSum at ih total ⊢
    rw [Finset.sum_range_succ, Finset.sum_range_succ]
    cases h : table (n + 1) with
    | none => simpa using ih
    | some a =>
      have := bpsOf_add_le total (nonneg _ a h) bps
      simp only [Option.elim_some]
      omega

end Zicket.Foundation
