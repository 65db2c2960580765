import Mathlib.Data.Nat.Digits.Defs

/-! Bytes as big-endian numbers: `ofBigEndian` reads them and `toBigEndian` writes a number into a
given width. Two byte strings of one length that are read alike are equal. -/

namespace Zicket.Foundation

def ofBigEndian (bytes : List UInt8) : ℕ := Nat.ofDigits 256 (bytes.map UInt8.toNat).reverse

def toBigEndian : (width : ℕ) → ℕ → List UInt8
  | 0, _ => []
  | width + 1, value => toBigEndian width (value / 256) ++ [UInt8.ofNat value]

theorem digit_lt {bytes : List UInt8} :
    ∀ digit ∈ (bytes.map UInt8.toNat).reverse, digit < 256 := by
  intro digit mem
  obtain ⟨byte, -, rfl⟩ := List.mem_map.mp (List.mem_reverse.mp mem)
  exact byte.toNat_lt

theorem ofBigEndian_lt (bytes : List UInt8) : ofBigEndian bytes < 256 ^ bytes.length := by
  simpa [ofBigEndian] using Nat.ofDigits_lt_base_pow_length (by norm_num) (@digit_lt bytes)

theorem ofBigEndian_append (high low : List UInt8) :
    ofBigEndian (high ++ low) = ofBigEndian low + 256 ^ low.length * ofBigEndian high := by
  simp [ofBigEndian, Nat.ofDigits_append]

@[simp] theorem ofBigEndian_singleton (byte : UInt8) : ofBigEndian [byte] = byte.toNat := by
  simp [ofBigEndian]

theorem ofBigEndian_replicate_zero (count : ℕ) :
    ofBigEndian (List.replicate count 0) = 0 := by
  rw [ofBigEndian, List.map_replicate, List.reverse_replicate]
  exact Nat.ofDigits_replicate_zero

theorem ofBigEndian_zeros_append (count : ℕ) (bytes : List UInt8) :
    ofBigEndian (List.replicate count 0 ++ bytes) = ofBigEndian bytes := by
  rw [ofBigEndian_append, ofBigEndian_replicate_zero, Nat.mul_zero, Nat.add_zero]

theorem ofBigEndian_inj {a b : List UInt8} (lengths : a.length = b.length)
    (same : ofBigEndian a = ofBigEndian b) : a = b := by
  have digits : (a.map UInt8.toNat).reverse = (b.map UInt8.toNat).reverse :=
    Nat.ofDigits_inj_of_len_eq (by norm_num) (by simpa using lengths) digit_lt digit_lt same
  exact (List.map_inj_right fun _ _ => UInt8.toNat.inj).mp (List.reverse_inj.mp digits)

@[simp] theorem toBigEndian_length (width value : ℕ) :
    (toBigEndian width value).length = width := by
  induction width generalizing value with
  | zero => rfl
  | succ width ih => simp [toBigEndian, ih]

theorem ofBigEndian_toBigEndian {width value : ℕ} (fits : value < 256 ^ width) :
    ofBigEndian (toBigEndian width value) = value := by
  induction width generalizing value with
  | zero =>
    have : value = 0 := by simpa using fits
    simp [toBigEndian, ofBigEndian, this]
  | succ width ih =>
    have upper : value / 256 < 256 ^ width := by
      rw [Nat.div_lt_iff_lt_mul (by norm_num), ← pow_succ]
      exact fits
    rw [toBigEndian, ofBigEndian_append, ih upper, ofBigEndian_singleton, List.length_singleton,
      pow_one, UInt8.toNat_ofNat']
    exact Nat.mod_add_div value 256

end Zicket.Foundation
