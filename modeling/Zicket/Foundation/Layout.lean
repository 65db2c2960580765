import Mathlib.Data.List.Basic

/-! Byte strings made of parts of one width. They are read part by part; a string that is written
back part by part is the same exactly when every part is. -/

namespace Zicket.Foundation

variable {α κ : Type} {width : ℕ}

theorem flatMap_inj_of_width {encode : α → List UInt8} (encode_inj : Function.Injective encode)
    (lengths : ∀ a, (encode a).length = width) {as bs : List α} (counts : as.length = bs.length)
    (same : as.flatMap encode = bs.flatMap encode) : as = bs := by
  induction as generalizing bs with
  | nil => exact (List.length_eq_zero_iff.mp counts.symm).symm
  | cons a as ih =>
    cases bs with
    | nil => cases counts
    | cons b bs =>
      obtain ⟨first, rest⟩ := List.append_inj same (by rw [lengths, lengths])
      rw [encode_inj first, ih (Nat.succ.inj counts) rest]

theorem length_flatMap_of_width {encode : α → List UInt8} (lengths : ∀ a, (encode a).length = width)
    (as : List α) : (as.flatMap encode).length = as.length * width := by
  simp [List.length_flatMap, lengths]

variable (width) (rewrite : κ → List UInt8 → List UInt8)

/-- The parts of a string, each rewritten by its kind. -/
def rewriteParts : List κ → List UInt8 → List UInt8
  | [], _ => []
  | kind :: kinds, bytes =>
    rewrite kind (bytes.take width) ++ rewriteParts kinds (bytes.drop width)

def Fixed : List κ → List UInt8 → Prop
  | [], _ => True
  | kind :: kinds, bytes =>
    rewrite kind (bytes.take width) = bytes.take width ∧ Fixed kinds (bytes.drop width)

variable {width rewrite} {kinds more : List κ} {bytes : List UInt8}

theorem rewriteParts_append : rewriteParts width rewrite (kinds ++ more) bytes =
    rewriteParts width rewrite kinds bytes ++
      rewriteParts width rewrite more (bytes.drop (kinds.length * width)) := by
  induction kinds generalizing bytes with
  | nil => simp [rewriteParts]
  | cons kind kinds ih =>
    rw [List.cons_append, rewriteParts, rewriteParts, ih, List.append_assoc, List.drop_drop,
      List.length_cons, Nat.succ_mul, Nat.add_comm]

theorem rewriteParts_take {count : ℕ} (enough : kinds.length * width ≤ count) :
    rewriteParts width rewrite kinds (bytes.take count) =
      rewriteParts width rewrite kinds bytes := by
  induction kinds generalizing bytes count with
  | nil => rfl
  | cons kind kinds ih =>
    rw [List.length_cons, Nat.succ_mul] at enough
    rw [rewriteParts, rewriteParts, List.take_take, Nat.min_eq_left (by omega), List.drop_take,
      ih (by omega)]

theorem rewriteParts_flatMap {encode : α → List UInt8}
    (alone : ∀ a rest, rewriteParts width rewrite kinds (encode a ++ rest) = encode a)
    (lengths : ∀ a, (encode a).length = kinds.length * width) (as : List α) (rest : List UInt8) :
    rewriteParts width rewrite (List.replicate as.length kinds).flatten (as.flatMap encode ++ rest) =
      as.flatMap encode := by
  induction as with
  | nil => rfl
  | cons a as ih =>
    rw [List.length_cons, List.replicate_succ, List.flatten_cons, List.flatMap_cons,
      List.append_assoc, rewriteParts_append, alone, List.drop_left' (lengths a), ih]

theorem fixed_iff_getElem : Fixed width rewrite kinds bytes ↔
    ∀ i kind, kinds[i]? = some kind →
      rewrite kind ((bytes.drop (i * width)).take width) =
        (bytes.drop (i * width)).take width := by
  induction kinds generalizing bytes with
  | nil => simp [Fixed]
  | cons kind kinds ih =>
    rw [Fixed, ih]
    constructor
    · rintro ⟨first, rest⟩ i kind' found
      cases i with
      | zero =>
        obtain rfl := Option.some.inj found
        simpa using first
      | succ i =>
        have part := rest i kind' found
        rwa [List.drop_drop, Nat.add_comm, ← Nat.succ_mul] at part
    · intro all
      refine ⟨by simpa using all 0 kind rfl, fun i kind' found => ?_⟩
      have part := all (i + 1) kind' found
      rwa [Nat.succ_mul, Nat.add_comm, ← List.drop_drop] at part

/-- Written back part by part, a string of the right length is unchanged if every part is. -/
theorem rewriteParts_eq_self_iff
    (lengths : ∀ kind part, part.length = width → (rewrite kind part).length = width)
    (exact : bytes.length = kinds.length * width) :
    rewriteParts width rewrite kinds bytes = bytes ↔ Fixed width rewrite kinds bytes := by
  induction kinds generalizing bytes with
  | nil => simpa [rewriteParts, Fixed] using (List.length_eq_zero_iff.mp (by simpa using exact)).symm
  | cons kind kinds ih =>
    rw [List.length_cons, Nat.succ_mul] at exact
    have first : (bytes.take width).length = width := by simp; omega
    have rest := @ih (bytes.drop width) (by simp; omega)
    rw [rewriteParts, Fixed, ← rest]
    constructor
    · intro same
      refine List.append_inj ?_ ((lengths kind _ first).trans first.symm)
      rwa [List.take_append_drop]
    · rintro ⟨here, later⟩
      rw [here, later, List.take_append_drop]

end Zicket.Foundation
