import Zicket.Verifier.Contract

/-! Which public inputs are canonical, when the field elements of the SDK are residues: the words
below the modulus. Two of these that are different bytes are different residues. -/

namespace Zicket.Verifier

open Host Foundation

variable {proving : Proving} {word : BytesN 32}

/-- What the SDK documents: a word is reduced, and an element is written as its residue. -/
structure Proving.Reduces (proving : Proving) : Prop where
  fromBytes (word : BytesN 32) : proving.fromBytes word = (ofBigEndian word.toList : ZMod modulus)
  toBytes (x : ZMod modulus) : ofBigEndian (proving.toBytes x).toList = x.val

/-- The word is the one that encodes its field element. -/
def Proving.Canonical (proving : Proving) (word : BytesN 32) : Prop :=
  proving.toBytes (proving.fromBytes word) = word

instance (proving : Proving) (word : BytesN 32) : Decidable (proving.Canonical word) :=
  inferInstanceAs (Decidable (_ = _))

theorem word_inj {a b : BytesN 32} (same : ofBigEndian a.toList = ofBigEndian b.toList) :
    a = b := by
  refine Vector.toList_inj.mp (ofBigEndian_inj ?_ same)
  simp

theorem canonical_iff (reduces : proving.Reduces) :
    proving.Canonical word ↔ ofBigEndian word.toList < modulus := by
  have residue : ofBigEndian (proving.toBytes (proving.fromBytes word)).toList =
      ofBigEndian word.toList % modulus := by
    rw [reduces.toBytes, reduces.fromBytes, ZMod.val_natCast]
  constructor
  · intro canonical
    rw [← canonical, residue]
    exact Nat.mod_lt _ (NeZero.pos modulus)
  · intro small
    exact word_inj (residue.trans (Nat.mod_eq_of_lt small))

/-- Canonical words are different modulo the modulus as soon as they are different bytes. -/
theorem canonical_inj {a b : BytesN 32} (reduces : proving.Reduces) (ha : proving.Canonical a)
    (hb : proving.Canonical b)
    (same : ofBigEndian a.toList ≡ ofBigEndian b.toList [MOD modulus]) :
    a = b := by
  refine word_inj ?_
  rwa [Nat.ModEq, Nat.mod_eq_of_lt ((canonical_iff reduces).mp ha),
    Nat.mod_eq_of_lt ((canonical_iff reduces).mp hb)] at same

theorem slice32_append (before : Bytes) (word : BytesN 32) (after : Bytes) :
    slice32 (before ++ (word.toList ++ after)) before.length = .ok word := by
  have front : ((before ++ (word.toList ++ after)).drop before.length).take 32 = word.toList := by
    rw [List.drop_left, List.take_left' (by simp)]
  unfold slice32
  rw [dif_pos (by rw [front]; simp)]
  simp only [front, Vector.toArray_toList]

theorem wordsAreCanonical_flatten (before : Bytes) (words : List (BytesN 32)) :
    wordsAreCanonical proving (before ++ words.flatMap Vector.toList) before.length words.length =
      .ok (decide (∀ word ∈ words, proving.Canonical word)) := by
  induction words generalizing before with
  | nil => simp [wordsAreCanonical, pure, Except.pure]
  | cons word words ih =>
    have later := ih (before ++ word.toList)
    rw [List.append_assoc, List.length_append, Vector.length_toList] at later
    rw [List.flatMap_cons, List.length_cons, wordsAreCanonical, slice32_append]
    by_cases canonical : proving.Canonical word
    · change (if ¬ proving.Canonical word then _ else _) = _
      rw [if_neg (not_not.mpr canonical), later]
      simp [canonical]
    · change (if ¬ proving.Canonical word then _ else _) = _
      rw [if_pos canonical]
      simp [canonical, pure, Except.pure]

theorem publicInputsAreCanonical_flatten (words : List (BytesN 32)) :
    publicInputsAreCanonical proving (words.flatMap Vector.toList) =
      .ok (decide (∀ word ∈ words, proving.Canonical word)) := by
  have length : (words.flatMap Vector.toList).length = words.length * 32 := by
    simp [List.length_flatMap]
  have count : ((words.flatMap Vector.toList).length + 31) / 32 = words.length := by omega
  rw [publicInputsAreCanonical, count]
  exact wordsAreCanonical_flatten [] words

theorem verify_canonical {contract : AnonymousClaimVerifier} {proof : Bytes}
    {words : List (BytesN 32)}
    (accepted : contract.verify proof (words.flatMap Vector.toList) = some true) :
    ∀ word ∈ words, contract.Canonical word := by
  unfold AnonymousClaimVerifier.verify at accepted
  split at accepted
  · cases accepted
  · split at accepted
    · cases accepted
    · rename_i vk loaded
      cases result : vk.verify contract.toProving proof (words.flatMap Vector.toList) with
      | error failure => cases failure <;> simp [result] at accepted
      | ok _ =>
        simp only [VerificationKey.verify, bind_eq_ok, require_eq_ok] at result
        obtain ⟨-, -, -, -, -, -, -, -, canonical, found, -, rfl, -⟩ := result
        rw [publicInputsAreCanonical_flatten] at found
        simpa using found

end Zicket.Verifier
