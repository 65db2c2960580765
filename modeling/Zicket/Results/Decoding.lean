import Zicket.Verifier.Honk

/-! When a proof that is read from bytes is written back as these bytes: every scalar below the
modulus, and no padding set in a limb. The decoder checks neither. -/

namespace Zicket.Verifier

open Host Foundation

def Word.Canonical : Word → Bytes → Prop
  | .scalar, word => ofBigEndian word < modulus
  | .low, word => word.take 15 = List.replicate 15 0
  | .high, word => word.take 17 = List.replicate 17 0

def CanonicalProof (bytes : Bytes) : Prop :=
  ∀ (i : ℕ) (kind : Word), proofLayout[i]? = some kind → kind.Canonical (wordAt 32 bytes i)

def Statement.absorbedProof (s : Statement) : Bytes :=
  pushScalars s.proof.pairingPointObject ++ pushPoints [s.proof.w1, s.proof.w2, s.proof.w3] ++
    ((Round.upTo .shplonkZ).flatMap s.blocks).flatten

section Words

variable {word bytes : Bytes} {proof : Proof}

theorem padding_iff {width : ℕ} : List.replicate width 0 ++ word.drop width = word ↔
    word.take width = List.replicate width 0 := by
  constructor
  · intro same
    rw [← same, List.take_left' (by simp)]
  · intro padding
    rw [← padding, List.take_append_drop]

theorem rewrite_eq_self_iff {kind : Word} (exact : word.length = 32) :
    kind.rewrite word = word ↔ kind.Canonical word := by
  cases kind with
  | scalar =>
    have array := toArray_toList exact
    have reads := @canonical_iff _ (toArray 32 word) (fr_reduces fun _ _ _ => .ok ())
    rw [array] at reads
    rw [Word.Canonical, ← reads, Proving.Canonical, ← Vector.toList_inj, array]
    rfl
  | low => exact padding_iff
  | high => exact padding_iff

theorem toBytes_eq_iff (loaded : loadProof bytes = .ok proof) :
    proof.toBytes = bytes ↔ CanonicalProof bytes := by
  have layout : bytes.length = proofLayout.length * 32 := by
    rw [length_of_loadProof loaded, proofLayout_length, proofBytes]
  rw [toBytes_loadProof loaded, rewriteParts_eq_self_iff Word.rewrite_length layout, fixed_iff_getElem]
  refine forall_congr' fun i => forall_congr' fun kind => forall_congr' fun found => ?_
  have within := (List.getElem?_eq_some_iff.mp found).1
  refine rewrite_eq_self_iff ?_
  rw [List.length_take, List.length_drop]
  omega

/-- The bytes of a proof are what the transcript absorbs, and the quotient. -/
theorem toBytes_eq_absorbed (s : Statement) :
    s.proof.toBytes = s.absorbedProof ++ pushPoint s.proof.kzgQuotient := by
  have flat : (s.proof.sumcheckUnivariates.toList.map pushScalars).flatten =
      s.proof.sumcheckUnivariates.toList.flatMap pushScalars := rfl
  rw [Statement.absorbedProof, Round.upTo, List.flatMap_append, List.flatMap_append,
    s.sumchecks_blocks, List.flatten_append, List.flatten_append, flat, Proof.toBytes]
  -- the duplex steps absorb nothing
  simp only [Statement.blocks, Proof.libraBlock, Proof.rhoBlock, Proof.geminiBlock,
    Proof.nuBlock, pushPoints, List.flatMap_cons, List.flatMap_nil, List.flatten_cons,
    List.flatten_nil, List.flatten_replicate_nil, List.append_assoc, List.append_nil,
    List.nil_append, List.flatten_append, List.cons_append]

/-- A proof is written back as it was read exactly when its bytes are canonical. The transcript
absorbs these bytes then, and no other canonical bytes are read as this proof. -/
theorem load_proof_canonical_iff (loaded : loadProof bytes = .ok proof) :
    (proof.toBytes = bytes ↔ CanonicalProof bytes) ∧
      (CanonicalProof bytes →
        (∀ s : Statement, s.proof = proof →
          s.absorbedProof ++ pushPoint proof.kzgQuotient = bytes) ∧
        ∀ other, loadProof other = .ok proof → CanonicalProof other → other = bytes) := by
  refine ⟨toBytes_eq_iff loaded, fun canonical => ⟨?_, fun other read exact => ?_⟩⟩
  · rintro s rfl
    rw [← toBytes_eq_absorbed, (toBytes_eq_iff loaded).mpr canonical]
  · rw [← (toBytes_eq_iff read).mpr exact, (toBytes_eq_iff loaded).mpr canonical]

def sevenWord : Bytes := List.replicate 31 0 ++ [7]

def sevensProof : Bytes := (List.replicate 507 sevenWord).flatten

theorem wordAt_replicate {count i : ℕ} (less : i < count) (exact : word.length = 32) :
    wordAt 32 (List.replicate count word).flatten i = word := by
  induction i generalizing count with
  | zero =>
    obtain ⟨rest, rfl⟩ := Nat.exists_eq_succ_of_ne_zero less.ne'
    rw [wordAt, Nat.zero_mul, List.drop_zero, List.replicate_succ, List.flatten_cons,
      List.take_left' exact]
  | succ i ih =>
    obtain ⟨rest, rfl⟩ := Nat.exists_eq_succ_of_ne_zero (Nat.ne_zero_of_lt less)
    rw [wordAt, List.replicate_succ, List.flatten_cons, Nat.succ_mul, Nat.add_comm,
      ← List.drop_drop, List.drop_left' exact]
    exact ih (Nat.lt_of_succ_lt_succ less)

theorem load_proof_canonical_iff_sample : ∃ proof,
    loadProof sevensProof = .ok proof ∧ proof.toBytes = sevensProof ∧
      (∀ s : Statement, s.proof = proof →
        s.absorbedProof ++ pushPoint proof.kzgQuotient = sevensProof) ∧
      ∀ other, loadProof other = .ok proof → CanonicalProof other → other = sevensProof := by
  have length : sevensProof.length = proofBytes := by
    rw [sevensProof, List.length_flatten, List.map_replicate, List.sum_replicate]
    rfl
  have canonical : CanonicalProof sevensProof := by
    intro i kind found
    have less : i < 507 := (List.getElem?_eq_some_iff.mp found).1.trans_eq proofLayout_length
    rw [sevensProof, wordAt_replicate less rfl]
    cases kind with
    | scalar => exact (by decide : ofBigEndian sevenWord < modulus)
    | low => rfl
    | high => rfl
  obtain ⟨proof, loaded, -⟩ := loadProof_spec length
  obtain ⟨writes, unaliased⟩ := load_proof_canonical_iff loaded
  exact ⟨proof, loaded, writes.mpr canonical, unaliased canonical⟩

def unreducedProof : Bytes := 255 :: List.replicate 16223 0

theorem unreducedProof_length : unreducedProof.length = proofBytes := by
  rw [unreducedProof, List.length_cons, List.length_replicate]
  rfl

theorem load_proof_reduces : ∃ proof,
    loadProof unreducedProof = .ok proof ∧ proof.toBytes ≠ unreducedProof := by
  obtain ⟨proof, loaded, -⟩ := loadProof_spec unreducedProof_length
  refine ⟨proof, loaded, fun same => ?_⟩
  have canonical := (toBytes_eq_iff loaded).mp same 0 .scalar rfl
  have word : wordAt 32 unreducedProof 0 = 255 :: List.replicate 31 0 := rfl
  rw [Word.Canonical, word] at canonical
  exact absurd canonical (by decide)

end Words

end Zicket.Verifier
