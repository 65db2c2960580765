import Zicket.Verifier.Answers

/-! A proof that is written to bytes is read back, and the checks that the verifier makes of the
bytes come down to those of the proof and of its transcript. -/

namespace Zicket.Verifier

open Host Foundation

section Words

variable {n : ℕ}

theorem rewrite_pushScalar (x : Fr) (rest : Bytes) :
    rewriteParts 32 Word.rewrite [.scalar] (pushScalar x ++ rest) = pushScalar x := by
  have word : toArray 32 (pushScalar x) = x.toBytes :=
    Vector.toList_inj.mp (toArray_toList (pushScalar_length x))
  rw [rewriteParts, rewriteParts, List.take_left' (pushScalar_length x), Word.rewrite, word,
    Fr.fromArray_toBytes, List.append_nil]

theorem rewrite_coordHalves {coord : Bytes} (whole : coord.length = 32) (rest : Bytes) :
    rewriteParts 32 Word.rewrite [.low, .high] (pushCoordHalves coord ++ rest) =
      pushCoordHalves coord := by
  have low : (List.replicate 15 0 ++ coord.drop 15 : Bytes).length = 32 := by simp [whole]
  have high : (List.replicate 17 0 ++ coord.take 15 : Bytes).length = 32 := by simp [whole]
  rw [pushCoordHalves, List.append_assoc, rewriteParts, List.take_left' low, List.drop_left' low,
    rewriteParts, List.take_left' high, rewriteParts, List.append_nil]
  simp only [Word.rewrite]
  rw [List.drop_left' (by simp), List.drop_left' (by simp)]

theorem rewrite_pushPoint (pt : G1Point) (rest : Bytes) :
    rewriteParts 32 Word.rewrite pointWords (pushPoint pt ++ rest) = pushPoint pt := by
  have x : (pt.toList.take 32).length = 32 := by simp
  have y : (pt.toList.drop 32).length = 32 := by simp
  have width : (pushCoordHalves (pt.toList.take 32)).length = [Word.low, Word.high].length * 32 := by
    simp [pushCoordHalves]
  have words : pointWords = [.low, .high] ++ [.low, .high] := rfl
  rw [words, pushPoint, List.append_assoc, rewriteParts_append, rewrite_coordHalves x,
    List.drop_left' width, rewrite_coordHalves y]

theorem rewrite_scalars {scalars : List Fr} (count : scalars.length = n) (rest : Bytes) :
    rewriteParts 32 Word.rewrite (scalarsLayout n) (scalars.flatMap pushScalar ++ rest) =
      scalars.flatMap pushScalar := by
  have layout : (List.replicate n [Word.scalar]).flatten = scalarsLayout n := by
    simp [scalarsLayout]
  rw [← layout, ← count]
  exact rewriteParts_flatMap rewrite_pushScalar pushScalar_length scalars rest

theorem rewrite_points {pts : List G1Point} (count : pts.length = n) (rest : Bytes) :
    rewriteParts 32 Word.rewrite (pointsLayout n) (pushPoints pts ++ rest) = pushPoints pts := by
  rw [pointsLayout, ← count]
  exact rewriteParts_flatMap rewrite_pushPoint pushPoint_length pts rest

end Words

section Proofs

variable {proof : Proof}

theorem rewriteParts_next {kinds more : List Word} {bytes rest : Bytes}
    (here : rewriteParts 32 Word.rewrite kinds (bytes ++ rest) = bytes)
    (length : bytes.length = kinds.length * 32)
    (later : rewriteParts 32 Word.rewrite more rest = rest) :
    rewriteParts 32 Word.rewrite (kinds ++ more) (bytes ++ rest) = bytes ++ rest := by
  rw [rewriteParts_append, here, List.drop_left' length, later]

theorem rewrite_toBytes : rewriteParts 32 Word.rewrite proofLayout proof.toBytes = proof.toBytes := by
  have scalars {n : ℕ} (xs : Vector Fr n) (rest : Bytes) : rewriteParts 32 Word.rewrite
      (scalarsLayout n) (pushScalars xs ++ rest) = pushScalars xs :=
    rewrite_scalars Vector.length_toList rest
  have scalar (x : Fr) (rest : Bytes) : rewriteParts 32 Word.rewrite (scalarsLayout 1)
      (pushScalar x ++ rest) = pushScalar x := rewrite_pushScalar x rest
  have point (pt : G1Point) (rest : Bytes) : rewriteParts 32 Word.rewrite (pointsLayout 1)
      (pushPoint pt ++ rest) = pushPoint pt := rewrite_pushPoint pt rest
  have rows : proof.sumcheckUnivariates.toList.flatMap pushScalars =
      (proof.sumcheckUnivariates.toList.flatMap Vector.toList).flatMap pushScalar := by
    rw [List.flatMap_assoc]
    rfl
  have cells : (proof.sumcheckUnivariates.toList.flatMap Vector.toList).length =
      constProofSizeLogN * batchedRelationPartialLength := by
    simp [List.length_flatMap]
  rw [proofLayout, Proof.toBytes, rows]
  refine rewriteParts_next (scalars _ _) (by simp) ?_
  refine rewriteParts_next (rewrite_points (Eq.refl 8) _) (by simp) ?_
  refine rewriteParts_next (point _ _) (by simp) ?_
  refine rewriteParts_next (scalar _ _) (by simp) ?_
  refine rewriteParts_next (rewrite_scalars cells _)
    (by rw [length_flatMap_of_width pushScalar_length, cells, scalarsLayout_length]) ?_
  refine rewriteParts_next (scalars _ _) (by simp) ?_
  refine rewriteParts_next (scalar _ _) (by simp) ?_
  refine rewriteParts_next (rewrite_points (Eq.refl 3) _) (by simp) ?_
  refine rewriteParts_next (scalar _ _) (by simp) ?_
  refine rewriteParts_next (rewrite_points Vector.length_toList _) (by simp [Nat.mul_assoc]) ?_
  refine rewriteParts_next (scalars _ _) (by simp) ?_
  refine rewriteParts_next (scalars _ _) (by simp) ?_
  have last : rewriteParts 32 Word.rewrite (pointsLayout 2)
      (pushPoints [proof.shplonkQ, proof.kzgQuotient] ++ []) = _ := rewrite_points (Eq.refl 2) []
  rwa [List.append_nil] at last

theorem toBytes_length (proof : Proof) : proof.toBytes.length = proofBytes := by
  have cells : (proof.sumcheckUnivariates.toList.flatMap pushScalars).length = 28 * (9 * 32) := by
    rw [length_flatMap_of_width pushScalars_length, Vector.length_toList]
    rfl
  simp only [Proof.toBytes, List.length_append, pushScalars_length, pushPoints_length,
    pushPoint_length, pushScalar_length, cells, List.length_cons, List.length_nil,
    Vector.length_toList]
  rfl

/-- Different proofs are written differently. -/
theorem toBytes_injective : Function.Injective Proof.toBytes := by
  intro p q same
  obtain ⟨pairing, same⟩ := List.append_inj same (by simp)
  obtain ⟨wires, same⟩ := List.append_inj same (by simp)
  obtain ⟨concatenation, same⟩ := List.append_inj same (by simp)
  obtain ⟨sum, same⟩ := List.append_inj same (by simp)
  obtain ⟨univariates, same⟩ := List.append_inj same (by
    rw [length_flatMap_of_width pushScalars_length, length_flatMap_of_width pushScalars_length,
      Vector.length_toList, Vector.length_toList])
  obtain ⟨evaluations, same⟩ := List.append_inj same (by simp)
  obtain ⟨claimed, same⟩ := List.append_inj same (by simp)
  obtain ⟨masks, same⟩ := List.append_inj same (by simp)
  obtain ⟨hidden, same⟩ := List.append_inj same (by simp)
  obtain ⟨folds, same⟩ := List.append_inj same (by simp)
  obtain ⟨opposites, same⟩ := List.append_inj same (by simp)
  obtain ⟨libra, quotients⟩ := List.append_inj same (by simp)
  have rows := Vector.toList_inj.mp
    (flatMap_inj_of_width pushScalars_injective pushScalars_length (by simp) univariates)
  have folds := Vector.toList_inj.mp (pushPoints_inj (by simp) folds)
  have wires := pushPoints_inj (Eq.refl 8) wires
  have masks := pushPoints_inj (Eq.refl 3) masks
  have quotients := pushPoints_inj (Eq.refl 2) quotients
  cases p
  cases q
  simp only [List.cons.injEq, and_true] at wires masks quotients
  simp_all only [pushScalars_injective.eq_iff, pushScalar_injective.eq_iff,
    pushPoint_injective.eq_iff]

theorem loadProof_toBytes (proof : Proof) : loadProof proof.toBytes = .ok proof := by
  obtain ⟨found, loaded, written⟩ := loadProof_spec (toBytes_length proof)
  rw [rewrite_toBytes] at written
  rw [loaded, toBytes_injective written]

end Proofs

section Checks

variable {hash32 : Bytes → BytesN 32} {curve : Bn254} {vk : VerificationKey} {bytes : Bytes}

/-- What the header of a loaded key is checked for. -/
structure VerificationKey.WellFormed (vk : VerificationKey) : Prop where
  positive : 0 < vk.logCircuitSize
  le : vk.logCircuitSize ≤ constProofSizeLogN
  inputs : pairingPointsSize ≤ vk.publicInputsSize
  size : vk.circuitSize = 2 ^ vk.logCircuitSize
  offset : vk.pubInputsOffset ≤ vk.circuitSize
  counted : vk.commitments.length = 27

theorem wellFormed_of_load (loaded : loadVkFromBytes bytes = .ok vk) : vk.WellFormed := by
  unfold loadVkFromBytes at loaded
  simp only [bind_eq_ok, ensure_eq_ok] at loaded
  obtain ⟨_, -, _, range, _, inputs, _, size, _, offset, loaded⟩ := loaded
  obtain rfl := Except.ok.inj loaded
  exact ⟨Nat.pos_of_ne_zero range.1, range.2, inputs, size, offset, by simp⟩

theorem VerificationKey.WellFormed.small (wellFormed : vk.WellFormed) :
    vk.circuitSize + vk.pubInputsOffset < 2 ^ 64 ∧ vk.pubInputsOffset + 1 < 2 ^ 64 := by
  have most : vk.circuitSize ≤ 2 ^ 28 := by
    rw [wellFormed.size]
    exact Nat.pow_le_pow_right two_pos wellFormed.le
  have offset := wellFormed.offset
  constructor <;> omega

theorem canonical_pushScalars {n : ℕ} (inputs : Vector Fr n) :
    publicInputsAreCanonical (honkProving hash32 curve) (pushScalars inputs) = .ok true := by
  have words : pushScalars inputs = (inputs.toList.map Fr.toBytes).flatMap Vector.toList := by
    rw [List.flatMap_map]
    rfl
  rw [words, publicInputsAreCanonical_flatten]
  refine congrArg _ (decide_eq_true fun word mem => ?_)
  obtain ⟨x, -, rfl⟩ := List.mem_map.mp mem
  exact congrArg Fr.toBytes (Fr.fromArray_toBytes x)

/-- The inputs that the key counts, as field elements. -/
structure Statement.Fits (s : Statement) (vk : VerificationKey) (inputs : Vector Fr 5) : Prop where
  publicInputs : s.publicInputs = pushScalars inputs
  circuitSize : s.circuitSize = vk.circuitSize
  publicInputsSize : s.publicInputsSize = vk.publicInputsSize
  pubInputsOffset : s.pubInputsOffset = vk.pubInputsOffset

theorem checkHonkProof_of_checks {s : Statement} {inputs : Vector Fr 5}
    (wellFormed : vk.WellFormed) (fits : s.Fits vk inputs)
    (invertible : (s.delta (s.transcript hash32).relParams.beta
      (s.transcript hash32).relParams.gamma).denominator ≠ 0)
    (sumcheck : verifySumcheck s.proof (s.transcript hash32) vk = .ok ())
    (opening : verifyShplemini s.proof (s.transcript hash32) curve vk = .ok ()) :
    checkHonkProof hash32 curve vk s.proof.toBytes s.publicInputs = .ok () := by
  obtain ⟨t, generated, beta, gamma, filled⟩ := s.generateTranscript_transcript hash32
  have small := wellFormed.small
  rw [← fits.circuitSize, ← fits.pubInputsOffset] at small
  have delta : computePublicInputDelta s.publicInputs s.proof.pairingPointObject t.relParams.beta
      t.relParams.gamma s.pubInputsOffset s.circuitSize =
        .ok (s.transcript hash32).relParams.publicInputsDelta := by
    rw [beta, gamma]
    exact computePublicInputDelta_eq small invertible
  have total : s.publicInputs.length / 32 + pairingPointsSize = s.publicInputsSize := by
    have counted := s.counted
    omega
  rw [← total, fits.circuitSize, fits.pubInputsOffset] at generated
  rw [fits.circuitSize, fits.pubInputsOffset] at delta
  refine bind_eq_ok.mpr ⟨s.proof, atStep_eq_ok.mpr (loadProof_toBytes s.proof), ?_⟩
  refine bind_eq_ok.mpr ⟨t, atStep_eq_ok.mpr generated, ?_⟩
  refine bind_eq_ok.mpr ⟨(s.transcript hash32).relParams.publicInputsDelta,
    atStep_eq_ok.mpr delta, ?_⟩
  dsimp only
  rw [filled]
  exact bind_eq_ok.mpr ⟨(), atStep_eq_ok.mpr sumcheck, atStep_eq_ok.mpr opening⟩

/-- A proof that passes the checks of its own transcript is accepted by the contract. -/
theorem accepted_of_checks {contract : AnonymousClaimVerifier} {s : Statement}
    {inputs : Vector Fr 5} (deployed : contract.toProving = honkProving hash32 curve)
    (loaded : loadVkFromBytes contract.verificationKey = .ok vk) (fits : s.Fits vk inputs)
    (invertible : (s.delta (s.transcript hash32).relParams.beta
      (s.transcript hash32).relParams.gamma).denominator ≠ 0)
    (sumcheck : verifySumcheck s.proof (s.transcript hash32) vk = .ok ())
    (opening : verifyShplemini s.proof (s.transcript hash32) curve vk = .ok ()) :
    contract.verify s.proof.toBytes (pushScalars inputs) = some true := by
  have wellFormed := wellFormed_of_load loaded
  have words : (pushScalars inputs).length = 160 := pushScalars_length inputs
  have counted := s.counted
  rw [fits.publicInputs, fits.publicInputsSize, words] at counted
  have enough := wellFormed.inputs
  have checked : vk.verify contract.toProving s.proof.toBytes (pushScalars inputs) = .ok () := by
    rw [deployed]
    refine bind_eq_ok.mpr ⟨(), require_eq_ok.mpr (toBytes_length s.proof), ?_⟩
    refine bind_eq_ok.mpr ⟨(), require_eq_ok.mpr (by rw [words]), ?_⟩
    refine bind_eq_ok.mpr ⟨(), require_eq_ok.mpr enough, ?_⟩
    refine bind_eq_ok.mpr ⟨(), require_eq_ok.mpr (by rw [words]; omega), ?_⟩
    refine bind_eq_ok.mpr ⟨true, canonical_pushScalars inputs, ?_⟩
    refine bind_eq_ok.mpr ⟨(), require_eq_ok.mpr rfl, ?_⟩
    rw [← fits.publicInputs]
    exact checkHonkProof_of_checks wellFormed fits invertible sumcheck opening
  have lengths : ¬ (s.proof.toBytes.length ≠ proofBytes ∨
      (pushScalars inputs).length ≠ publicInputBytes) :=
    not_or.mpr ⟨not_not.mpr (toBytes_length s.proof), not_not.mpr words⟩
  rw [AnonymousClaimVerifier.verify, if_neg lengths, loaded]
  simp only [checked]

end Checks

end Zicket.Verifier
