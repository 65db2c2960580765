import Zicket.Foundation.Layout
import Zicket.Verifier.Proof

/-! The layout of a proof, word by word, and what writing a proof back makes of each word: a
scalar is reduced, and the padding of a limb is cleared. -/

namespace Zicket.Verifier

open Host Foundation

/-- The words of the layout: a scalar, or the low or high limb of a coordinate. -/
inductive Word where
  | scalar
  | low
  | high
  deriving DecidableEq, Repr

def Word.rewrite : Word → Bytes → Bytes
  | .scalar, word => pushScalar (Fr.fromArray (toArray 32 word))
  | .low, word => List.replicate 15 0 ++ word.drop 15
  | .high, word => List.replicate 17 0 ++ word.drop 17

def pointWords : List Word := [.low, .high, .low, .high]

def scalarsLayout (count : ℕ) : List Word := List.replicate count .scalar

def pointsLayout (count : ℕ) : List Word := (List.replicate count pointWords).flatten

def proofLayout : List Word :=
  scalarsLayout pairingPointsSize ++ (pointsLayout 8 ++ (pointsLayout 1 ++ (scalarsLayout 1 ++
    (scalarsLayout (constProofSizeLogN * batchedRelationPartialLength) ++
    (scalarsLayout numberOfEntities ++ (scalarsLayout 1 ++ (pointsLayout 3 ++ (scalarsLayout 1 ++
    (pointsLayout (constProofSizeLogN - 1) ++ (scalarsLayout constProofSizeLogN ++
    (scalarsLayout 4 ++ pointsLayout 2)))))))))))

/-- The proof in the order of its layout, written as the transcript writes its parts. -/
def Proof.toBytes (proof : Proof) : Bytes :=
  pushScalars proof.pairingPointObject ++ (pushPoints [proof.w1, proof.w2, proof.w3,
    proof.lookupReadCounts, proof.lookupReadTags, proof.w4, proof.lookupInverses, proof.zPerm] ++
    (pushPoint proof.libraConcatenationCommitment ++ (pushScalar proof.libraSum ++
    (proof.sumcheckUnivariates.toList.flatMap pushScalars ++
    (pushScalars proof.sumcheckEvaluations ++ (pushScalar proof.libraClaimedEvaluation ++
    (pushPoints [proof.libraGrandSumCommitment, proof.libraQuotientCommitment,
      proof.hidingPolynomialCommitment] ++ (pushScalar proof.hidingPolynomialEvaluation ++
    (pushPoints proof.geminiFoldComms.toList ++ (pushScalars proof.geminiAEvaluations ++
    (pushScalars proof.libraPolynomialEvaluations ++
      pushPoints [proof.shplonkQ, proof.kzgQuotient])))))))))))

theorem toArray_toList {size : ℕ} {bytes : Bytes} (exact : bytes.length = size) :
    (toArray size bytes).toList = bytes := by
  subst exact
  refine List.ext_getElem (by simp) fun i _ within => ?_
  simp [toArray]

theorem Word.rewrite_length (kind : Word) (word : Bytes) (exact : word.length = 32) :
    (kind.rewrite word).length = 32 := by
  cases kind <;> simp [Word.rewrite, exact]

@[simp] theorem scalarsLayout_length (count : ℕ) : (scalarsLayout count).length = count := by
  simp [scalarsLayout]

@[simp] theorem pointsLayout_length (count : ℕ) : (pointsLayout count).length = count * 4 := by
  simp [pointsLayout, pointWords]

@[simp] theorem proofLayout_length : proofLayout.length = proofFields := by
  simp [proofLayout, proofFields, pairingPointsSize, constProofSizeLogN,
    batchedRelationPartialLength, numberOfEntities]

section Parts

variable {blob : Bytes} {lo hi : BytesN 32}

theorem combineLimbs_toList :
    (combineLimbs lo hi).toList = hi.toList.drop 17 ++ lo.toList.drop 15 :=
  toArray_toList (by simp)

theorem fromXy_toList (x y : BytesN 32) : (G1Point.fromXy x y).toList = x.toList ++ y.toList :=
  toArray_toList (by simp)

/-- The halves of a recombined coordinate are the limbs, without their padding. -/
theorem pushCoordHalves_combineLimbs : pushCoordHalves (combineLimbs lo hi).toList =
    Word.low.rewrite lo.toList ++ Word.high.rewrite hi.toList := by
  have below : (hi.toList.drop 17).length = 15 := by simp
  rw [combineLimbs_toList, pushCoordHalves, List.drop_left' below, List.take_left' below]
  rfl

theorem pushPoint_chunk (exact : blob.length = 128) :
    pushPoint (g1FromProofChunk128 blob) = rewriteParts 32 Word.rewrite pointWords blob := by
  have word (i : ℕ) (within : i < 4) : (toArray 32 (wordAt 32 blob i)).toList = wordAt 32 blob i :=
    toArray_toList (by simp [wordAt]; omega)
  rw [g1FromProofChunk128, pushPoint, fromXy_toList, List.take_left' (by simp),
    List.drop_left' (by simp), pushCoordHalves_combineLimbs, pushCoordHalves_combineLimbs,
    word 0 (by omega), word 1 (by omega), word 2 (by omega), word 3 (by omega)]
  simp [rewriteParts, pointWords, wordAt]

theorem pushScalars_blob (count : ℕ) :
    pushScalars (Vector.ofFn fun i : Fin count => frWord32 blob i) =
      rewriteParts 32 Word.rewrite (scalarsLayout count) blob := by
  rw [pushScalars, Vector.toList_ofFn]
  induction count generalizing blob with
  | zero => rfl
  | succ count ih =>
    have later (i : ℕ) : frWord32 blob (i + 1) = frWord32 (blob.drop 32) i := by
      rw [frWord32, frWord32, wordAt, wordAt, List.drop_drop, Nat.succ_mul, Nat.add_comm]
    have rest := @ih (blob.drop 32)
    simp only [← later] at rest
    rw [List.ofFn_succ, List.flatMap_cons, scalarsLayout, List.replicate_succ, rewriteParts]
    refine congrArg₂ (· ++ ·) ?_ rest
    simp [frWord32, wordAt, Word.rewrite]

theorem pushPoints_blob (count : ℕ) (enough : count * 128 ≤ blob.length) :
    pushPoints (List.ofFn fun i : Fin count => g1FromProofBlobAt blob i) =
      rewriteParts 32 Word.rewrite (pointsLayout count) blob := by
  induction count generalizing blob with
  | zero => rfl
  | succ count ih =>
    have later (i : ℕ) : g1FromProofBlobAt blob (i + 1) = g1FromProofBlobAt (blob.drop 128) i := by
      rw [g1FromProofBlobAt, g1FromProofBlobAt, wordAt, wordAt, List.drop_drop, Nat.succ_mul,
        Nat.add_comm]
    have rest := @ih (blob.drop 128) (by simp; omega)
    simp only [← later] at rest
    rw [pushPoints, List.ofFn_succ, List.flatMap_cons, pointsLayout, List.replicate_succ,
      List.flatten_cons, rewriteParts_append]
    refine congrArg₂ (· ++ ·) ?_ rest
    rw [g1FromProofBlobAt, pushPoint_chunk (by simp [wordAt]; omega), wordAt,
      rewriteParts_take (by simp [pointWords])]
    simp

theorem pushUnivariates_blob (rows columns : ℕ) :
    (Vector.ofFn fun r : Fin rows => Vector.ofFn fun c : Fin columns =>
      frWord32 blob (r * columns + c)).toList.flatMap pushScalars =
        rewriteParts 32 Word.rewrite (scalarsLayout (rows * columns)) blob := by
  rw [Vector.toList_ofFn]
  induction rows generalizing blob with
  | zero => simp [scalarsLayout, rewriteParts]
  | succ rows ih =>
    have later (r c : ℕ) : frWord32 blob ((r + 1) * columns + c) =
        frWord32 (blob.drop (columns * 32)) (r * columns + c) := by
      rw [frWord32, frWord32, wordAt, wordAt, List.drop_drop]
      congr 4
      ring
    have rest := @ih (blob.drop (columns * 32))
    simp only [← later] at rest
    have layout : scalarsLayout ((rows + 1) * columns) =
        scalarsLayout columns ++ scalarsLayout (rows * columns) := by
      rw [scalarsLayout, scalarsLayout, scalarsLayout, ← List.replicate_add, Nat.succ_mul,
        Nat.add_comm]
    rw [List.ofFn_succ, List.flatMap_cons, layout, rewriteParts_append]
    refine congrArg₂ (· ++ ·) ?_ (by simpa [scalarsLayout] using rest)
    simpa using @pushScalars_blob blob columns

end Parts

section Segments

variable {bytes : Bytes} {offset size count : ℕ}

theorem scalars_segment (enough : count * 32 ≤ size) :
    pushScalars (Vector.ofFn fun i : Fin count => frWord32 ((bytes.drop offset).take size) i) =
      rewriteParts 32 Word.rewrite (scalarsLayout count) (bytes.drop offset) := by
  rw [pushScalars_blob, rewriteParts_take (by simpa using enough)]

theorem points_segment (count : ℕ) (enough : count * 128 ≤ size) (within : offset + size ≤ bytes.length) :
    pushPoints (List.ofFn fun i : Fin count =>
      g1FromProofBlobAt ((bytes.drop offset).take size) i) =
        rewriteParts 32 Word.rewrite (pointsLayout count) (bytes.drop offset) := by
  rw [pushPoints_blob count (by simp; omega), rewriteParts_take (by simp; omega)]

theorem foldComms_segment (enough : count * 128 ≤ size) (within : offset + size ≤ bytes.length) :
    pushPoints (Vector.ofFn fun i : Fin count =>
      g1FromProofBlobAt ((bytes.drop offset).take size) i).toList =
        rewriteParts 32 Word.rewrite (pointsLayout count) (bytes.drop offset) := by
  rw [Vector.toList_ofFn, points_segment count enough within]

theorem point_segment {first last : ℕ} (point : last = first + 128) (enough : last ≤ size)
    (within : offset + size ≤ bytes.length) :
    pushPoint (g1FromProofChunk128 (slice ((bytes.drop offset).take size) first last)) =
      rewriteParts 32 Word.rewrite (pointsLayout 1) (bytes.drop (offset + first)) := by
  subst point
  rw [slice, List.drop_take, List.take_take, List.drop_drop, Nat.add_sub_cancel_left,
    Nat.min_eq_left (by omega), pushPoint_chunk (by simp; omega),
    rewriteParts_take (by simp [pointWords])]
  simp [pointsLayout]

theorem points_run (first count : ℕ) (enough : first + count * 128 ≤ size)
    (within : offset + size ≤ bytes.length) :
    pushPoints (List.ofFn fun i : Fin count => g1FromProofChunk128
      (slice ((bytes.drop offset).take size) (first + i * 128) (first + (i + 1) * 128))) =
        rewriteParts 32 Word.rewrite (pointsLayout count) (bytes.drop (offset + first)) := by
  have points (i : Fin count) : g1FromProofChunk128
      (slice ((bytes.drop offset).take size) (first + i * 128) (first + (i + 1) * 128)) =
        g1FromProofBlobAt ((bytes.drop (offset + first)).take (size - first)) i := by
    rw [g1FromProofBlobAt, wordAt, slice, ← List.drop_drop, ← List.drop_drop, List.drop_take]
    congr 2
    omega
  simp only [points]
  exact points_segment count (by omega) (by omega)

theorem univariates_segment {rows columns : ℕ} (enough : rows * columns * 32 ≤ size) :
    (Vector.ofFn fun r : Fin rows => Vector.ofFn fun c : Fin columns =>
      frWord32 ((bytes.drop offset).take size) (r * columns + c)).toList.flatMap pushScalars =
        rewriteParts 32 Word.rewrite (scalarsLayout (rows * columns)) (bytes.drop offset) := by
  rw [pushUnivariates_blob, rewriteParts_take (by simpa using enough)]

theorem scalar_segment {word : ℕ} (within : (word + 1) * 32 ≤ size) :
    pushScalar (frWord32 ((bytes.drop offset).take size) word) =
      rewriteParts 32 Word.rewrite (scalarsLayout 1) (bytes.drop (offset + word * 32)) := by
  have inside : wordAt 32 ((bytes.drop offset).take size) word =
      (bytes.drop (offset + word * 32)).take 32 := by
    rw [wordAt, List.drop_take, List.take_take, List.drop_drop, Nat.min_eq_left (by omega)]
  simp [scalarsLayout, rewriteParts, Word.rewrite, frWord32, inside]

end Segments

section Loading

variable {bytes : Bytes} {proof : Proof}

theorem readBytes_bind {count idx : ℕ} {next : Bytes × ℕ → Checked Proof}
    (within : idx + count ≤ bytes.length) :
    (readBytes count bytes idx >>= next) = next ((bytes.drop idx).take count, idx + count) := by
  rw [readBytes, ensure, if_pos within]
  rfl

/-- Bytes of the right number are read, and what is read is written back word by word. -/
theorem loadProof_spec (exact : bytes.length = proofBytes) : ∃ proof,
    loadProof bytes = .ok proof ∧
      proof.toBytes = rewriteParts 32 Word.rewrite proofLayout bytes := by
  have length : bytes.length = 16224 := exact
  have checked : (ensure (bytes.length = proofBytes)
      (.error "proof bytes length mismatch") : Checked Unit) = .ok () := ensure_eq_ok.mpr exact
  unfold loadProof
  rw [checked]
  change ∃ proof, (readBytes pairingObjBytes bytes 0 >>= _) = _ ∧ _
  iterate 10
    rw [readBytes_bind (by rw [length]; decide)]
    dsimp only
  refine ⟨_, rfl, ?_⟩
  simp only [Proof.toBytes, proofLayout, rewriteParts_append, List.drop_drop,
    scalarsLayout_length, pointsLayout_length]
  refine congrArg₂ (· ++ ·) (scalars_segment (by decide)) ?_
  refine congrArg₂ (· ++ ·) (points_segment 8 (by decide) (by rw [length]; decide)) ?_
  refine congrArg₂ (· ++ ·) (point_segment (by decide) (by decide) (by rw [length]; decide)) ?_
  refine congrArg₂ (· ++ ·) (scalar_segment (by decide)) ?_
  refine congrArg₂ (· ++ ·) (univariates_segment (by decide)) ?_
  refine congrArg₂ (· ++ ·) (scalars_segment (by decide)) ?_
  refine congrArg₂ (· ++ ·) (scalar_segment (by decide)) ?_
  refine congrArg₂ (· ++ ·) (points_run 32 3 (by decide) (by rw [length]; decide)) ?_
  refine congrArg₂ (· ++ ·) (scalar_segment (by decide)) ?_
  refine congrArg₂ (· ++ ·) (foldComms_segment (by decide) (by rw [length]; decide)) ?_
  refine congrArg₂ (· ++ ·) (scalars_segment (by decide)) ?_
  refine congrArg₂ (· ++ ·) (scalars_segment (by decide)) ?_
  exact points_run 0 2 (by decide) (by rw [length]; decide)

theorem length_of_loadProof (loaded : loadProof bytes = .ok proof) :
    bytes.length = proofBytes := by
  obtain ⟨_, exact, -⟩ := bind_eq_ok.mp loaded
  exact ensure_eq_ok.mp exact

theorem toBytes_loadProof (loaded : loadProof bytes = .ok proof) :
    proof.toBytes = rewriteParts 32 Word.rewrite proofLayout bytes := by
  obtain ⟨_, found, written⟩ := loadProof_spec (length_of_loadProof loaded)
  obtain rfl := Except.ok.inj (loaded.symm.trans found)
  exact written

end Loading

end Zicket.Verifier
