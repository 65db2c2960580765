import Zicket.Verifier.Rounds

/-! What the running challenges of the transcript bind. On strings that the hash does not confuse,
the challenge of a round determines everything that was absorbed in it and before. -/

namespace Zicket.Verifier

open Host Foundation

def Statement.Agree (s t : Statement) : Round → Prop
  | .eta =>
    s.circuitSize = t.circuitSize ∧ s.publicInputsSize = t.publicInputsSize ∧
      s.pubInputsOffset = t.pubInputsOffset ∧ s.publicInputs = t.publicInputs ∧
      s.proof.pairingPointObject = t.proof.pairingPointObject ∧ s.proof.w1 = t.proof.w1 ∧
      s.proof.w2 = t.proof.w2 ∧ s.proof.w3 = t.proof.w3
  | .betaGamma =>
    s.proof.lookupReadCounts = t.proof.lookupReadCounts ∧
      s.proof.lookupReadTags = t.proof.lookupReadTags ∧ s.proof.w4 = t.proof.w4
  | .alphas => s.proof.lookupInverses = t.proof.lookupInverses ∧ s.proof.zPerm = t.proof.zPerm
  | .gates => True
  | .libra =>
    s.proof.libraConcatenationCommitment = t.proof.libraConcatenationCommitment ∧
      s.proof.libraSum = t.proof.libraSum
  | .sumcheck r => s.proof.sumcheckUnivariates.get r = t.proof.sumcheckUnivariates.get r
  | .rho =>
    s.proof.sumcheckEvaluations = t.proof.sumcheckEvaluations ∧
      s.proof.libraClaimedEvaluation = t.proof.libraClaimedEvaluation ∧
      s.proof.libraGrandSumCommitment = t.proof.libraGrandSumCommitment ∧
      s.proof.libraQuotientCommitment = t.proof.libraQuotientCommitment ∧
      s.proof.hidingPolynomialCommitment = t.proof.hidingPolynomialCommitment ∧
      s.proof.hidingPolynomialEvaluation = t.proof.hidingPolynomialEvaluation
  | .geminiR => s.proof.geminiFoldComms = t.proof.geminiFoldComms
  | .shplonkNu =>
    s.proof.geminiAEvaluations = t.proof.geminiAEvaluations ∧
      s.proof.libraPolynomialEvaluations = t.proof.libraPolynomialEvaluations
  | .shplonkZ => s.proof.shplonkQ = t.proof.shplonkQ

def Statement.hashed (s : Statement) (hash32 : Bytes → BytesN 32) (round : Round) : List Bytes :=
  s.header :: absorbed (hashToFr hash32) pushScalar (hashToFr hash32 s.header)
    (round.upTo.flatMap s.blocks)

section Encodings

variable {s t : Statement}

theorem u64ToBe32_inj {x y : ℕ} (hx : x < 2 ^ 64) (hy : y < 2 ^ 64)
    (same : u64ToBe32 x = u64ToBe32 y) : x = y := by
  have values := congrArg ofBigEndian (List.append_cancel_left same)
  rwa [ofBigEndian_toBigEndian (by omega), ofBigEndian_toBigEndian (by omega)] at values

@[simp] theorem u64ToBe32_length (x : ℕ) : (u64ToBe32 x).length = 32 := by
  simp [u64ToBe32]

/-- The count of the inputs comes before them, so their end is known. -/
theorem header_inj (same : s.header = t.header) : s.Agree t .eta := by
  obtain ⟨circuit, same⟩ := List.append_inj same (by simp)
  obtain ⟨count, same⟩ := List.append_inj same (by simp)
  obtain ⟨start, same⟩ := List.append_inj same (by simp)
  have count := u64ToBe32_inj s.publicInputsSize_lt t.publicInputsSize_lt count
  have lengths : s.publicInputs.length = t.publicInputs.length := by
    have left := s.counted
    have right := t.counted
    rw [count] at left
    omega
  obtain ⟨inputs, same⟩ := List.append_inj same lengths
  obtain ⟨pairing, wires⟩ := List.append_inj same (by simp)
  have wires := pushPoints_inj (by rfl) wires
  simp only [List.cons.injEq, and_true] at wires
  exact ⟨u64ToBe32_inj s.circuitSize_lt t.circuitSize_lt circuit, count,
    u64ToBe32_inj s.pubInputsOffset_lt t.pubInputsOffset_lt start, inputs,
    pushScalars_injective pairing, wires⟩

theorem rhoBlock_inj (same : s.proof.rhoBlock = t.proof.rhoBlock) : s.Agree t .rho := by
  obtain ⟨evaluations, same⟩ := List.append_inj same (by simp)
  obtain ⟨claimed, same⟩ := List.append_inj same (by simp)
  obtain ⟨grandSum, same⟩ := List.append_inj same (by simp)
  obtain ⟨quotient, same⟩ := List.append_inj same (by simp)
  obtain ⟨mask, evaluation⟩ := List.append_inj same (by simp)
  exact ⟨pushScalars_injective evaluations, pushScalar_injective claimed,
    pushPoint_injective grandSum, pushPoint_injective quotient, pushPoint_injective mask,
    pushScalar_injective evaluation⟩

theorem blocks_inj (header : s.header = t.header) (round : Round)
    (same : s.blocks round = t.blocks round) : s.Agree t round := by
  cases round with
  | eta => exact header_inj header
  | betaGamma => simpa [Statement.Agree] using pushPoints_inj (by rfl) (List.cons.inj same).1
  | alphas => simpa [Statement.Agree] using pushPoints_inj (by rfl) (List.cons.inj same).1
  | gates => trivial
  | libra =>
    obtain ⟨point, scalar⟩ := List.append_inj (List.cons.inj same).1 (by simp)
    exact ⟨pushPoint_injective point, pushScalar_injective scalar⟩
  | sumcheck r => exact pushScalars_injective (List.cons.inj same).1
  | rho => exact rhoBlock_inj (List.cons.inj same).1
  | geminiR => exact Vector.toList_inj.mp (pushPoints_inj (by simp) (List.cons.inj same).1)
  | shplonkNu =>
    obtain ⟨folds, libra⟩ := List.append_inj (List.cons.inj same).1 (by simp)
    exact ⟨pushScalars_injective folds, pushScalars_injective libra⟩
  | shplonkZ => exact pushPoint_injective (List.cons.inj same).1

theorem blocks_length (s t : Statement) (round : Round) :
    (s.blocks round).length = (t.blocks round).length := by
  cases round <;> rfl

theorem blocks_of_flatMap {rounds : List Round}
    (same : rounds.flatMap s.blocks = rounds.flatMap t.blocks) :
    ∀ round ∈ rounds, s.blocks round = t.blocks round := by
  induction rounds with
  | nil => simp
  | cons round rounds ih =>
    obtain ⟨first, rest⟩ := List.append_inj same (blocks_length s t round)
    exact List.forall_mem_cons.mpr ⟨first, ih rest⟩

end Encodings

section Binding

variable {hash32 : Bytes → BytesN 32} {s t : Statement}

/-- Equal running challenges, and no collision among the strings hashed: the header and all blocks
up to the round are the same. -/
theorem runningChallenge_inj (round : Round)
    (free : Set.InjOn (hashToFr hash32)
      {bytes | bytes ∈ s.hashed hash32 round ∨ bytes ∈ t.hashed hash32 round})
    (same : s.runningChallenge hash32 round = t.runningChallenge hash32 round) :
    s.header = t.header ∧ round.upTo.flatMap s.blocks = round.upTo.flatMap t.blocks := by
  rw [Statement.runningChallenge_eq, Statement.runningChallenge_eq] at same
  have counts : (round.upTo.flatMap s.blocks).length = (round.upTo.flatMap t.blocks).length := by
    simp only [List.length_flatMap, blocks_length s t]
  have agree := squeeze_inj pushScalar_injective (by simp)
    (fun a left b right => free (.inl (.tail _ left)) (.inr (.tail _ right))) counts same
  exact ⟨free (.inl (.head _)) (.inr (.head _)) agree.1, agree.2⟩

/-- Two runs whose strings the hash does not confuse: the running challenge of a round determines
what was absorbed up to it, and the last one everything but the quotient that is opened. -/
theorem transcript_binds (round : Round)
    (free : Set.InjOn (hashToFr hash32)
      {bytes | bytes ∈ s.hashed hash32 round ∨ bytes ∈ t.hashed hash32 round})
    (same : s.runningChallenge hash32 round = t.runningChallenge hash32 round) :
    (∀ earlier ∈ round.upTo, s.Agree t earlier) ∧
      (round = .shplonkZ → s.circuitSize = t.circuitSize ∧
        s.publicInputsSize = t.publicInputsSize ∧ s.pubInputsOffset = t.pubInputsOffset ∧
        s.publicInputs = t.publicInputs ∧
        { s.proof with kzgQuotient := t.proof.kzgQuotient } = t.proof) := by
  obtain ⟨header, blocks⟩ := runningChallenge_inj round free same
  have agree : ∀ earlier ∈ round.upTo, s.Agree t earlier := fun earlier before =>
    blocks_inj header earlier (blocks_of_flatMap blocks earlier before)
  refine ⟨agree, ?_⟩
  rintro rfl
  have all (earlier : Round) : s.Agree t earlier := agree earlier (Round.mem_upTo_last earlier)
  obtain ⟨circuit, count, start, inputs, pairing, w1, w2, w3⟩ := all .eta
  obtain ⟨readCounts, readTags, w4⟩ := all .betaGamma
  obtain ⟨inverses, zPerm⟩ := all .alphas
  obtain ⟨concatenation, libraSum⟩ := all .libra
  obtain ⟨evaluations, claimed, grandSum, quotient, mask, evaluation⟩ := all .rho
  obtain ⟨folds, libra⟩ := all .shplonkNu
  have univariates : s.proof.sumcheckUnivariates = t.proof.sumcheckUnivariates :=
    Vector.ext fun r within => all (.sumcheck ⟨r, within⟩)
  have comms : s.proof.geminiFoldComms = t.proof.geminiFoldComms := all .geminiR
  have opening : s.proof.shplonkQ = t.proof.shplonkQ := all .shplonkZ
  refine ⟨circuit, count, start, inputs, ?_⟩
  dsimp only
  rw [pairing, w1, w2, w3, w4, readCounts, readTags, inverses, zPerm, concatenation, libraSum,
    univariates, evaluations, claimed, grandSum, quotient, mask, evaluation, comms, folds, libra,
    opening]

end Binding

section Counting

/-- A hash that counts: one more than the word in front of its data. -/
def countingHash (data : Bytes) : BytesN 32 :=
  ((ofBigEndian (data.take 32) + 1 : ℕ) : Fr).toBytes

theorem countingHash_eq (data : Bytes) :
    hashToFr countingHash data = (ofBigEndian (data.take 32) + 1 : ℕ) :=
  Fr.fromArray_toBytes _

theorem countingHash_absorb (c : Fr) (block : Bytes) :
    hashToFr countingHash (pushScalar c ++ block) = c + 1 := by
  rw [countingHash_eq, List.take_left' (by simp), pushScalar, Fr.ofBigEndian_toBytes]
  simp

theorem countingHash_absorbed (start : ℕ) (blocks : List Bytes) :
    (absorbed (hashToFr countingHash) pushScalar (start : Fr) blocks).map
      (hashToFr countingHash) = (List.range' (start + 1) blocks.length).map Nat.cast := by
  induction blocks generalizing start with
  | nil => rfl
  | cons block blocks ih =>
    have next : absorb (hashToFr countingHash) pushScalar (start : Fr) block =
        ((start + 1 : ℕ) : Fr) := by
      rw [absorb, countingHash_absorb, Nat.cast_succ]
    rw [absorbed, next, List.map_cons, ih, countingHash_absorb, List.length_cons,
      List.range'_succ, List.map_cons, Nat.cast_succ]

theorem countingHash_free {strings : List Bytes} {start : ℕ}
    (counts : strings.map (hashToFr countingHash) =
      (List.range' start strings.length).map Nat.cast)
    (small : start + strings.length < modulus) :
    Set.InjOn (hashToFr countingHash) {bytes | bytes ∈ strings} := by
  have distinct : (strings.map (hashToFr countingHash)).Nodup := by
    rw [counts]
    refine List.Nodup.map_on (fun a ha b hb same => ?_) List.nodup_range'
    have ha := List.mem_range'_1.mp ha
    have hb := List.mem_range'_1.mp hb
    rw [ZMod.natCast_eq_natCast_iff, Nat.ModEq, Nat.mod_eq_of_lt (by omega),
      Nat.mod_eq_of_lt (by omega)] at same
    exact same
  exact fun a ha b hb same => List.inj_on_of_nodup_map distinct ha hb same

def blankStatement (quotient : UInt8) : Statement where
  proof := {
    pairingPointObject := Vector.replicate _ 0, w1 := Vector.replicate _ 0
    w2 := Vector.replicate _ 0, w3 := Vector.replicate _ 0, w4 := Vector.replicate _ 0
    lookupReadCounts := Vector.replicate _ 0, lookupReadTags := Vector.replicate _ 0
    lookupInverses := Vector.replicate _ 0, zPerm := Vector.replicate _ 0
    libraConcatenationCommitment := Vector.replicate _ 0, libraSum := 0
    sumcheckUnivariates := Vector.replicate _ (Vector.replicate _ 0)
    sumcheckEvaluations := Vector.replicate _ 0, libraClaimedEvaluation := 0
    libraGrandSumCommitment := Vector.replicate _ 0
    libraQuotientCommitment := Vector.replicate _ 0
    hidingPolynomialCommitment := Vector.replicate _ 0, hidingPolynomialEvaluation := 0
    geminiFoldComms := Vector.replicate _ (Vector.replicate _ 0)
    geminiAEvaluations := Vector.replicate _ 0
    libraPolynomialEvaluations := Vector.replicate _ 0, shplonkQ := Vector.replicate _ 0
    kzgQuotient := Vector.replicate _ quotient }
  publicInputs := []
  circuitSize := 0
  publicInputsSize := 16
  pubInputsOffset := 0
  circuitSize_lt := by decide
  publicInputsSize_lt := by decide
  pubInputsOffset_lt := by decide
  counted := rfl

theorem blankStatement_blocks (quotient : UInt8) :
    (blankStatement quotient).blocks = (blankStatement 0).blocks := by
  funext round
  cases round <;> rfl

theorem blankStatement_hashed (quotient : UInt8) :
    (blankStatement quotient).hashed countingHash .shplonkZ =
      (blankStatement 0).hashed countingHash .shplonkZ := by
  rw [Statement.hashed, Statement.hashed, blankStatement_blocks]
  rfl

theorem blankStatement_first :
    hashToFr countingHash (blankStatement 0).header = ((1 : ℕ) : Fr) := by
  have word : (blankStatement 0).header.take 32 = u64ToBe32 0 :=
    List.take_left' (by simp)
  rw [countingHash_eq, word]
  rfl

theorem blankStatement_free : Set.InjOn (hashToFr countingHash)
    {bytes | bytes ∈ (blankStatement 0).hashed countingHash .shplonkZ} := by
  have count : ((blankStatement 0).hashed countingHash .shplonkZ).length = 77 := by
    rw [Statement.hashed, List.length_cons, absorbed_length]
    rfl
  refine countingHash_free ?_ (by rw [count]; decide : 1 + _ < modulus)
  rw [Statement.hashed, List.map_cons, blankStatement_first, countingHash_absorbed,
    List.length_cons, absorbed_length, List.range'_succ, List.map_cons]

/-- Two proofs that differ in the quotient only. -/
theorem transcript_binds_sample :
    (∀ earlier ∈ Round.upTo .shplonkZ, (blankStatement 0).Agree (blankStatement 1) earlier) ∧
      (Round.shplonkZ = .shplonkZ →
        (blankStatement 0).circuitSize = (blankStatement 1).circuitSize ∧
        (blankStatement 0).publicInputsSize = (blankStatement 1).publicInputsSize ∧
        (blankStatement 0).pubInputsOffset = (blankStatement 1).pubInputsOffset ∧
        (blankStatement 0).publicInputs = (blankStatement 1).publicInputs ∧
        { (blankStatement 0).proof with kzgQuotient := (blankStatement 1).proof.kzgQuotient } =
          (blankStatement 1).proof) := by
  refine transcript_binds .shplonkZ (?_ : Set.InjOn (hashToFr countingHash) _) ?_
  · rw [blankStatement_hashed 1]
    simpa using blankStatement_free
  · rw [Statement.runningChallenge_eq, Statement.runningChallenge_eq, blankStatement_blocks 1]
    rfl

end Counting

end Zicket.Verifier
