import Zicket.Foundation.LogDerivatives
import Zicket.Foundation.RandomPoints
import Zicket.Verifier.TraceRows

/-! The lookup argument. Its two relations compare sums of inverses, and hold for few challenges
when a row looks up what is in no row of the table, whatever counts and tags are committed. -/

namespace Zicket.Verifier

open Host Foundation Polynomial

variable {n : ℕ} {key column : ℕ → Fr[X]} {rp : RelationParameters}

section Entries

def readEntry (p : Wire → Fr) : Fr × (Fin 3 → Fr) :=
  (p .wl + p .qr * p .wlShift,
    ![p .wr + p .qm * p .wrShift, p .wo + p .qc * p .woShift, p .qo])

def tableEntry (p : Wire → Fr) : Fr × (Fin 3 → Fr) :=
  (p .table1, ![p .table2, p .table3, p .table4])

def compressed (etas : Fin 3 → Fr) (entry : Fr × (Fin 3 → Fr)) : Fr :=
  entry.1 + ∑ k, etas k * entry.2 k

def inverseExists (p : Wire → Fr) : Fr :=
  p .lookupReadTags + p .qLookup - p .lookupReadTags * p .qLookup

def etasOf (rp : RelationParameters) : Fin 3 → Fr := ![rp.eta, rp.etaTwo, rp.etaThree]

theorem lookup_relation (p : Wire → Fr) (rp : RelationParameters) :
    (subrelations p rp 1).getD 4 0 =
        (rp.gamma + compressed (etasOf rp) (readEntry p)) *
          (rp.gamma + compressed (etasOf rp) (tableEntry p)) * p .lookupInverses -
        inverseExists p ∧
      (subrelations p rp 1).getD 5 0 =
        p .qLookup * ((rp.gamma + compressed (etasOf rp) (tableEntry p)) * p .lookupInverses) -
          p .lookupReadCounts *
            ((rp.gamma + compressed (etasOf rp) (readEntry p)) * p .lookupInverses) := by
  have read : rp.gamma + compressed (etasOf rp) (readEntry p) =
      p .wl + rp.gamma + p .qr * p .wlShift + (p .wr + p .qm * p .wrShift) * rp.eta +
        (p .wo + p .qc * p .woShift) * rp.etaTwo + p .qo * rp.etaThree := by
    simp only [compressed, readEntry, etasOf, Fin.sum_univ_succ, Fin.sum_univ_zero]
    simp
    ring
  have written : rp.gamma + compressed (etasOf rp) (tableEntry p) =
      p .table1 + rp.gamma + p .table2 * rp.eta + p .table3 * rp.etaTwo +
        p .table4 * rp.etaThree := by
    simp only [compressed, tableEntry, etasOf, Fin.sum_univ_succ, Fin.sum_univ_zero]
    simp
    ring
  rw [read, written]
  refine ⟨?_, rfl⟩
  change (_ * _ * _ - (_ + _ - _ * _)) * 1 = _
  rw [mul_one]
  rfl

end Entries

section Relations

/-- The two relations of the lookups, over all rows that relations hold for. -/
structure LookupsHold (cols : Columns n) (rp : RelationParameters) : Prop where
  inverses : ∀ z ∈ enabledRows n, (cols.row z rp).getD 4 0 = 0
  balanced : ∑ z ∈ enabledRows n, (cols.row z rp).getD 5 0 = 0

/-- A row with the selector looks up what is in no row of the table. -/
structure Missing (key column : ℕ → Fr[X]) (n i : ℕ) : Prop where
  within : i < 2 ^ n - 4
  selected : rowValue key column i .qLookup = 1
  missing (j : ℕ) : j < 2 ^ n - 4 →
    readEntry (rowValue key column i) ≠ tableEntry (rowValue key column j)

/-- The selector is zero or one. -/
def Selects (key : ℕ → Fr[X]) (n : ℕ) : Prop :=
  ∀ i < 2 ^ n - 4, (key 6).coeff i = 0 ∨ (key 6).coeff i = 1

/-- The reads come first, and the writes with the counts against them. -/
noncomputable def lookupPole (key column : ℕ → Fr[X]) (etas : Fin 3 → Fr) : ℕ ⊕ ℕ → Fr
  | .inl i => compressed etas (readEntry (rowValue key column i))
  | .inr i => compressed etas (tableEntry (rowValue key column i))

noncomputable def lookupWeight (key column : ℕ → Fr[X]) : ℕ ⊕ ℕ → Fr
  | .inl i => rowValue key column i .qLookup
  | .inr i =>
    -(rowValue key column i .lookupReadCounts * inverseExists (rowValue key column i))

def lookupTerms (n : ℕ) : Finset (ℕ ⊕ ℕ) :=
  (Finset.range (2 ^ n - 4)).disjSum (Finset.range (2 ^ n - 4))

/-- Where no term vanishes, the relations are one sum of inverses. -/
theorem LookupsHold.sum_eq_zero (holds : LookupsHold (traceColumns key column n) rp)
    (selects : Selects key n)
    (nonzero : ∀ e ∈ lookupTerms n, rp.gamma + lookupPole key column (etasOf rp) e ≠ 0) :
    ∑ e ∈ lookupTerms n, lookupWeight key column e *
      (rp.gamma + lookupPole key column (etasOf rp) e)⁻¹ = 0 := by
  have row (i : ℕ) (less : i < 2 ^ n - 4) : (traceColumns key column n).row (corner n i) rp =
      subrelations (rowValue key column i) rp 1 := by
    rw [Columns.row, traceColumns_corner (by omega)]
  have inverses := forall_enabledRows.mp holds.inverses
  have balanced := holds.balanced
  rw [sum_enabledRows] at balanced
  rw [lookupTerms, Finset.sum_disjSum, ← Finset.sum_add_distrib, ← balanced]
  refine Finset.sum_congr rfl fun i mem => ?_
  have less := Finset.mem_range.mp mem
  have inverse := inverses i less
  rw [row i less, (lookup_relation _ rp).1, sub_eq_zero] at inverse
  rw [row i less, (lookup_relation _ rp).2]
  have read := nonzero (.inl i) (by simpa [lookupTerms] using less)
  have write := nonzero (.inr i) (by simpa [lookupTerms] using less)
  simp only [lookupPole, lookupWeight] at read write ⊢
  have selector : rowValue key column i .qLookup = 0 ∨ rowValue key column i .qLookup = 1 :=
    selects i less
  generalize compressed (etasOf rp) (readEntry (rowValue key column i)) = f at *
  generalize compressed (etasOf rp) (tableEntry (rowValue key column i)) = g at *
  have found : rowValue key column i .lookupInverses =
      inverseExists (rowValue key column i) * (rp.gamma + f)⁻¹ * (rp.gamma + g)⁻¹ := by
    rw [← inverse]
    field_simp
  have marked : rowValue key column i .qLookup * inverseExists (rowValue key column i) =
      rowValue key column i .qLookup := by
    rw [inverseExists]
    rcases selector with off | on
    · rw [off]
      ring
    · rw [on]
      ring
  rw [found]
  have first := mul_inv_cancel₀ read
  have second := mul_inv_cancel₀ write
  linear_combination -(rowValue key column i .qLookup *
    inverseExists (rowValue key column i) * (rp.gamma + f)⁻¹) * second -
      (rp.gamma + f)⁻¹ * marked + (rowValue key column i .lookupReadCounts *
        inverseExists (rowValue key column i) * (rp.gamma + g)⁻¹) * first

end Relations

section Soundness

variable {committed : (Fin 3 → Fr) → ℕ → Fr[X]} {etas : Fin 3 → Fr} {i : ℕ} {I : Fr[X]}

noncomputable def withInverses (column : ℕ → Fr[X]) (I : Fr[X]) : ℕ → Fr[X] :=
  Function.update column 5 I

theorem lookupPole_withInverses :
    lookupPole key (withInverses column I) = lookupPole key column := by
  funext etas e
  cases e <;> rfl

theorem lookupWeight_withInverses :
    lookupWeight key (withInverses column I) = lookupWeight key column := by
  funext e
  cases e <;> rfl

theorem compressed_sub (etas : Fin 3 → Fr) (x y : Fr × (Fin 3 → Fr)) :
    compressed etas x - compressed etas y = (x.1 - y.1) + ∑ k, etas k * (x.2 k - y.2 k) := by
  simp only [compressed, mul_sub, Finset.sum_sub_distrib]
  ring

theorem card_collisions_le {x y : Fr × (Fin 3 → Fr)} (differs : x ≠ y) (passed : Finset (Fin 3 → Fr))
    (same : ∀ etas ∈ passed, compressed etas x = compressed etas y) :
    passed.card ≤ modulus ^ 2 := by
  have nonzero : x.1 - y.1 ≠ 0 ∨ ∃ k, x.2 k - y.2 k ≠ 0 := by
    by_contra none
    push Not at none
    exact differs (Prod.ext (sub_eq_zero.mp none.1) (funext fun k => sub_eq_zero.mp (none.2 k)))
  have size : Fintype.card Fr = modulus := ZMod.card modulus
  have bound := card_linear_zeros_le nonzero passed fun etas mem => by
    rw [← compressed_sub, same etas mem, sub_self]
  rwa [size] at bound

/-- The rows that look a value up are counted, and no row of the table takes them back. -/
theorem residue_missing (le : n ≤ constProofSizeLogN) (selects : Selects key n)
    (missing : Missing key column n i)
    (apart : ∀ j < 2 ^ n - 4, lookupPole key column etas (.inr j) ≠
      lookupPole key column etas (.inl i)) :
    residue (lookupTerms n) (lookupPole key column etas) (lookupWeight key column)
      (lookupPole key column etas (.inl i)) ≠ 0 := by
  classical
  let same : Finset ℕ := {j ∈ Finset.range (2 ^ n - 4) |
    lookupPole key column etas (.inl j) = lookupPole key column etas (.inl i) ∧
      (key 6).coeff j = 1}
  have counted : residue (lookupTerms n) (lookupPole key column etas) (lookupWeight key column)
      (lookupPole key column etas (.inl i)) = (same.card : Fr) := by
    rw [residue, lookupTerms, Finset.sum_filter, Finset.sum_disjSum]
    have table : ∑ j ∈ Finset.range (2 ^ n - 4), (if lookupPole key column etas (.inr j) =
        lookupPole key column etas (.inl i) then lookupWeight key column (.inr j) else 0) = 0 :=
      Finset.sum_eq_zero fun j mem => if_neg (apart j (Finset.mem_range.mp mem))
    rw [table, add_zero, Finset.card_eq_sum_ones, Nat.cast_sum, Finset.sum_filter]
    refine Finset.sum_congr rfl fun j mem => ?_
    have weight : lookupWeight key column (.inl j) = (key 6).coeff j := rfl
    rw [weight]
    by_cases here : lookupPole key column etas (.inl j) = lookupPole key column etas (.inl i)
    · rcases selects j (Finset.mem_range.mp mem) with off | on
      · rw [if_pos here, off, if_neg fun both => zero_ne_one both.2]
      · rw [if_pos here, on, if_pos ⟨here, rfl⟩, Nat.cast_one]
    · rw [if_neg here, if_neg fun both => here both.1]
  have member : i ∈ same :=
    Finset.mem_filter.mpr ⟨Finset.mem_range.mpr missing.within, rfl, missing.selected⟩
  have positive : 0 < same.card := Finset.card_pos.mpr ⟨i, member⟩
  have few : same.card < modulus := by
    calc same.card ≤ 2 ^ n - 4 := (Finset.card_filter_le _ _).trans (Finset.card_range _).le
      _ ≤ 2 ^ n := Nat.sub_le _ _
      _ ≤ 2 ^ constProofSizeLogN := Nat.pow_le_pow_right two_pos le
      _ < modulus := by decide
  rw [counted]
  intro zero
  have value := congrArg ZMod.val zero
  rw [ZMod.val_natCast_of_lt few, ZMod.val_zero] at value
  omega

/-- Few values of gamma let a missing entry through, for fixed counts and tags. -/
theorem card_gammas_le (le : n ≤ constProofSizeLogN) (selects : Selects key n)
    (missing : Missing key column n i)
    (apart : ∀ j < 2 ^ n - 4, lookupPole key column etas (.inr j) ≠
      lookupPole key column etas (.inl i))
    (passed : Finset Fr)
    (holds : ∀ γ ∈ passed, ∃ (rp : RelationParameters) (I : Fr[X]), etasOf rp = etas ∧
      rp.gamma = γ ∧ LookupsHold (traceColumns key (withInverses column I) n) rp) :
    passed.card ≤ 4 * 2 ^ n := by
  classical
  have terms : (lookupTerms n).card = 2 * (2 ^ n - 4) := by
    rw [lookupTerms, Finset.card_disjSum, Finset.card_range]
    omega
  let poles : Finset Fr := (lookupTerms n).image fun e => -lookupPole key column etas e
  have hidden : (passed \ poles).card ≤ (lookupTerms n).card := by
    have nonzero (γ : Fr) (mem : γ ∈ passed \ poles) (e : ℕ ⊕ ℕ) (inside : e ∈ lookupTerms n) :
        γ + lookupPole key column etas e ≠ 0 := by
      intro zero
      refine (Finset.mem_sdiff.mp mem).2 (Finset.mem_image.mpr ⟨e, inside, ?_⟩)
      linear_combination -zero
    refine card_hidden_poles_le (residue_missing le selects missing apart) _ nonzero
      fun γ mem => ?_
    obtain ⟨rp, I, rfl, rfl, lookups⟩ := holds γ (Finset.mem_sdiff.mp mem).1
    have sum := lookups.sum_eq_zero selects fun e inside => by
      rw [lookupPole_withInverses]
      exact nonzero _ mem e inside
    rwa [lookupPole_withInverses, lookupWeight_withInverses] at sum
  have few : poles.card ≤ (lookupTerms n).card := Finset.card_image_le
  have split := Finset.card_le_card_sdiff_add_card (s := passed) (t := poles)
  omega

/-- A row that looks up what the table does not have passes for few challenges, whatever counts,
tags and inverses the prover commits to. -/
theorem lookups_reject_missing (le : n ≤ constProofSizeLogN) (selects : Selects key n)
    (missing : Missing key column n i) (wires : ∀ etas, ∀ k < 3, committed etas k = column k)
    (passed : Finset ((Fin 3 → Fr) × Fr))
    (holds : ∀ draw ∈ passed, ∃ (rp : RelationParameters) (I : Fr[X]), etasOf rp = draw.1 ∧
      rp.gamma = draw.2 ∧ LookupsHold (traceColumns key (withInverses (committed draw.1) I) n) rp) :
    passed.card ≤ 5 * 2 ^ n * modulus ^ 3 := by
  classical
  have read (etas : Fin 3 → Fr) (j : ℕ) : readEntry (rowValue key (committed etas) j) =
      readEntry (rowValue key column j) := by
    have wire (k : ℕ) (less : k < 3) : committed etas k = column k := wires etas k less
    simp only [readEntry, rowValue, tracePolynomial, Wire.ctorIdx, numberUnshifted]
    simp [wire]
  have table (etas : Fin 3 → Fr) (j : ℕ) : tableEntry (rowValue key (committed etas) j) =
      tableEntry (rowValue key column j) := rfl
  obtain ⟨bad, member⟩ := exists_members fun etas : Fin 3 → Fr =>
    ∃ j ∈ Finset.range (2 ^ n - 4), compressed etas (readEntry (rowValue key column i)) =
      compressed etas (tableEntry (rowValue key column j))
  have few : bad.card ≤ 2 ^ n * modulus ^ 2 := by
    let collides (j : ℕ) : Finset (Fin 3 → Fr) :=
      {etas ∈ bad | compressed etas (readEntry (rowValue key column i)) =
        compressed etas (tableEntry (rowValue key column j))}
    have covered : bad ⊆ (Finset.range (2 ^ n - 4)).biUnion collides := by
      intro etas mem
      obtain ⟨j, row, same⟩ := (member etas).mp mem
      exact Finset.mem_biUnion.mpr ⟨j, row, Finset.mem_filter.mpr ⟨mem, same⟩⟩
    calc bad.card ≤ _ := Finset.card_le_card covered
      _ ≤ ∑ j ∈ Finset.range (2 ^ n - 4), modulus ^ 2 :=
          Finset.card_biUnion_le.trans (Finset.sum_le_sum fun j mem =>
            card_collisions_le (missing.missing j (Finset.mem_range.mp mem)) _
              fun etas inside => (Finset.mem_filter.mp inside).2)
      _ ≤ 2 ^ n * modulus ^ 2 := by
          rw [Finset.sum_const, Finset.card_range, smul_eq_mul]
          exact Nat.mul_le_mul_right _ (Nat.sub_le _ _)
  have fibers : ∀ etas ∉ bad, ∀ fiber : Finset Fr, (∀ γ ∈ fiber, (etas, γ) ∈ passed) →
      fiber.card ≤ 4 * 2 ^ n := by
    intro etas good fiber inside
    have still : Missing key (committed etas) n i :=
      ⟨missing.within, missing.selected, fun j less => by
        rw [read, table]
        exact missing.missing j less⟩
    refine card_gammas_le le selects still (fun j less same => good ((member etas).mpr ?_)) fiber
      fun γ mem => holds (etas, γ) (inside γ mem)
    refine ⟨j, Finset.mem_range.mpr less, ?_⟩
    simp only [lookupPole, read, table] at same
    exact same.symm
  have pairs := card_pairs_le few passed fibers
  simp only [Fintype.card_fun, Fintype.card_fin, ZMod.card] at pairs
  calc passed.card ≤ 2 ^ n * modulus ^ 2 * modulus + modulus ^ 3 * (4 * 2 ^ n) := pairs
    _ = 5 * 2 ^ n * modulus ^ 3 := by ring

end Soundness

section Sample

noncomputable def lookupKey (i : ℕ) : Fr[X] := if i = 6 then 1 else 0

noncomputable def lookupColumn (i : ℕ) : Fr[X] := if i = 1 ∨ i = 6 then 1 else 0

theorem lookupColumn_values (i : ℕ) :
    (∀ wire ∈ [Wire.qLookup, .lookupInverses, .lookupReadCounts],
      rowValue lookupKey (withInverses lookupColumn 1) i wire = (1 : Fr[X]).coeff i) ∧
    ∀ wire ∈ [Wire.lookupReadTags, .wl, .qr, .table1],
      rowValue lookupKey (withInverses lookupColumn 1) i wire = 0 := by
  constructor
  · intro wire mem
    fin_cases mem <;> simp [rowValue, tracePolynomial, numberUnshifted, withInverses, lookupKey,
      lookupColumn, Wire.ctorIdx, Function.update]
  · intro wire mem
    fin_cases mem <;> simp [rowValue, tracePolynomial, numberUnshifted, withInverses, lookupKey,
      lookupColumn, Wire.ctorIdx, Function.update]

theorem lookupColumn_holds : LookupsHold
    (traceColumns lookupKey (withInverses lookupColumn 1) 3) ⟨0, 0, 0, 0, 1, 0⟩ := by
  have first (entry : Fr × (Fin 3 → Fr)) :
      compressed (etasOf ⟨0, 0, 0, 0, 1, 0⟩) entry = entry.1 := by
    simp [compressed, etasOf, Fin.sum_univ_succ]
  have row (i : ℕ) (less : i < 2 ^ 3 - 4) :
      ((traceColumns lookupKey (withInverses lookupColumn 1) 3).row (corner 3 i)
        ⟨0, 0, 0, 0, 1, 0⟩).getD 4 0 = 0 ∧
      ((traceColumns lookupKey (withInverses lookupColumn 1) 3).row (corner 3 i)
        ⟨0, 0, 0, 0, 1, 0⟩).getD 5 0 = 0 := by
    obtain ⟨ones, zeros⟩ := lookupColumn_values i
    obtain ⟨inverses, balanced⟩ := lookup_relation
      (rowValue lookupKey (withInverses lookupColumn 1) i) ⟨0, 0, 0, 0, 1, 0⟩
    rw [Columns.row, traceColumns_corner (by omega), inverses, balanced]
    simp only [first, readEntry, tableEntry, inverseExists,
      ones .qLookup (by decide), ones .lookupInverses (by decide),
      ones .lookupReadCounts (by decide), zeros .lookupReadTags (by decide), zeros .wl (by decide),
      zeros .qr (by decide), zeros .table1 (by decide)]
    constructor <;> ring
  refine ⟨forall_enabledRows.mpr fun i less => (row i less).1, ?_⟩
  rw [sum_enabledRows]
  exact Finset.sum_eq_zero fun i mem => (row i (Finset.mem_range.mp mem)).2

theorem lookupColumn_missing : Missing lookupKey lookupColumn 3 0 where
  within := by decide
  selected := by
    simp [rowValue, tracePolynomial, lookupKey, Wire.ctorIdx]
  missing j _ same := by
    have second := congrFun (Prod.mk.inj same).2 0
    simp [rowValue, tracePolynomial, numberUnshifted, lookupKey,
      lookupColumn, Wire.ctorIdx] at second

theorem lookups_reject_missing_sample :
    ({(![0, 0, 0], 1)} : Finset ((Fin 3 → Fr) × Fr)).card ≤ 5 * 2 ^ 3 * modulus ^ 3 := by
  have selects : Selects lookupKey 3 := by
    intro i _
    have key : lookupKey 6 = 1 := if_pos rfl
    rw [key, coeff_one]
    split_ifs
    · exact .inr rfl
    · exact .inl rfl
  refine lookups_reject_missing (by decide) selects lookupColumn_missing
    (fun _ : Fin 3 → Fr => fun _ _ => rfl) _ ?_
  intro draw mem
  rw [Finset.mem_singleton.mp mem]
  exact ⟨⟨0, 0, 0, 0, 1, 0⟩, 1, rfl, rfl, lookupColumn_holds⟩

end Sample

end Zicket.Verifier
