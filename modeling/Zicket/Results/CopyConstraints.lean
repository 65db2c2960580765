import Zicket.Foundation.CellProducts
import Zicket.Results.Forgery
import Zicket.Verifier.TraceRows

/-! The permutation argument. Its two relations hold of some column for few challenges, unless the
cells under their labels are the cells under the labels of their copies, the public inputs being
put in for the cells that they are wired to. -/

namespace Zicket.Verifier

open Host Foundation Polynomial

variable {n last : ℕ} {key column : ℕ → Fr[X]} {s : Statement} {rp : RelationParameters}
  {β γ : Fr} {Z : Fr[X]}

section Cells

def idCells (p : Wire → Fr) : Multiset (Fr × Fr) :=
  (p .wl, p .id1) ::ₘ (p .wr, p .id2) ::ₘ (p .wo, p .id3) ::ₘ (p .w4, p .id4) ::ₘ 0

def sigmaCells (p : Wire → Fr) : Multiset (Fr × Fr) :=
  (p .wl, p .sigma1) ::ₘ (p .wr, p .sigma2) ::ₘ (p .wo, p .sigma3) ::ₘ (p .w4, p .sigma4) ::ₘ 0

def inputCells (step : Fr) : Fr → List Fr → Multiset (Fr × Fr)
  | _, [] => 0
  | first, x :: inputs => (x, first) ::ₘ inputCells step (first + step) inputs

/-- The words of the public inputs, and the pairing points behind them. -/
def Statement.inputs (s : Statement) : List Fr :=
  (List.range ((s.publicInputs.length + 31) / 32)).map (frWord32 s.publicInputs) ++
    s.proof.pairingPointObject.toList

theorem Statement.inputs_length_lt (s : Statement) : s.inputs.length < modulus := by
  have points : pairingPointsSize = 16 := rfl
  have size : s.inputs.length = s.publicInputsSize := by
    have counted := s.counted
    rw [inputs, List.length_append, List.length_map, List.length_range, Vector.length_toList]
    omega
  have small : 2 ^ 64 < modulus := by decide
  exact size.trans_lt (s.publicInputsSize_lt.trans small)

def Statement.inputLabel (s : Statement) : Fr := -Fr.fromU64 (s.pubInputsOffset + 1)

def Statement.wiredCells (s : Statement) : Multiset (Fr × Fr) :=
  inputCells (-1) s.inputLabel s.inputs

def Statement.copiedCells (s : Statement) : Multiset (Fr × Fr) :=
  inputCells 1 (Fr.fromU64 (s.circuitSize + s.pubInputsOffset)) s.inputs

theorem card_inputCells (step first : Fr) (inputs : List Fr) :
    (inputCells step first inputs).card = inputs.length := by
  induction inputs generalizing first with
  | nil => rfl
  | cons x inputs ih => rw [inputCells, Multiset.card_cons, ih, List.length_cons]

theorem mem_inputCells {step first : Fr} {inputs : List Fr} {cell : Fr × Fr}
    (mem : cell ∈ inputCells step first inputs) :
    ∃ k < inputs.length, cell = (inputs.getD k 0, first + k * step) := by
  induction inputs generalizing first with
  | nil => exact absurd mem (Multiset.notMem_zero cell)
  | cons x inputs ih =>
    rcases Multiset.mem_cons.mp mem with rfl | later
    · exact ⟨0, Nat.succ_pos _, by simp⟩
    · obtain ⟨k, less, rfl⟩ := ih later
      refine ⟨k + 1, Nat.succ_lt_succ less, Prod.ext rfl ?_⟩
      push_cast
      ring

theorem foldl_step_eq (inputs : List Fr) (state : DeltaState) {a b : Fr}
    (numerator : state.numeratorAcc = γ + β * a) (denominator : state.denominatorAcc = γ + β * b) :
    (inputs.foldl (DeltaState.step β) state).numerator =
        state.numerator * cellProduct β γ (inputCells 1 a inputs) ∧
      (inputs.foldl (DeltaState.step β) state).denominator =
        state.denominator * cellProduct β γ (inputCells (-1) b inputs) := by
  induction inputs generalizing state a b with
  | nil => simp [inputCells]
  | cons x inputs ih =>
    have next : (DeltaState.step β state x).numeratorAcc = γ + β * (a + 1) := by
      rw [DeltaState.step, numerator]
      ring
    have before : (DeltaState.step β state x).denominatorAcc = γ + β * (b + -1) := by
      rw [DeltaState.step, denominator]
      ring
    obtain ⟨above, below⟩ := ih (DeltaState.step β state x) next before
    rw [List.foldl_cons, above, below, inputCells, inputCells, cellProduct_cons, cellProduct_cons,
      fingerprint, fingerprint, DeltaState.step, numerator, denominator]
    constructor <;> ring

theorem delta_eq (s : Statement) (β γ : Fr) :
    (s.delta β γ).numerator = cellProduct β γ s.copiedCells ∧
      (s.delta β γ).denominator = cellProduct β γ s.wiredCells := by
  have label : γ - β * Fr.fromU64 (s.pubInputsOffset + 1) = γ + β * s.inputLabel := by
    rw [Statement.inputLabel]
    ring
  obtain ⟨above, below⟩ := foldl_step_eq s.inputs
    { numerator := 1
      denominator := 1
      numeratorAcc := γ + β * Fr.fromU64 (s.circuitSize + s.pubInputsOffset)
      denominatorAcc := γ - β * Fr.fromU64 (s.pubInputsOffset + 1) } rfl label
  rw [one_mul] at above below
  exact ⟨above, below⟩

end Cells

section Rows

/-- The first and the last row of the permutation are marked by the key. -/
structure PermutationRows (key : ℕ → Fr[X]) (n last : ℕ) : Prop where
  first (i : ℕ) : i < 2 ^ n - 4 → (key 25).coeff i = if i = 0 then 1 else 0
  final (i : ℕ) : i < 2 ^ n - 4 → (key 26).coeff i = if i = last then 1 else 0
  within : last < 2 ^ n - 4

/-- The two relations of the permutation, in all rows that relations hold for. -/
def PermutationHolds (cols : Columns n) (rp : RelationParameters) : Prop :=
  ∀ z ∈ enabledRows n, (cols.row z rp).getD 2 0 = 0 ∧ (cols.row z rp).getD 3 0 = 0

/-- The copies of the cells hold the same values, and those of the inputs the inputs. -/
def CopiesHold (s : Statement) (key column : ℕ → Fr[X]) (last : ℕ) : Prop :=
  ∑ i ∈ Finset.range (last + 1), idCells (rowValue key column i) + s.wiredCells =
    ∑ i ∈ Finset.range (last + 1), sigmaCells (rowValue key column i) + s.copiedCells

noncomputable def withProduct (column : ℕ → Fr[X]) (Z : Fr[X]) : ℕ → Fr[X] :=
  Function.update column 4 Z

theorem rowValue_withProduct {i : ℕ} {wire : Wire}
    (other : wire.ctorIdx ≠ 31 ∧ wire.ctorIdx ≠ 39) :
    rowValue key (withProduct column Z) i wire = rowValue key column i wire := by
  have unshifted : numberUnshifted = 35 := rfl
  rw [rowValue, rowValue, tracePolynomial, tracePolynomial]
  split_ifs with fixed own
  · rfl
  · rw [withProduct, Function.update_of_ne (by omega)]
  · rw [withProduct, Function.update_of_ne (by omega)]

theorem idCells_withProduct (i : ℕ) : idCells (rowValue key (withProduct column Z) i) =
    idCells (rowValue key column i) := by
  simp (disch := decide) only [idCells, rowValue_withProduct]

theorem sigmaCells_withProduct (i : ℕ) : sigmaCells (rowValue key (withProduct column Z) i) =
    sigmaCells (rowValue key column i) := by
  simp (disch := decide) only [sigmaCells, rowValue_withProduct]

theorem rowValue_product (key column : ℕ → Fr[X]) (Z : Fr[X]) (i : ℕ) :
    rowValue key (withProduct column Z) i .zPerm = Z.coeff i ∧
      rowValue key (withProduct column Z) i .zPermShift = Z.coeff (i + 1) ∧
      rowValue key (withProduct column Z) i .lagrangeFirst = (key 25).coeff i ∧
      rowValue key (withProduct column Z) i .lagrangeLast = (key 26).coeff i := by
  refine ⟨rfl, ?_, rfl, rfl⟩
  exact coeff_divX

theorem permutationHolds_iff (rows : PermutationRows key n last) :
    PermutationHolds (traceColumns key (withProduct column Z) n) rp ↔
      (∀ i < 2 ^ n - 4,
        (Z.coeff i + if i = 0 then 1 else 0) *
            cellProduct rp.beta rp.gamma (idCells (rowValue key column i)) =
          (Z.coeff (i + 1) + if i = last then rp.publicInputsDelta else 0) *
            cellProduct rp.beta rp.gamma (sigmaCells (rowValue key column i))) ∧
        Z.coeff (last + 1) = 0 := by
  have row (i : ℕ) (less : i < 2 ^ n - 4) :
      ((traceColumns key (withProduct column Z) n).row (corner n i) rp).getD 2 0 =
        (Z.coeff i + if i = 0 then 1 else 0) *
            cellProduct rp.beta rp.gamma (idCells (rowValue key column i)) -
          (Z.coeff (i + 1) + if i = last then rp.publicInputsDelta else 0) *
            cellProduct rp.beta rp.gamma (sigmaCells (rowValue key column i)) ∧
      ((traceColumns key (withProduct column Z) n).row (corner n i) rp).getD 3 0 =
        if i = last then Z.coeff (i + 1) else 0 := by
    have small : i < 2 ^ n := by omega
    obtain ⟨product, shifted, first, final⟩ := rowValue_product key column Z i
    rw [rows.first i less] at first
    rw [rows.final i less] at final
    rw [Columns.row, traceColumns_corner small, ← idCells_withProduct (Z := Z),
      ← sigmaCells_withProduct (Z := Z)]
    constructor
    · change ((_ + _) * _ - (_ + _ * _) * _) * 1 = _
      rw [product, shifted, first, final]
      simp only [idCells, sigmaCells, cellProduct_cons, cellProduct_zero, fingerprint, ite_mul,
        one_mul, zero_mul]
      ring
    · change _ * _ * 1 = _
      rw [shifted, final, ite_mul, one_mul, zero_mul, mul_one]
  rw [PermutationHolds, forall_enabledRows]
  constructor
  · intro holds
    refine ⟨fun i less => ?_, ?_⟩
    · have step := (holds i less).1
      rw [(row i less).1, sub_eq_zero] at step
      exact step
    · have stop := (holds last rows.within).2
      rwa [(row last rows.within).2, if_pos rfl] at stop
  · rintro ⟨steps, stop⟩ i less
    rw [(row i less).1, (row i less).2, sub_eq_zero]
    refine ⟨steps i less, ?_⟩
    split_ifs with here
    · rw [here, stop]
    · rfl

end Rows

section Argument

structure Delta (s : Statement) (rp : RelationParameters) : Prop where
  invertible : (s.delta rp.beta rp.gamma).denominator ≠ 0
  value : rp.publicInputsDelta =
    (s.delta rp.beta rp.gamma).numerator * (s.delta rp.beta rp.gamma).denominator⁻¹

theorem sameProduct_of_holds (rows : PermutationRows key n last) (delta : Delta s rp)
    (starts : Z.coeff 0 = 0)
    (holds : PermutationHolds (traceColumns key (withProduct column Z) n) rp) :
    cellProduct rp.beta rp.gamma
        (∑ i ∈ Finset.range (last + 1), idCells (rowValue key column i) + s.wiredCells) =
      cellProduct rp.beta rp.gamma
        (∑ i ∈ Finset.range (last + 1), sigmaCells (rowValue key column i) + s.copiedCells) := by
  obtain ⟨above, below⟩ := delta_eq s rp.beta rp.gamma
  obtain ⟨steps, stop⟩ := (permutationHolds_iff rows).mp holds
  have running : IsRunningProduct
      (fun i => cellProduct rp.beta rp.gamma (idCells (rowValue key column i)))
      (fun i => cellProduct rp.beta rp.gamma (sigmaCells (rowValue key column i)))
      Z.coeff last rp.publicInputsDelta :=
    ⟨fun i le => steps i (le.trans_lt rows.within), starts, stop⟩
  have factor : rp.publicInputsDelta * (s.delta rp.beta rp.gamma).denominator =
      (s.delta rp.beta rp.gamma).numerator := by
    rw [delta.value, inv_mul_cancel_right₀ delta.invertible]
  rw [cellProduct_add, cellProduct_add, cellProduct_sum, cellProduct_sum, running.prod_eq, ← above,
    ← below, ← factor]
  ring

noncomputable def productColumn (key column : ℕ → Fr[X]) (last : ℕ) (β γ : Fr) : Fr[X] :=
  ∑ i ∈ Finset.range (last + 1), monomial i (runningProduct
    (fun i => cellProduct β γ (idCells (rowValue key column i)))
    (fun i => cellProduct β γ (sigmaCells (rowValue key column i))) last i)

theorem coeff_productColumn (i : ℕ) : (productColumn key column last β γ).coeff i =
    runningProduct (fun i => cellProduct β γ (idCells (rowValue key column i)))
      (fun i => cellProduct β γ (sigmaCells (rowValue key column i))) last i := by
  rw [productColumn, finsetSum_coeff]
  simp only [coeff_monomial, Finset.sum_ite_eq', Finset.mem_range]
  split_ifs with within
  · rfl
  · rw [runningProduct_beyond (by omega)]

theorem natDegree_productColumn_le : (productColumn key column last β γ).natDegree ≤ last :=
  natDegree_sum_le_of_forall_le _ _ fun _ mem => (natDegree_monomial_le _).trans
    (Nat.lt_succ_iff.mp (Finset.mem_range.mp mem))

theorem productColumn_holds (rows : PermutationRows key n last) (delta : Delta s rp)
    (copies : CopiesHold s key column last)
    (nonzero : ∀ i ≤ last, cellProduct rp.beta rp.gamma (sigmaCells (rowValue key column i)) ≠ 0) :
    PermutationHolds
      (traceColumns key (withProduct column (productColumn key column last rp.beta rp.gamma)) n)
      rp := by
  obtain ⟨above, below⟩ := delta_eq s rp.beta rp.gamma
  have products := congrArg (cellProduct rp.beta rp.gamma) copies
  rw [cellProduct_add, cellProduct_add, cellProduct_sum, cellProduct_sum, ← above, ← below]
    at products
  have total : ∏ i ∈ Finset.range (last + 1),
        cellProduct rp.beta rp.gamma (idCells (rowValue key column i)) =
      rp.publicInputsDelta * ∏ i ∈ Finset.range (last + 1),
        cellProduct rp.beta rp.gamma (sigmaCells (rowValue key column i)) := by
    refine mul_right_cancel₀ delta.invertible (products.trans ?_)
    rw [delta.value]
    have inverse := inv_mul_cancel₀ delta.invertible
    linear_combination -(s.delta rp.beta rp.gamma).numerator * (∏ i ∈ Finset.range (last + 1),
      cellProduct rp.beta rp.gamma (sigmaCells (rowValue key column i))) * inverse
  have running := isRunningProduct_runningProduct nonzero total
  refine (permutationHolds_iff rows).mpr ⟨fun i _ => ?_, ?_⟩
  · rw [coeff_productColumn, coeff_productColumn]
    by_cases le : i ≤ last
    · exact running.step i le
    · rw [runningProduct_beyond (by omega), runningProduct_beyond (by omega), if_neg (by omega),
        if_neg (by omega), add_zero, zero_mul, zero_mul]
  · rw [coeff_productColumn]
    exact running.stop

/-- Challenges for which some column proves the copies. -/
def Proves (s : Statement) (key column : ℕ → Fr[X]) (n : ℕ) (draw : Fr × Fr) : Prop :=
  ∃ (rp : RelationParameters) (Z : Fr[X]), rp.beta = draw.1 ∧ rp.gamma = draw.2 ∧ Delta s rp ∧
    Z.coeff 0 = 0 ∧ PermutationHolds (traceColumns key (withProduct column Z) n) rp

theorem card_proves_le (rows : PermutationRows key n last)
    (broken : ¬ CopiesHold s key column last) (passed : Finset (Fr × Fr))
    (proves : ∀ draw ∈ passed, Proves s key column n draw) :
    passed.card ≤ (4 * (last + 1) + s.inputs.length) * modulus := by
  have cells (cells : (Wire → Fr) → Multiset (Fr × Fr)) (four : ∀ p, (cells p).card = 4) :
      (∑ i ∈ Finset.range (last + 1), cells (rowValue key column i)).card = 4 * (last + 1) := by
    rw [Multiset.card_sum, Finset.sum_congr rfl fun i _ => four _, Finset.sum_const,
      Finset.card_range, smul_eq_mul, Nat.mul_comm]
  have bound := card_sameProduct_le broken (m := 4 * (last + 1) + s.inputs.length) ?_ ?_ passed ?_
  · rwa [ZMod.card] at bound
  · rw [Multiset.card_add, cells idCells fun _ => rfl, Statement.wiredCells, card_inputCells]
  · rw [Multiset.card_add, cells sigmaCells fun _ => rfl, Statement.copiedCells, card_inputCells]
  · intro draw mem
    obtain ⟨rp, Z, beta, gamma, delta, starts, holds⟩ := proves draw mem
    rw [← beta, ← gamma]
    exact sameProduct_of_holds rows delta starts holds

/-- The permutation relations decide the copies: where they hold, the product column satisfies the
relations at all challenges but those where a fingerprint vanishes, and where they do not, few
challenges have a column that satisfies the relations. -/
theorem permutation_decides_copies (rows : PermutationRows key n last) (s : Statement)
    (column : ℕ → Fr[X]) :
    (CopiesHold s key column last → ∀ rp, Delta s rp →
      (∀ i ≤ last, cellProduct rp.beta rp.gamma (sigmaCells (rowValue key column i)) ≠ 0) →
        ∃ Z : Fr[X], Z.natDegree < 2 ^ n ∧ Z.coeff 0 = 0 ∧
          PermutationHolds (traceColumns key (withProduct column Z) n) rp) ∧
    (¬ CopiesHold s key column last → ∀ passed : Finset (Fr × Fr),
      (∀ draw ∈ passed, Proves s key column n draw) →
        passed.card ≤ (4 * (last + 1) + s.inputs.length) * modulus) := by
  refine ⟨fun copies rp delta nonzero => ?_, fun broken => card_proves_le rows broken⟩
  refine ⟨productColumn key column last rp.beta rp.gamma, ?_, ?_,
    productColumn_holds rows delta copies nonzero⟩
  · have within := rows.within
    exact natDegree_productColumn_le.trans_lt (by omega)
  · rw [coeff_productColumn, runningProduct, if_pos (.inl rfl)]

/-- A cell that is wired to a public input: no cell has the label of an input. -/
structure WiredInput (s : Statement) (key column : ℕ → Fr[X]) (last k : ℕ) (value : Fr) : Prop where
  input : k < s.inputs.length
  copied : ∃ i ≤ last, (value, s.inputLabel - k) ∈ sigmaCells (rowValue key column i)
  fresh (i : ℕ) (cell : Fr × Fr) : i ≤ last → cell ∈ idCells (rowValue key column i) →
    ∀ j < s.inputs.length, cell.2 ≠ s.inputLabel - j

theorem CopiesHold.input (copies : CopiesHold s key column last) {k : ℕ} {value : Fr}
    (wired : WiredInput s key column last k value) :
    value = s.inputs.getD k 0 := by
  obtain ⟨i, le, copied⟩ := wired.copied
  have inside : (value, s.inputLabel - k) ∈
      ∑ i ∈ Finset.range (last + 1), sigmaCells (rowValue key column i) + s.copiedCells :=
    Multiset.mem_add.mpr (.inl (Multiset.mem_sum.mpr
      ⟨i, Finset.mem_range.mpr (Nat.lt_succ_of_le le), copied⟩))
  rw [← copies] at inside
  rcases Multiset.mem_add.mp inside with own | input
  · obtain ⟨j, mem, cell⟩ := Multiset.mem_sum.mp own
    have row := Nat.lt_succ_iff.mp (Finset.mem_range.mp mem)
    exact absurd rfl (wired.fresh j _ row cell k wired.input)
  · obtain ⟨j, less, same⟩ := mem_inputCells input
    obtain ⟨equal, label⟩ := Prod.mk.inj same
    have index : (k : Fr) = j := by linear_combination -label
    have position : k = j := by
      have values := congrArg ZMod.val index
      rwa [ZMod.val_natCast_of_lt (wired.input.trans s.inputs_length_lt),
        ZMod.val_natCast_of_lt (less.trans s.inputs_length_lt)] at values
    rw [equal, position]

/-- A cell wired to a public input that holds another value passes for few challenges. -/
theorem permutation_rejects_wrong_inputs (rows : PermutationRows key n last) {k : ℕ} {value : Fr}
    (wired : WiredInput s key column last k value)
    (wrong : value ≠ s.inputs.getD k 0) (passed : Finset (Fr × Fr))
    (proves : ∀ draw ∈ passed, Proves s key column n draw) :
    passed.card ≤ (4 * (last + 1) + s.inputs.length) * modulus :=
  card_proves_le rows (fun copies => wrong (copies.input wired)) passed proves

end Argument

section Sample

def twoRowStatement : Statement :=
  { eightRowStatement with
    publicInputs := pushScalars (Vector.replicate 5 0)
    circuitSize := 2
    circuitSize_lt := by decide
    counted := congrArg (· + pairingPointsSize * 32) (pushScalars_length (Vector.replicate 5 0)) }

noncomputable def wiredKey (i : ℕ) : Fr[X] :=
  if i = 13 then C twoRowStatement.inputLabel else if i = 25 ∨ i = 26 then 1 else 0

noncomputable def oneCell (i : ℕ) : Fr[X] := if i = 0 then 1 else 0

theorem wiredKey_rows : PermutationRows wiredKey 3 0 where
  first i _ := by
    rw [wiredKey, if_neg (by decide), if_pos (by decide), coeff_one]
  final i _ := by
    rw [wiredKey, if_neg (by decide), if_pos (by decide), coeff_one]
  within := by decide

set_option maxRecDepth 20000 in
theorem twoRow_delta :
    (twoRowStatement.delta 0 1).numerator = 1 ∧ (twoRowStatement.delta 0 1).denominator = 1 := by
  decide +kernel

theorem twoRow_inputs : twoRowStatement.inputs = List.replicate 21 0 := by
  decide +kernel

theorem cellProduct_labels (p : Wire → Fr) :
    cellProduct 0 γ (idCells p) = cellProduct 0 γ (sigmaCells p) := by
  simp only [idCells, sigmaCells, cellProduct_cons, fingerprint, mul_zero]

theorem oneCell_proves : Proves twoRowStatement wiredKey oneCell 3 (0, 1) := by
  obtain ⟨above, below⟩ := twoRow_delta
  refine ⟨⟨0, 0, 0, 0, 1, 1⟩, 0, rfl, rfl, ⟨?_, ?_⟩, coeff_zero 0, ?_⟩
  · change (twoRowStatement.delta 0 1).denominator ≠ 0
    rw [below]
    exact one_ne_zero
  · change 1 = (twoRowStatement.delta 0 1).numerator * (twoRowStatement.delta 0 1).denominator⁻¹
    rw [above, below, inv_one, mul_one]
  · refine (permutationHolds_iff wiredKey_rows).mpr ⟨fun i _ => ?_, coeff_zero 1⟩
    rw [coeff_zero, coeff_zero]
    exact congrArg _ (cellProduct_labels _)

theorem oneCell_passed (draw : Fr × Fr) (mem : draw ∈ ({(0, 1)} : Finset (Fr × Fr))) :
    Proves twoRowStatement wiredKey oneCell 3 draw := by
  rw [Finset.mem_singleton.mp mem]
  exact oneCell_proves

theorem oneCell_wired : WiredInput twoRowStatement wiredKey oneCell 0 0 1 where
  input := by
    rw [twoRow_inputs]
    decide
  copied := by
    refine ⟨0, le_rfl, Multiset.mem_cons.mpr (.inl (Prod.ext ?_ ?_))⟩
    · simp [rowValue, tracePolynomial, numberUnshifted, oneCell, Wire.ctorIdx]
    · simp [rowValue, tracePolynomial, wiredKey, Wire.ctorIdx]
  fresh i cell _ mem j less same := by
    have label : cell.2 = 0 := by
      simp only [idCells, Multiset.mem_cons, Multiset.notMem_zero, or_false] at mem
      rcases mem with rfl | rfl | rfl | rfl <;>
        simp [rowValue, tracePolynomial, wiredKey, Wire.ctorIdx]
    rw [twoRow_inputs, List.length_replicate] at less
    have sum : ((2 + j : ℕ) : Fr) = 0 := by
      have first : twoRowStatement.inputLabel = -((2 : ℕ) : Fr) := rfl
      rw [label, first] at same
      push_cast at same ⊢
      linear_combination same
    have small : 2 + j < modulus := by
      have large : 23 < modulus := by decide
      omega
    have value := congrArg ZMod.val sum
    rw [ZMod.val_natCast_of_lt small, ZMod.val_zero] at value
    omega

theorem permutation_decides_copies_sample :
    ¬ CopiesHold twoRowStatement wiredKey oneCell 0 ∧
      ({(0, 1)} : Finset (Fr × Fr)).card ≤
        (4 * (0 + 1) + twoRowStatement.inputs.length) * modulus := by
  have broken : ¬ CopiesHold twoRowStatement wiredKey oneCell 0 := by
    intro copies
    have input := copies.input oneCell_wired
    rw [twoRow_inputs] at input
    exact one_ne_zero input
  exact ⟨broken, (permutation_decides_copies wiredKey_rows twoRowStatement oneCell).2 broken _
    oneCell_passed⟩

theorem permutation_rejects_wrong_inputs_sample :
    ({(0, 1)} : Finset (Fr × Fr)).card ≤
      (4 * (0 + 1) + twoRowStatement.inputs.length) * modulus := by
  have wrong : (1 : Fr) ≠ twoRowStatement.inputs.getD 0 0 := by
    rw [twoRow_inputs]
    exact one_ne_zero
  exact permutation_rejects_wrong_inputs wiredKey_rows oneCell_wired wrong _ oneCell_passed

end Sample

end Zicket.Verifier
