import Mathlib.Data.List.Induction
import Mathlib.Data.List.Infix

/-! Runs of a deterministic machine: a state, a list of labels and the step `next`.
`Along` holds of a run each of whose steps meets a condition on the label and on the
state before the step, `Throughout` of one whose steps meet a condition on what ran before;
the rules below carry a one-step fact to every run. `latest` is what a run told last,
`told` all it told, `firings` how often it fired. -/

namespace Zicket.Foundation

variable {σ ℓ : Type} (next : σ → ℓ → σ)

def run (s : σ) (labels : List ℓ) : σ := labels.foldl next s

@[simp] theorem run_nil (s : σ) : run next s [] = s := rfl

@[simp] theorem run_cons (s : σ) (l : ℓ) (labels : List ℓ) :
    run next s (l :: labels) = run next (next s l) labels := rfl

theorem run_append (s : σ) (first second : List ℓ) :
    run next s (first ++ second) = run next (run next s first) second :=
  List.foldl_append

def Along (P : σ → ℓ → Prop) : σ → List ℓ → Prop
  | _, [] => True
  | s, l :: labels => P s l ∧ Along P (next s l) labels

instance decidableAlong (P : σ → ℓ → Prop) [∀ s l, Decidable (P s l)] :
    ∀ (s : σ) (labels : List ℓ), Decidable (Along next P s labels)
  | _, [] => .isTrue trivial
  | s, l :: labels =>
    have := decidableAlong P (next s l) labels
    inferInstanceAs (Decidable (P s l ∧ Along next P (next s l) labels))

variable {next}

theorem along_append {P : σ → ℓ → Prop} {s : σ} {first second : List ℓ} :
    Along next P s (first ++ second) ↔
      Along next P s first ∧ Along next P (run next s first) second := by
  induction first generalizing s with
  | nil => simp [Along]
  | cons l labels ih => simp [Along, ih, and_assoc]

@[simp] theorem along_singleton {P : σ → ℓ → Prop} {s : σ} {l : ℓ} :
    Along next P s [l] ↔ P s l := by
  simp [Along]

theorem Along.mono {P Q : σ → ℓ → Prop} {s : σ} {labels : List ℓ}
    (h : ∀ s l, P s l → Q s l) (along : Along next P s labels) : Along next Q s labels := by
  induction labels generalizing s with
  | nil => trivial
  | cons l labels ih => exact ⟨h s l along.1, ih along.2⟩

theorem Along.and {P Q : σ → ℓ → Prop} {s : σ} {labels : List ℓ}
    (hP : Along next P s labels) (hQ : Along next Q s labels) :
    Along next (fun s l => P s l ∧ Q s l) s labels := by
  induction labels generalizing s with
  | nil => trivial
  | cons l labels ih => exact ⟨⟨hP.1, hQ.1⟩, ih hP.2 hQ.2⟩

theorem along_of_forall {P : σ → ℓ → Prop} (h : ∀ s l, P s l) (s : σ) (labels : List ℓ) :
    Along next P s labels := by
  induction labels generalizing s with
  | nil => trivial
  | cons l labels ih => exact ⟨h s l, ih _⟩

theorem along_of_mem {P : σ → ℓ → Prop} {labels : List ℓ} (h : ∀ l ∈ labels, ∀ s, P s l) (s : σ) :
    Along next P s labels := by
  induction labels generalizing s with
  | nil => trivial
  | cons l labels ih =>
    exact ⟨h l (List.mem_cons_self ..) s, ih (fun l mem => h l (List.mem_cons_of_mem _ mem)) _⟩

theorem Along.exists_of_mem {P : σ → ℓ → Prop} {s : σ} {labels : List ℓ}
    (along : Along next P s labels) {l : ℓ} (mem : l ∈ labels) : ∃ s', P s' l := by
  induction labels generalizing s with
  | nil => cases mem
  | cons first labels ih =>
    obtain rfl | mem := List.mem_cons.mp mem
    · exact ⟨s, along.1⟩
    · exact ih along.2 mem

/-- The invariant rule: steps that meet `P` keep `I`, so runs that meet `P` keep `I`. -/
theorem run_invariant {P : σ → ℓ → Prop} {I : σ → Prop}
    (step : ∀ s l, I s → P s l → I (next s l)) {s : σ} {labels : List ℓ}
    (along : Along next P s labels) (h : I s) : I (run next s labels) := by
  induction labels generalizing s with
  | nil => exact h
  | cons l labels ih => exact ih along.2 (step s l h along.1)

/-- A condition that only holds under an invariant may use the invariant at every step. -/
theorem Along.strengthen {P : σ → ℓ → Prop} {I : σ → Prop}
    (step : ∀ s l, I s → P s l → I (next s l)) {s : σ} {labels : List ℓ}
    (along : Along next P s labels) (h : I s) :
    Along next (fun s l => I s ∧ P s l) s labels := by
  induction labels generalizing s with
  | nil => trivial
  | cons l labels ih => exact ⟨⟨h, along.1⟩, ih along.2 (step s l h along.1)⟩

theorem along_congr {P Q : σ → ℓ → Prop} {I : σ → Prop} (inv : ∀ s l, I s → I (next s l))
    (same : ∀ s l, I s → (P s l ↔ Q s l)) {s : σ} {labels : List ℓ} (h : I s) :
    Along next P s labels ↔ Along next Q s labels := by
  induction labels generalizing s with
  | nil => exact Iff.rfl
  | cons l labels ih => exact and_congr (same s l h) (ih (inv s l h))

/-- What holds after a run and not before it, some step of the run brings about. -/
theorem exists_first {P : σ → Prop} {s : σ} {labels : List ℓ} (before : ¬ P s)
    (after : P (run next s labels)) : ∃ past l rest, labels = past ++ l :: rest ∧
      ¬ P (run next s past) ∧ P (next (run next s past) l) := by
  induction labels generalizing s with
  | nil => exact absurd after before
  | cons l labels ih =>
    by_cases here : P (next s l)
    · exact ⟨[], l, labels, rfl, before, here⟩
    · obtain ⟨past, l', rest, rfl, not_yet, then_⟩ := ih here after
      exact ⟨l :: past, l', rest, rfl, not_yet, then_⟩

section Throughout

variable {P : List ℓ → ℓ → Prop} {labels : List ℓ}

def Throughout (P : List ℓ → ℓ → Prop) (labels : List ℓ) : Prop :=
  ∀ before l, before ++ [l] <+: labels → P before l

theorem throughout_append_singleton {l : ℓ} :
    Throughout P (labels ++ [l]) ↔ Throughout P labels ∧ P labels l := by
  constructor
  · intro h
    exact ⟨fun before m le => h before m (le.trans (List.prefix_append ..)), h labels l (List.prefix_refl _)⟩
  · rintro ⟨h, last⟩ before m le
    obtain same | le := List.prefix_concat_iff.mp le
    · obtain ⟨rfl, eq⟩ := List.append_inj' same rfl
      exact List.singleton_inj.mp eq ▸ last
    · exact h before m le

theorem along_iff_throughout {Q : σ → ℓ → Prop} {s : σ} :
    Along next Q s labels ↔ Throughout (fun before l => Q (run next s before) l) labels := by
  induction labels using List.reverseRecOn with
  | nil =>
    refine ⟨fun _ before l le => ?_, fun _ => trivial⟩
    have := le.length_le
    simp at this
  | append_singleton labels l ih =>
    rw [along_append, along_singleton, throughout_append_singleton, ih]

/-- What starts out true and each step keeps exactly when it meets `P` is true all along
exactly when every step meets `P`. -/
theorem prefixes_iff_throughout {I : List ℓ → Prop} (base : I [])
    (step : ∀ before l, I before → (I (before ++ [l]) ↔ P before l)) :
    (∀ before, before <+: labels → I before) ↔ Throughout P labels := by
  constructor
  · intro h before l le
    exact (step before l (h before ((List.prefix_append ..).trans le))).mp (h _ le)
  · intro h before
    induction before using List.reverseRecOn with
    | nil => exact fun _ => base
    | append_singleton before l ih =>
      intro le
      exact (step before l (ih ((List.prefix_append ..).trans le))).mpr (h before l le)

/-- A property of the states and one of the steps hold all along exactly when every step
meets a condition, if one step shows it. -/
theorem prefixes_and_along_iff {I J : σ → Prop} {K P C : σ → ℓ → Prop}
    (inv : ∀ s l, I s → K s l → I (next s l))
    (step : ∀ s l, I s → K s l → J s → (J (next s l) ∧ P s l ↔ C s l)) {s : σ}
    (along : Along next K s labels) (base : I s) (start : J s) :
    (∀ before, before <+: labels → J (run next s before)) ∧ Along next P s labels ↔
      Along next C s labels := by
  induction labels generalizing s with
  | nil =>
    refine ⟨fun _ => trivial, fun _ => ⟨fun before le => ?_, trivial⟩⟩
    rw [List.prefix_nil.mp le]
    exact start
  | cons l labels ih =>
    have one := step s l base along.1 start
    have rest (next_start : J (next s l)) := ih along.2 (inv s l base along.1) next_start
    constructor
    · rintro ⟨states, steps⟩
      have next_start : J (next s l) := states [l] ⟨labels, rfl⟩
      refine ⟨one.mp ⟨next_start, steps.1⟩, (rest next_start).mp ⟨fun before le => ?_, steps.2⟩⟩
      exact states (l :: before) (List.prefix_cons_inj l |>.mpr le)
    · rintro ⟨meets, later⟩
      obtain ⟨next_start, pays⟩ := one.mpr meets
      obtain ⟨states, steps⟩ := (rest next_start).mpr later
      refine ⟨fun before le => ?_, pays, steps⟩
      obtain rfl | ⟨tail, rfl, shorter⟩ := List.prefix_cons_iff.mp le
      · exact start
      · exact states tail shorter

end Throughout

section History

variable {α : Type} (next) (tell : σ → ℓ → Option α)

def latest : σ → List ℓ → Option α
  | _, [] => none
  | s, l :: labels => (latest (next s l) labels).or (tell s l)

def told : σ → List ℓ → List α
  | _, [] => []
  | s, l :: labels => told (next s l) labels ++ (tell s l).toList

variable {next tell}

theorem latest_append_singleton (s : σ) (labels : List ℓ) (l : ℓ) :
    latest next tell s (labels ++ [l]) =
      (tell (run next s labels) l).or (latest next tell s labels) := by
  induction labels generalizing s with
  | nil => simp [latest]
  | cons first labels ih => simp [latest, ih, Option.or_assoc]

theorem told_append_singleton (s : σ) (labels : List ℓ) (l : ℓ) :
    told next tell s (labels ++ [l]) =
      (tell (run next s labels) l).toList ++ told next tell s labels := by
  induction labels generalizing s with
  | nil => simp [told]
  | cons first labels ih => simp [told, ih]

theorem latest_eq_none {s : σ} {labels : List ℓ} (silent : ∀ l ∈ labels, ∀ s, tell s l = none) :
    latest next tell s labels = none := by
  induction labels generalizing s with
  | nil => rfl
  | cons l labels ih =>
    rw [latest, ih fun l mem => silent l (List.mem_cons_of_mem _ mem),
      silent l (List.mem_cons_self ..), Option.or_none]

/-- The invariant rule for a state and what was last told about it. -/
theorem latest_invariant {P : σ → ℓ → Prop} {I : Option α → σ → Prop}
    (step : ∀ o s l, I o s → P s l → I ((tell s l).or o) (next s l)) {s : σ} {labels : List ℓ}
    (along : Along next P s labels) {o : Option α} (h : I o s) :
    I ((latest next tell s labels).or o) (run next s labels) := by
  induction labels generalizing s o with
  | nil => exact h
  | cons l labels ih =>
    rw [latest, Option.or_assoc]
    exact ih along.2 (step o s l h along.1)

theorem told_invariant {P : σ → ℓ → Prop} {I : List α → σ → Prop}
    (step : ∀ past s l, I past s → P s l → I ((tell s l).toList ++ past) (next s l)) {s : σ}
    {labels : List ℓ} (along : Along next P s labels) {past : List α} (h : I past s) :
    I (told next tell s labels ++ past) (run next s labels) := by
  induction labels generalizing s past with
  | nil => exact h
  | cons l labels ih =>
    rw [told, List.append_assoc]
    exact ih along.2 (step past s l h along.1)

end History

section Firing

variable (next) (fires : σ → ℓ → Prop) [∀ s l, Decidable (fires s l)]

def firings : σ → List ℓ → Nat
  | _, [] => 0
  | s, l :: labels => (if fires s l then 1 else 0) + firings (next s l) labels

variable {next fires}

theorem firings_latched {latched : σ → Prop}
    (stays : ∀ s l, latched s → latched (next s l))
    (blocks : ∀ s l, latched s → ¬ fires s l)
    (s : σ) (labels : List ℓ) (h : latched s) : firings next fires s labels = 0 := by
  induction labels generalizing s with
  | nil => rfl
  | cons l labels ih => simp [firings, blocks s l h, ih _ (stays s l h)]

/-- The latch rule: a step that fires sets a latch, the latch stays and a latched
state does not fire, so a run fires at most once. -/
theorem firings_le_one {I latched : σ → Prop}
    (inv : ∀ s l, I s → I (next s l))
    (sets : ∀ s l, I s → fires s l → latched (next s l))
    (stays : ∀ s l, latched s → latched (next s l))
    (blocks : ∀ s l, latched s → ¬ fires s l)
    (s : σ) (labels : List ℓ) (h : I s) : firings next fires s labels ≤ 1 := by
  induction labels generalizing s with
  | nil => exact Nat.zero_le 1
  | cons l labels ih =>
    by_cases fired : fires s l
    · have rest := firings_latched stays blocks (next s l) labels (sets s l h fired)
      simp [firings, fired, rest]
    · simpa [firings, fired] using ih _ (inv s l h)

theorem firings_append (s : σ) (first second : List ℓ) :
    firings next fires s (first ++ second) =
      firings next fires s first + firings next fires (run next s first) second := by
  induction first generalizing s with
  | nil => simp [firings]
  | cons l labels ih => simp [firings, ih, Nat.add_assoc]

/-- The latch rule for a run whose steps meet `P`, where a step that meets it does not fire on
a latched state. -/
theorem firings_le_one_along {P : σ → ℓ → Prop} {latched : σ → Prop}
    (sets : ∀ s l, fires s l → latched (next s l))
    (stays : ∀ s l, latched s → latched (next s l))
    (blocks : ∀ s l, latched s → P s l → ¬ fires s l)
    {s : σ} {labels : List ℓ} (along : Along next P s labels) :
    firings next fires s labels ≤ 1 ∧ (latched s → firings next fires s labels = 0) := by
  induction labels generalizing s with
  | nil => exact ⟨Nat.zero_le 1, fun _ => rfl⟩
  | cons l labels ih =>
    obtain ⟨once, none⟩ := ih along.2
    constructor
    · by_cases fired : fires s l
      · simp [firings, fired, none (sets s l fired)]
      · simpa [firings, fired] using once
    · intro h
      simp [firings, blocks s l h along.1, none (stays s l h)]

theorem firings_pos {P : σ → Prop} (brings : ∀ s l, ¬ P s → P (next s l) → fires s l) {s : σ}
    {labels : List ℓ} (before : ¬ P s) (after : P (run next s labels)) :
    1 ≤ firings next fires s labels := by
  obtain ⟨past, l, rest, rfl, not_yet, then_⟩ := exists_first before after
  rw [firings_append, firings, if_pos (brings _ _ not_yet then_)]
  omega

/-- A counter that goes up whenever a step fires bounds how often a run does. -/
theorem add_firings_le_counter {count : σ → Nat}
    (counts : ∀ s l, count s + (if fires s l then 1 else 0) ≤ count (next s l))
    (s : σ) (labels : List ℓ) :
    count s + firings next fires s labels ≤ count (run next s labels) := by
  induction labels generalizing s with
  | nil => exact le_rfl
  | cons l labels ih =>
    have first := counts s l
    have rest := ih (next s l)
    rw [firings, run_cons]
    omega

end Firing

end Zicket.Foundation
