import Mathlib.Algebra.BigOperators.Finprod
import Mathlib.Algebra.BigOperators.Group.Finset.Basic
import Mathlib.Algebra.Order.BigOperators.Group.Finset
import Mathlib.Tactic.Linarith

/-! Integer totals kept by hand: over a table of records numbered `1..n`, over a log,
and over the keys a log is sorted by. Each changes by what an update changes. -/

namespace Zicket.Foundation

open Finset
open scoped BigOperators

section Put

variable {α β γ : Type} [DecidableEq α] [DecidableEq β]

def put (f : α → β → γ) (a : α) (b : β) (v : γ) : α → β → γ :=
  fun x y => if x = a ∧ y = b then v else f x y

theorem put_apply (f : α → β → γ) (a : α) (b : β) (v : γ) (x : α) (y : β) :
    put f a b v x y = if x = a ∧ y = b then v else f x y := rfl

@[simp] theorem put_self (f : α → β → γ) (a : α) (b : β) (v : γ) : put f a b v a b = v := by
  simp [put]

@[simp] theorem put_eq (f : α → β → γ) (a : α) (b : β) : put f a b (f a b) = f := by
  funext x y
  unfold put
  split
  · rename_i h
    rw [h.1, h.2]
  · rfl

theorem put_row_self (f : α → β → γ) (a : α) (b : β) (v : γ) :
    put f a b v a = Function.update (f a) b v := by
  funext y
  simp [put, Function.update_apply]

theorem put_row_of_ne {a x : α} (other : x ≠ a) (f : α → β → γ) (b : β) (v : γ) :
    put f a b v x = f x := by
  funext y
  simp [put, other]

end Put

section Table

variable {α : Type}

theorem update_eq_some {ι : Type} [DecidableEq ι] {table : ι → Option α} {i j : ι} {a b : α} :
    Function.update table i (some a) j = some b ↔ (j = i ∧ a = b) ∨ (j ≠ i ∧ table j = some b) := by
  by_cases h : j = i
  · subst h
    simp
  · simp [h]

theorem update_none_eq_some {ι : Type} [DecidableEq ι] {table : ι → Option α} {i j : ι} {b : α} :
    Function.update table i none j = some b ↔ j ≠ i ∧ table j = some b := by
  by_cases h : j = i
  · subst h
    simp
  · simp [h]

/-- The total of `f` over the records of a table whose ids are `1..n`. -/
def tableSum (n : ℕ) (table : ℕ → Option α) (f : α → ℤ) : ℤ :=
  ∑ i ∈ range n, (table (i + 1)).elim 0 f

theorem tableSum_append (n : ℕ) (table : ℕ → Option α) (f : α → ℤ) (a : α) :
    tableSum (n + 1) (Function.update table (n + 1) (some a)) f = tableSum n table f + f a := by
  unfold tableSum
  rw [sum_range_succ, Function.update_self]
  congr 1
  apply sum_congr rfl
  intro i hi
  have : i + 1 ≠ n + 1 := by have := mem_range.mp hi; omega
  rw [Function.update_of_ne this]

theorem tableSum_update {n : ℕ} {table : ℕ → Option α} {k : ℕ} {a : α} (b : α) (f : α → ℤ)
    (h : table k = some a) (pos : 1 ≤ k) (le : k ≤ n) :
    tableSum n (Function.update table k (some b)) f = tableSum n table f + (f b - f a) := by
  obtain ⟨k, rfl⟩ : ∃ j, k = j + 1 := ⟨k - 1, by omega⟩
  have hk : k ∈ range n := mem_range.mpr (by omega)
  unfold tableSum
  rw [← sum_erase_add _ _ hk, ← sum_erase_add (range n) (fun i => (table (i + 1)).elim 0 f) hk]
  have rest : ∑ i ∈ (range n).erase k, (Function.update table (k + 1) (some b) (i + 1)).elim 0 f =
      ∑ i ∈ (range n).erase k, (table (i + 1)).elim 0 f := by
    apply sum_congr rfl
    intro i hi
    have : i + 1 ≠ k + 1 := by have := ne_of_mem_erase hi; omega
    rw [Function.update_of_ne this]
  rw [rest, Function.update_self, h]
  simp only [Option.elim_some]
  ring

theorem tableSum_le {n : ℕ} {table : ℕ → Option α} {f g : α → ℤ}
    (h : ∀ k a, table k = some a → f a ≤ g a) : tableSum n table f ≤ tableSum n table g := by
  apply sum_le_sum
  intro i _
  cases hi : table (i + 1) with
  | none => exact le_rfl
  | some a => exact h _ a hi

theorem tableSum_nonneg {n : ℕ} {table : ℕ → Option α} {f : α → ℤ}
    (h : ∀ k a, table k = some a → 0 ≤ f a) : 0 ≤ tableSum n table f := by
  apply sum_nonneg
  intro i _
  cases hi : table (i + 1) with
  | none => exact le_rfl
  | some a => exact h _ a hi

theorem tableSum_congr {n : ℕ} {table : ℕ → Option α} {f g : α → ℤ}
    (h : ∀ k a, table k = some a → f a = g a) : tableSum n table f = tableSum n table g :=
  le_antisymm (tableSum_le fun k a ha => (h k a ha).le) (tableSum_le fun k a ha => (h k a ha).ge)

theorem tableSum_eq_zero {n : ℕ} {table : ℕ → Option α} {f : α → ℤ}
    (h : ∀ k a, table k = some a → f a = 0) : tableSum n table f = 0 := by
  apply sum_eq_zero
  intro i _
  cases hi : table (i + 1) with
  | none => rfl
  | some a => exact h _ a hi

theorem tableSum_sub (n : ℕ) (table : ℕ → Option α) (f g : α → ℤ) :
    tableSum n table (fun a => f a - g a) = tableSum n table f - tableSum n table g := by
  unfold tableSum
  rw [← sum_sub_distrib]
  apply sum_congr rfl
  intro i _
  cases table (i + 1) <;> simp

def tableFilter (n : ℕ) (table : ℕ → Option α) (keep : α → Bool) : List α :=
  (List.range n).filterMap fun i => (table (i + 1)).filter keep

theorem sum_tableFilter (n : ℕ) (table : ℕ → Option α) (keep : α → Bool) (f : α → ℤ) :
    ((tableFilter n table keep).map f).sum =
      tableSum n table fun a => if keep a then f a else 0 := by
  unfold tableFilter tableSum
  induction n with
  | zero => rfl
  | succ n ih =>
    rw [List.range_succ, List.filterMap_append, List.map_append, List.sum_append, ih,
      sum_range_succ]
    congr 1
    cases entry : table (n + 1) with
    | none => simp [entry]
    | some a => by_cases kept : keep a <;> simp [entry, kept, Option.filter]

theorem mem_tableFilter {n : ℕ} {table : ℕ → Option α} {keep : α → Bool} {a : α} {k : ℕ}
    (h : table k = some a) (pos : 1 ≤ k) (le : k ≤ n) (kept : keep a) :
    a ∈ tableFilter n table keep := by
  obtain ⟨k, rfl⟩ : ∃ j, k = j + 1 := ⟨k - 1, by omega⟩
  refine List.mem_filterMap.mpr ⟨k, List.mem_range.mpr (by omega), ?_⟩
  rw [h, Option.filter_some, if_pos kept]

/-- The total over all numbers, of a table with entries at `1..n` only. -/
theorem finsum_eq_tableSum (n : ℕ) (table : ℕ → Option α) (f : α → ℤ)
    (numbered : ∀ k a, table k = some a → 1 ≤ k ∧ k ≤ n) :
    ∑ᶠ k, (table k).elim 0 f = tableSum n table f := by
  have support :
      Function.support (fun k => (table k).elim 0 f) ⊆ ((range n).image (· + 1) : Finset ℕ) := by
    intro k hk
    cases entry : table k with
    | none => simp [entry] at hk
    | some a =>
      obtain ⟨pos, le⟩ := numbered k a entry
      exact mem_coe.mpr (mem_image.mpr ⟨k - 1, mem_range.mpr (by omega), by omega⟩)
  rw [finsum_eq_sum_of_support_subset _ support, sum_image fun i _ j _ same => by omega]
  rfl

end Table

section Log

variable {τ : Type}

def tally (f : τ → ℤ) (log : List τ) : ℤ := (log.map f).sum

@[simp] theorem tally_nil (f : τ → ℤ) : tally f [] = 0 := rfl

@[simp] theorem tally_cons (f : τ → ℤ) (entry : τ) (log : List τ) :
    tally f (entry :: log) = f entry + tally f log := by
  simp [tally]

theorem tally_append (f : τ → ℤ) (first second : List τ) :
    tally f (first ++ second) = tally f first + tally f second := by
  simp [tally]

theorem tally_nonneg {f : τ → ℤ} {log : List τ} (h : ∀ entry ∈ log, 0 ≤ f entry) :
    0 ≤ tally f log := by
  apply List.sum_nonneg
  intro x hx
  obtain ⟨entry, hentry, rfl⟩ := List.mem_map.mp hx
  exact h entry hentry

theorem tally_congr {f g : τ → ℤ} {log : List τ} (h : ∀ entry ∈ log, f entry = g entry) :
    tally f log = tally g log := by
  rw [tally, tally, List.map_congr_left h]

theorem tally_eq_zero {f : τ → ℤ} {log : List τ} (h : ∀ entry ∈ log, f entry = 0) :
    tally f log = 0 := by
  rw [tally_congr (g := fun _ => 0) h]
  simp [tally]

theorem tally_add (f g : τ → ℤ) (log : List τ) :
    tally (fun entry => f entry + g entry) log = tally f log + tally g log :=
  List.sum_map_add

theorem tally_sub (f g : τ → ℤ) (log : List τ) :
    tally (fun entry => f entry - g entry) log = tally f log - tally g log := by
  rw [eq_sub_iff_add_eq, ← tally_add]
  simp only [sub_add_cancel]

variable {κ : Type} [DecidableEq κ]

theorem sum_map_update {keys : List κ} (distinct : keys.Nodup) {key : κ} (mem : key ∈ keys)
    (f : κ → ℤ) (x : ℤ) :
    (keys.map (Function.update f key x)).sum = (keys.map f).sum + (x - f key) := by
  induction keys with
  | nil => cases mem
  | cons first rest ih =>
    obtain ⟨absent, distinct⟩ := List.nodup_cons.mp distinct
    rw [List.map_cons, List.map_cons, List.sum_cons, List.sum_cons]
    obtain rfl | mem := List.mem_cons.mp mem
    · have same : rest.map (Function.update f key x) = rest.map f := by
        apply List.map_congr_left
        intro k hk
        have other : k ≠ key := fun eq => absent (eq ▸ hk)
        exact Function.update_of_ne other ..
      rw [same, Function.update_self]
      ring
    · have other : first ≠ key := fun eq => absent (eq ▸ mem)
      rw [ih distinct mem, Function.update_of_ne other]
      ring

theorem tally_absent {key : τ → κ} (f : τ → ℤ) {log : List τ} {k : κ}
    (absent : k ∉ log.map key) :
    tally (fun entry => if key entry = k then f entry else 0) log = 0 := by
  induction log with
  | nil => rfl
  | cons entry log ih =>
    simp only [List.map_cons, List.mem_cons, not_or] at absent
    rw [tally_cons, ih absent.2, if_neg fun h => absent.1 h.symm, zero_add]

theorem tally_support_finite (key : τ → κ) (f : τ → ℤ) (log : List τ) :
    (Function.support fun k =>
      tally (fun entry => if key entry = k then f entry else 0) log).Finite := by
  apply (List.finite_toSet (log.map key)).subset
  intro k hk
  by_contra absent
  exact hk (tally_absent f absent)

/-- Sorting a log by a key and totalling each class loses nothing. -/
theorem finsum_tally (key : τ → κ) (f : τ → ℤ) (log : List τ) :
    ∑ᶠ k, tally (fun entry => if key entry = k then f entry else 0) log = tally f log := by
  induction log with
  | nil => simp
  | cons entry log ih =>
    simp only [tally_cons]
    rw [finsum_add_distrib _ (tally_support_finite key f log), ih]
    · congr 1
      rw [finsum_eq_single _ (key entry)]
      · simp
      · intro k hk
        simp [hk.symm]
    · apply (Set.finite_singleton (key entry)).subset
      intro k hk
      by_contra hne
      apply hk
      simp only [Set.mem_singleton_iff] at hne
      simp [Ne.symm hne]

end Log

end Zicket.Foundation
