import Mathlib.Algebra.Order.BigOperators.Group.List
import Mathlib.Data.Set.Card
import Mathlib.Logic.Function.Basic

/-! Who holds what: a table from holders to the one thing each may hold. How many hold a
thing changes by one when somebody takes it or drops it. Totals over a list change by what
one entry changes. -/

namespace Zicket.Foundation

section Holdings

variable {α ι : Type} [DecidableEq α] [DecidableEq ι] {held : α → Option ι} {a : α} {i : ι}

def holders (held : α → Option ι) (i : ι) : Set α := {a | held a = some i}

theorem encard_holders_take (free : held a = none) (j : ι) :
    (holders (Function.update held a (some i)) j).encard =
      (holders held j).encard + if j = i then 1 else 0 := by
  split
  · rename_i same
    subst same
    have taken : holders (Function.update held a (some j)) j = insert a (holders held j) := by
      ext b
      by_cases eq : b = a
      · simp [holders, eq]
      · simp [holders, eq]
    rw [taken, Set.encard_insert_of_notMem]
    simp [holders, free]
  · rename_i other
    rw [add_zero]
    congr 1
    ext b
    by_cases eq : b = a
    · simp [holders, eq, free, Ne.symm other]
    · simp [holders, eq]

theorem encard_holders_drop (has : held a = some i) (j : ι) :
    (holders held j).encard =
      (holders (Function.update held a none) j).encard + if j = i then 1 else 0 := by
  rw [← encard_holders_take (Function.update_self ..) j, Function.update_idem, ← has,
    Function.update_eq_self]

omit [DecidableEq α] [DecidableEq ι] in
theorem holders_pos (has : held a = some i) {n : ℕ} (count : (holders held i).encard = n) :
    0 < n := by
  by_contra zero
  have empty : (holders held i).encard = 0 := by
    rw [count, Nat.eq_zero_of_not_pos zero]
    rfl
  rw [Set.encard_eq_zero] at empty
  have mem : a ∈ holders held i := has
  rw [empty] at mem
  exact mem

variable {n : ι → ℕ} (counts : ∀ j, (holders held j).encard = n j)

include counts

theorem counts_take (free : held a = none) (j : ι) :
    (holders (Function.update held a (some i)) j).encard = Function.update n i (n i + 1) j := by
  rw [encard_holders_take free, counts, Function.update_apply]
  split
  · rename_i same
    rw [same]
    rfl
  · exact add_zero _

theorem counts_drop (has : held a = some i) (j : ι) :
    (holders (Function.update held a none) j).encard = Function.update n i (n i - 1) j := by
  have dropped := encard_holders_drop has j
  rw [counts] at dropped
  rw [Function.update_apply]
  split
  · rename_i same
    subst same
    have restored : ((n j - 1 : ℕ) : ℕ∞) + 1 = n j := by
      rw [← Nat.cast_succ, Nat.succ_eq_add_one, Nat.sub_add_cancel (holders_pos has (counts j))]
    rw [if_pos rfl, ← restored] at dropped
    exact (WithTop.add_right_cancel ENat.one_ne_top dropped).symm
  · rename_i other
    rw [if_neg other, add_zero] at dropped
    exact dropped.symm

end Holdings

section Entries

variable {α : Type}

theorem sum_map_set {l : List α} {i : ℕ} {a : α} (h : l[i]? = some a) (b : α) (f : α → ℕ) :
    ((l.set i b).map f).sum + f a = (l.map f).sum + f b := by
  induction l generalizing i with
  | nil => simp at h
  | cons first rest ih =>
    cases i with
    | zero =>
      simp only [List.getElem?_cons_zero, Option.some.injEq] at h
      subst h
      simp only [List.set_cons_zero, List.map_cons, List.sum_cons]
      omega
    | succ i =>
      have := ih h
      simp only [List.set_cons_succ, List.map_cons, List.sum_cons]
      omega

theorem le_sum_map {l : List α} {a : α} (mem : a ∈ l) (f : α → ℕ) : f a ≤ (l.map f).sum :=
  List.single_le_sum (fun _ _ => Nat.zero_le _) _ (List.mem_map_of_mem mem)

theorem map_set_eq {β : Type} {l : List α} {i : ℕ} {a b : α} (h : l[i]? = some a) (f : α → β)
    (same : f b = f a) : (l.set i b).map f = l.map f := by
  obtain ⟨lt, rfl⟩ := List.getElem?_eq_some_iff.mp h
  apply List.ext_getElem?
  intro j
  rw [List.getElem?_map, List.getElem?_map, List.getElem?_set]
  split
  · rename_i eq
    subst eq
    simp [lt, same]
  · rfl

end Entries

end Zicket.Foundation
