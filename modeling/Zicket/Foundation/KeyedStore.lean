import Zicket.Foundation.Tally

/-! Keyed storage in which the key fixes the type of the entry.
An absent entry is `none`; writing and removing touch one key only. A family of keys
is read as a table; writing one key of the family is a point update of the table. -/

namespace Zicket.Foundation

@[ext] structure Store (Key : Type) (Val : Key → Type) where
  entry : (k : Key) → Option (Val k)

namespace Store

variable {Key : Type} {Val : Key → Type}

def empty : Store Key Val := ⟨fun _ => none⟩

def get (s : Store Key Val) (k : Key) : Option (Val k) := s.entry k

def has (s : Store Key Val) (k : Key) : Bool := (s.get k).isSome

variable [DecidableEq Key]

def set (s : Store Key Val) (k : Key) (v : Val k) : Store Key Val :=
  ⟨Function.update s.entry k (some v)⟩

def remove (s : Store Key Val) (k : Key) : Store Key Val :=
  ⟨Function.update s.entry k none⟩

@[simp] theorem get_set_self (s : Store Key Val) (k : Key) (v : Val k) :
    (s.set k v).get k = some v := by
  simp [set, get]

@[simp] theorem get_set_of_ne (s : Store Key Val) {k k' : Key} (v : Val k) (h : k' ≠ k) :
    (s.set k v).get k' = s.get k' := by
  simp [set, get, h]

@[simp] theorem get_remove_self (s : Store Key Val) (k : Key) :
    (s.remove k).get k = none := by
  simp [remove, get]

@[simp] theorem get_remove_of_ne (s : Store Key Val) {k k' : Key} (h : k' ≠ k) :
    (s.remove k).get k' = s.get k' := by
  simp [remove, get, h]

theorem set_set (s : Store Key Val) (k : Key) (v v' : Val k) : (s.set k v).set k v' = s.set k v' := by
  simp [set]

theorem set_comm (s : Store Key Val) {k k' : Key} (differ : k ≠ k') (v : Val k) (v' : Val k') :
    (s.set k v).set k' v' = (s.set k' v').set k v := by
  unfold set
  rw [Function.update_comm differ]

section Family

variable {ι κ V : Type} [DecidableEq ι] [DecidableEq κ]

theorem table_set (mk : ι → Key) (inj : ∀ i j, mk i = mk j → i = j)
    (read : ∀ i, Option (Val (mk i)) → V) (s : Store Key Val) (i : ι) (v : Val (mk i)) :
    (fun j => read j ((s.set (mk i) v).get (mk j))) =
      Function.update (fun j => read j (s.get (mk j))) i (read i (some v)) := by
  funext j
  by_cases h : j = i
  · subst h
    rw [get_set_self, Function.update_self]
  · rw [get_set_of_ne s v fun same => h (inj j i same), Function.update_of_ne h]

theorem table_remove (mk : ι → Key) (inj : ∀ i j, mk i = mk j → i = j)
    (read : ∀ i, Option (Val (mk i)) → V) (s : Store Key Val) (i : ι) :
    (fun j => read j ((s.remove (mk i)).get (mk j))) =
      Function.update (fun j => read j (s.get (mk j))) i (read i none) := by
  funext j
  by_cases h : j = i
  · subst h
    rw [get_remove_self, Function.update_self]
  · rw [get_remove_of_ne s fun same => h (inj j i same), Function.update_of_ne h]

theorem table₂_set (mk : ι → κ → Key) (inj : ∀ i x j y, mk i x = mk j y → i = j ∧ x = y)
    (read : ∀ i x, Option (Val (mk i x)) → V) (s : Store Key Val) (i : ι) (x : κ)
    (v : Val (mk i x)) :
    (fun j y => read j y ((s.set (mk i x) v).get (mk j y))) =
      put (fun j y => read j y (s.get (mk j y))) i x (read i x (some v)) := by
  funext j y
  rw [put_apply]
  split
  · rename_i same
    obtain ⟨rfl, rfl⟩ := same
    rw [get_set_self]
  · rename_i differ
    rw [get_set_of_ne s v fun same => differ (inj j y i x same)]

theorem table₂_remove (mk : ι → κ → Key) (inj : ∀ i x j y, mk i x = mk j y → i = j ∧ x = y)
    (read : ∀ i x, Option (Val (mk i x)) → V) (s : Store Key Val) (i : ι) (x : κ) :
    (fun j y => read j y ((s.remove (mk i x)).get (mk j y))) =
      put (fun j y => read j y (s.get (mk j y))) i x (read i x none) := by
  funext j y
  rw [put_apply]
  split
  · rename_i same
    obtain ⟨rfl, rfl⟩ := same
    rw [get_remove_self]
  · rename_i differ
    rw [get_remove_of_ne s fun same => differ (inj j y i x same)]

end Family

section Within

def Within (T : Key → Prop) (s s' : Store Key Val) : Prop := ∀ k, ¬ T k → s'.get k = s.get k

variable {T : Key → Prop} {s s' s'' : Store Key Val}

omit [DecidableEq Key] in
theorem Within.refl (T : Key → Prop) (s : Store Key Val) : Within T s s := fun _ _ => rfl

omit [DecidableEq Key] in
theorem Within.trans (h : Within T s s') (h' : Within T s' s'') : Within T s s'' :=
  fun k free => (h' k free).trans (h k free)

theorem within_set {k : Key} (v : Val k) (mem : T k) : Within T s (s.set k v) := by
  intro k' free
  have differ : k' ≠ k := by
    rintro rfl
    exact free mem
  exact get_set_of_ne s v differ

theorem within_remove {k : Key} (mem : T k) : Within T s (s.remove k) := by
  intro k' free
  have differ : k' ≠ k := by
    rintro rfl
    exact free mem
  exact get_remove_of_ne s differ

end Within

end Store

end Zicket.Foundation
