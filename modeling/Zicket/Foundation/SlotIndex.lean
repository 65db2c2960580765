import Mathlib.Data.List.Nodup
import Mathlib.Data.List.Range
import Mathlib.Logic.Function.Basic

/-! A set kept as an array of slots with a count, where every member knows its slot.
Adding fills the next slot; removing swaps the last member into the freed slot.
In a well-formed index slots and places are inverse to each other, so the array lists
the members without repetition. -/

namespace Zicket.Foundation

@[ext] structure SlotIndex (ι : Type) where
  count : ℕ
  slot : ℕ → Option ι
  place : ι → Option ℕ

section Slots

variable {ι : Type}

/-- The filled slots below `n`, in order. -/
def filled (slot : ℕ → Option ι) (n : ℕ) : List ι := (List.range n).filterMap slot

theorem filled_congr {slot slot' : ℕ → Option ι} {n : ℕ} (h : ∀ i < n, slot i = slot' i) :
    filled slot n = filled slot' n := by
  apply List.filterMap_congr
  intro i hi
  exact h i (List.mem_range.mp hi)

theorem filled_append (slot : ℕ → Option ι) (n : ℕ) (x : ι) :
    filled (Function.update slot n (some x)) (n + 1) = filled slot n ++ [x] := by
  rw [filled, List.range_succ, List.filterMap_append]
  congr 1
  · exact filled_congr fun i hi => Function.update_of_ne hi.ne _ _
  · simp

theorem mem_filled {slot : ℕ → Option ι} {n : ℕ} {x : ι} :
    x ∈ filled slot n ↔ ∃ i < n, slot i = some x := by
  simp [filled]

end Slots

namespace SlotIndex

variable {ι : Type} [DecidableEq ι] {s : SlotIndex ι} {x y : ι}

def empty : SlotIndex ι := ⟨0, fun _ => none, fun _ => none⟩

def add (s : SlotIndex ι) (x : ι) : SlotIndex ι where
  count := s.count + 1
  slot := Function.update s.slot s.count (some x)
  place := Function.update s.place x (some s.count)

def swapIn (s : SlotIndex ι) (i last : ℕ) : SlotIndex ι :=
  match s.slot last with
  | some y =>
    { s with
      slot := Function.update s.slot i (some y)
      place := Function.update s.place y (some i) }
  | none => s

def remove (s : SlotIndex ι) (x : ι) : SlotIndex ι :=
  let absent := { s with place := Function.update s.place x none }
  match s.place x with
  | none => absent
  | some i =>
    if s.count = 0 then { absent with slot := Function.update s.slot i none }
    else
      let moved := if i < s.count - 1 then absent.swapIn i (s.count - 1) else absent
      { moved with
        slot := Function.update moved.slot (s.count - 1) none
        count := s.count - 1 }

def items (s : SlotIndex ι) : List ι := filled s.slot s.count

structure WellFormed (s : SlotIndex ι) : Prop where
  place : ∀ x i, s.place x = some i → i < s.count ∧ s.slot i = some x
  slot : ∀ i < s.count, ∃ x, s.slot i = some x ∧ s.place x = some i

namespace WellFormed

omit [DecidableEq ι] in
theorem mem_items (h : s.WellFormed) : x ∈ s.items ↔ (s.place x).isSome := by
  rw [items, mem_filled]
  constructor
  · rintro ⟨i, lt, stored⟩
    obtain ⟨x', stored', place⟩ := h.slot i lt
    rw [stored] at stored'
    cases stored'
    simp [place]
  · intro placed
    obtain ⟨i, place⟩ := Option.isSome_iff_exists.mp placed
    exact ⟨i, h.place x i place⟩

omit [DecidableEq ι] in
theorem slot_inj (h : s.WellFormed) {i j : ℕ} (hi : i < s.count) (hj : j < s.count)
    (same : s.slot i = s.slot j) : i = j := by
  obtain ⟨x, hx, px⟩ := h.slot i hi
  obtain ⟨y, hy, py⟩ := h.slot j hj
  rw [hx, hy] at same
  cases same
  rw [px] at py
  exact Option.some.inj py

omit [DecidableEq ι] in
theorem nodup_items (h : s.WellFormed) : s.items.Nodup := by
  have distinct : ∀ n ≤ s.count, (filled s.slot n).Nodup := by
    intro n
    induction n with
    | zero => exact fun _ => List.nodup_nil
    | succ n ih =>
      intro le
      obtain ⟨x, stored, -⟩ := h.slot n le
      rw [filled, List.range_succ, List.filterMap_append]
      simp only [List.filterMap_cons, stored, List.filterMap_nil]
      refine (ih (Nat.le_of_succ_le le)).append (List.nodup_singleton x) ?_
      rw [List.disjoint_singleton]
      intro mem
      obtain ⟨i, lt, stored'⟩ := mem_filled.mp mem
      have := h.slot_inj (lt.trans le) le (stored'.trans stored.symm)
      omega
  exact distinct s.count le_rfl

omit [DecidableEq ι] in
theorem length_items (h : s.WellFormed) : s.items.length = s.count := by
  refine (List.filterMap_length_eq_length.mpr fun i mem => ?_).trans List.length_range
  obtain ⟨x, stored, -⟩ := h.slot i (List.mem_range.mp mem)
  rw [stored]
  rfl

theorem count_lt {s : SlotIndex ℕ} (h : s.WellFormed) {n k : ℕ} (lt : k < n)
    (absent : s.place k = none) (below : ∀ j, (s.place j).isSome → j < n) : s.count < n := by
  have distinct : (k :: s.items).Nodup := by
    refine List.nodup_cons.mpr ⟨fun mem => ?_, h.nodup_items⟩
    have := h.mem_items.mp mem
    simp [absent] at this
  have bounded : k :: s.items ⊆ List.range n := by
    intro j mem
    obtain rfl | mem := List.mem_cons.mp mem
    · exact List.mem_range.mpr lt
    · exact List.mem_range.mpr (below j (h.mem_items.mp mem))
  have := distinct.length_le_of_subset bounded
  rw [List.length_cons, h.length_items, List.length_range] at this
  exact this

theorem add (h : s.WellFormed) (new : s.place x = none) : (s.add x).WellFormed where
  place y i stored := by
    change Function.update s.place x (some s.count) y = some i at stored
    change i < s.count + 1 ∧ Function.update s.slot s.count (some x) i = some y
    by_cases same : y = x
    · subst same
      rw [Function.update_self] at stored
      cases stored
      exact ⟨Nat.lt_succ_self _, Function.update_self ..⟩
    · rw [Function.update_of_ne same] at stored
      obtain ⟨lt, slot⟩ := h.place y i stored
      exact ⟨lt.trans (Nat.lt_succ_self _), by rw [Function.update_of_ne lt.ne, slot]⟩
  slot i lt := by
    change ∃ y, Function.update s.slot s.count (some x) i = some y ∧
      Function.update s.place x (some s.count) y = some i
    by_cases last : i = s.count
    · subst last
      exact ⟨x, Function.update_self .., Function.update_self ..⟩
    · obtain ⟨y, slot, place⟩ := h.slot i (by change i < s.count + 1 at lt; omega)
      have other : y ≠ x := by
        rintro rfl
        rw [new] at place
        cases place
      exact ⟨y, by rw [Function.update_of_ne last, slot], by rw [Function.update_of_ne other, place]⟩

end WellFormed

theorem place_add (s : SlotIndex ι) (x : ι) :
    ((s.add x).place y).isSome ↔ y = x ∨ (s.place y).isSome := by
  change (Function.update s.place x (some s.count) y).isSome ↔ _
  by_cases same : y = x
  · simp [same]
  · simp [same]

section Remove

variable (h : s.WellFormed) {i : ℕ} (stored : s.place x = some i)

include h stored

theorem remove_last (last : i = s.count - 1) :
    s.remove x =
      { count := s.count - 1
        slot := Function.update s.slot (s.count - 1) none
        place := Function.update s.place x none } := by
  have lt := (h.place x i stored).1
  rw [remove]
  simp only [stored]
  rw [if_neg (by omega), if_neg (by omega)]

/-- Removing the member in an earlier slot moves the last member there. -/
theorem remove_earlier (earlier : i < s.count - 1) :
    ∃ y, s.slot (s.count - 1) = some y ∧ y ≠ x ∧ s.remove x =
      { count := s.count - 1
        slot := Function.update (Function.update s.slot i (some y)) (s.count - 1) none
        place := Function.update (Function.update s.place x none) y (some i) } := by
  obtain ⟨y, slot, place⟩ := h.slot (s.count - 1) (by omega)
  refine ⟨y, slot, ?_, ?_⟩
  · rintro rfl
    rw [stored] at place
    have := Option.some.inj place
    omega
  · rw [remove]
    simp only [stored]
    rw [if_neg (by omega), if_pos earlier, swapIn]
    simp only [slot]

omit h stored in
theorem remove_absent (absent : s.place x = none) : s.remove x = s := by
  rw [remove]
  simp only [absent]
  rw [← absent, Function.update_eq_self]

end Remove

theorem WellFormed.remove_last (h : s.WellFormed) (stored : s.place x = some (s.count - 1)) :
    (s.remove x).WellFormed where
  place y j placed := by
    rw [SlotIndex.remove_last h stored rfl] at placed ⊢
    have other : y ≠ x := by
      rintro rfl
      simp at placed
    simp only [Function.update_of_ne other] at placed
    obtain ⟨lt, slot⟩ := h.place y j placed
    have earlier : j ≠ s.count - 1 := by
      rintro rfl
      rw [(h.place x _ stored).2] at slot
      exact other (Option.some.inj slot).symm
    exact ⟨by simp only; omega, by simpa [earlier] using slot⟩
  slot j lt := by
    rw [SlotIndex.remove_last h stored rfl] at lt ⊢
    simp only at lt
    obtain ⟨y, slot, place⟩ := h.slot j (by omega)
    have other : y ≠ x := by
      rintro rfl
      rw [stored] at place
      have := Option.some.inj place
      omega
    exact ⟨y, by simpa [lt.ne] using slot, by simpa [other] using place⟩

theorem WellFormed.remove_earlier (h : s.WellFormed) {i : ℕ} (stored : s.place x = some i)
    (earlier : i < s.count - 1) : (s.remove x).WellFormed where
  place z j placed := by
    obtain ⟨y, slot, moved, result⟩ := SlotIndex.remove_earlier h stored earlier
    rw [result] at placed ⊢
    have lastPlace : s.place y = some (s.count - 1) := by
      obtain ⟨y', slot', place⟩ := h.slot (s.count - 1) (by omega)
      rw [slot] at slot'
      cases slot'
      exact place
    by_cases same : z = y
    · -- the moved member is in the freed slot
      subst same
      simp only [Function.update_self, Option.some.injEq] at placed
      subst placed
      exact ⟨earlier, by simp [earlier.ne]⟩
    · have other : z ≠ x := by
        rintro rfl
        simp [same] at placed
      simp only [Function.update_of_ne same, Function.update_of_ne other] at placed
      obtain ⟨lt, stored'⟩ := h.place z j placed
      have notFreed : j ≠ i := by
        rintro rfl
        rw [(h.place x _ stored).2] at stored'
        exact other (Option.some.inj stored').symm
      have notLast : j ≠ s.count - 1 := by
        rintro rfl
        rw [slot] at stored'
        exact same (Option.some.inj stored').symm
      exact ⟨by simp only; omega, by simpa [notFreed, notLast] using stored'⟩
  slot j lt := by
    obtain ⟨y, slot, moved, result⟩ := SlotIndex.remove_earlier h stored earlier
    rw [result] at lt ⊢
    simp only at lt
    by_cases freed : j = i
    · subst freed
      exact ⟨y, by simp [earlier.ne], by simp⟩
    · obtain ⟨z, stored', place⟩ := h.slot j (by omega)
      have notMoved : z ≠ y := by
        rintro rfl
        have := h.slot_inj (show j < s.count by omega) (by omega) (stored'.trans slot.symm)
        omega
      have other : z ≠ x := by
        rintro rfl
        rw [stored] at place
        exact freed (Option.some.inj place).symm
      exact ⟨z, by simpa [freed, lt.ne] using stored', by simpa [notMoved, other] using place⟩

theorem WellFormed.remove (h : s.WellFormed) (x : ι) : (s.remove x).WellFormed := by
  cases stored : s.place x with
  | none =>
    rw [remove_absent stored]
    exact h
  | some i =>
    have lt := (h.place x i stored).1
    by_cases last : i = s.count - 1
    · exact h.remove_last (last ▸ stored)
    · exact h.remove_earlier stored (by omega)

theorem WellFormed.place_remove (h : s.WellFormed) :
    ((s.remove x).place y).isSome ↔ y ≠ x ∧ (s.place y).isSome := by
  cases stored : s.place x with
  | none =>
    rw [remove_absent stored]
    refine ⟨fun placed => ⟨?_, placed⟩, And.right⟩
    rintro rfl
    simp [stored] at placed
  | some i =>
    have lt := (h.place x i stored).1
    by_cases last : i = s.count - 1
    · rw [SlotIndex.remove_last h stored last]
      by_cases same : y = x
      · simp [same]
      · simp [same]
    · obtain ⟨z, slot, moved, result⟩ :=
        SlotIndex.remove_earlier h stored (by omega)
      obtain ⟨z', slot', place⟩ := h.slot (s.count - 1) (by omega)
      rw [slot] at slot'
      cases slot'
      rw [result]
      by_cases swapped : y = z
      · simp [swapped, moved, place]
      · by_cases same : y = x
        · subst same
          simp [swapped]
        · simp [swapped, same]

end SlotIndex

section Owners

variable {α ι : Type} [DecidableEq α] [DecidableEq ι] {index : α → SlotIndex ι}
  {owner : ι → Option α} {a : α} {x : ι}

structure Owned (index : α → SlotIndex ι) (owner : ι → Option α) : Prop where
  formed : ∀ a, (index a).WellFormed
  placed : ∀ a x, ((index a).place x).isSome ↔ owner x = some a

omit [DecidableEq α] [DecidableEq ι] in
theorem Owned.mem_items (h : Owned index owner) : x ∈ (index a).items ↔ owner x = some a :=
  (h.formed a).mem_items.trans (h.placed a x)

omit [DecidableEq α] [DecidableEq ι] in
theorem Owned.absent (h : Owned index owner) (other : owner x ≠ some a) :
    (index a).place x = none := by
  rw [← Option.not_isSome_iff_eq_none, h.placed]
  exact other

theorem Owned.give (h : Owned index owner) (free : owner x = none) (a : α) :
    Owned (Function.update index a ((index a).add x)) (Function.update owner x (some a)) where
  formed b := by
    by_cases same : b = a
    · subst same
      rw [Function.update_self]
      exact (h.formed b).add (h.absent (by simp [free]))
    · rw [Function.update_of_ne same]
      exact h.formed b
  placed b y := by
    by_cases same : b = a
    · subst same
      rw [Function.update_self, SlotIndex.place_add]
      by_cases it : y = x
      · simp [it]
      · simp [it, h.placed]
    · rw [Function.update_of_ne same, h.placed]
      by_cases it : y = x
      · subst it
        simp [free, Ne.symm same]
      · simp [it]

theorem Owned.take (h : Owned index owner) (mine : owner x = some a) :
    Owned (Function.update index a ((index a).remove x)) (Function.update owner x none) where
  formed b := by
    by_cases same : b = a
    · subst same
      rw [Function.update_self]
      exact (h.formed b).remove x
    · rw [Function.update_of_ne same]
      exact h.formed b
  placed b y := by
    by_cases same : b = a
    · subst same
      rw [Function.update_self, (h.formed b).place_remove]
      by_cases it : y = x
      · simp [it]
      · simp [it, h.placed]
    · rw [Function.update_of_ne same, h.placed]
      by_cases it : y = x
      · subst it
        simp [mine, Ne.symm same]
      · simp [it]

end Owners

section Flags

variable {ι : Type} [DecidableEq ι] {count : ℕ} {slot : ℕ → Option ι} {flag : ι → Bool} {x : ι}

/-- An index that flags its members and does not store their places. -/
def Flagged (count : ℕ) (slot : ℕ → Option ι) (flag : ι → Bool) : Prop :=
  ∃ s : SlotIndex ι, s.WellFormed ∧ s.count = count ∧ s.slot = slot ∧
    ∀ x, (s.place x).isSome = flag x

omit [DecidableEq ι] in
theorem Flagged.empty : Flagged 0 (fun _ => none) (fun _ : ι => false) :=
  ⟨.empty, ⟨nofun, fun _ lt => absurd lt (Nat.not_lt_zero _)⟩, rfl, rfl, fun _ => rfl⟩

theorem Flagged.add (h : Flagged count slot flag) (new : flag x = false) :
    Flagged (count + 1) (Function.update slot count (some x)) (Function.update flag x true) := by
  obtain ⟨s, formed, rfl, rfl, flagged⟩ := h
  have absent : s.place x = none := by
    rw [← flagged] at new
    exact Option.isNone_iff_eq_none.mp (Option.isSome_eq_false_iff.mp new)
  refine ⟨s.add x, formed.add absent, rfl, rfl, fun y => ?_⟩
  rw [SlotIndex.add]
  by_cases same : y = x
  · simp [same]
  · simp [same, flagged]

omit [DecidableEq ι] in
theorem Flagged.nodup (h : Flagged count slot flag) : (filled slot count).Nodup := by
  obtain ⟨s, formed, rfl, rfl, -⟩ := h
  exact formed.nodup_items

omit [DecidableEq ι] in
theorem Flagged.mem (h : Flagged count slot flag) : x ∈ filled slot count ↔ flag x = true := by
  obtain ⟨s, formed, rfl, rfl, flagged⟩ := h
  exact formed.mem_items.trans (by rw [flagged])

end Flags

end Zicket.Foundation
