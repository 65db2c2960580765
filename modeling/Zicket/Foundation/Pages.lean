import Zicket.Foundation.SlotIndex

/-! Reading an array of filled slots page by page: a page is a window of the list of the
members, and consecutive pages put together are the list. -/

namespace Zicket.Foundation

variable {ι : Type} {slot : ℕ → Option ι} {n : ℕ}

theorem length_filled (full : ∀ i < n, (slot i).isSome) : (filled slot n).length = n := by
  refine (List.filterMap_length_eq_length.mpr fun i mem => ?_).trans List.length_range
  exact full i (List.mem_range.mp mem)

theorem getElem?_filled (full : ∀ i < n, (slot i).isSome) {i : ℕ} (lt : i < n) :
    (filled slot n)[i]? = slot i := by
  induction n with
  | zero => cases lt
  | succ n ih =>
    have earlier : ∀ i < n, (slot i).isSome := fun i below => full i (below.trans n.lt_succ_self)
    obtain ⟨last, stored⟩ := Option.isSome_iff_exists.mp (full n n.lt_succ_self)
    have split : filled slot (n + 1) = filled slot n ++ [last] := by
      rw [filled, List.range_succ, List.filterMap_append, List.filterMap_cons, stored]
      rfl
    rw [split]
    obtain below | rfl := Nat.lt_succ_iff_lt_or_eq.mp lt
    · rw [List.getElem?_append_left (by rwa [length_filled earlier]), ih earlier below]
    · rw [List.getElem?_append_right (length_filled earlier).le, length_filled earlier, Nat.sub_self,
        stored]
      rfl

theorem filterMap_range' (full : ∀ i < n, (slot i).isSome) {start len : ℕ}
    (fits : start + len ≤ n) :
    (List.range' start len).filterMap slot = ((filled slot n).drop start).take len := by
  have shifted : (List.range' start len).filterMap slot = filled (fun i => slot (start + i)) len := by
    rw [List.range'_eq_map_range, List.filterMap_map]
    rfl
  have window : ∀ i < len, (slot (start + i)).isSome := fun i lt => full _ (by omega)
  rw [shifted]
  refine List.ext_getElem? fun i => ?_
  by_cases lt : i < len
  · rw [getElem?_filled window lt, List.getElem?_take_of_lt lt, List.getElem?_drop,
      getElem?_filled full (by omega)]
  · have outside : (filled (fun i => slot (start + i)) len)[i]? = none :=
      List.getElem?_eq_none (by rw [length_filled window]; omega)
    rw [outside, List.getElem?_take_eq_none (by omega)]

theorem flatMap_pages (xs : List ι) (size pages : ℕ) :
    (List.range pages).flatMap (fun k => (xs.drop (k * size)).take size) =
      xs.take (pages * size) := by
  induction pages with
  | zero => simp
  | succ pages ih =>
    rw [List.range_succ, List.flatMap_append, ih, List.flatMap_singleton, Nat.succ_mul, List.take_add]

end Zicket.Foundation
