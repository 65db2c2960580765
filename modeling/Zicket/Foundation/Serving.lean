import Mathlib.Data.Finset.Basic
import Zicket.Foundation.Run

/-! Requests for parts of something scarce, served in the order in which they come: each
client once, and only while what the others were given still admits it. One client may be
out of sight. The order is immaterial to the others exactly if each client in sight that
could be served first could also be served last. -/

namespace Zicket.Foundation

variable {ρ ι : Type} [DecidableEq ι] (client : ρ → ι) (valid : ρ → Prop)
  (admits : Finset ι → ι → Prop)

open Classical in
noncomputable def serve (served : Finset ι) (r : ρ) : Finset ι :=
  if valid r ∧ client r ∉ served ∧ admits served (client r) then insert (client r) served
  else served

variable {client valid admits} {served : Finset ι} {requests : List ρ} {i unseen : ι}

theorem mem_serve {r : ρ} : i ∈ serve client valid admits served r ↔
    i ∈ served ∨ valid r ∧ client r = i ∧ admits served i := by
  unfold serve
  split
  · rename_i passed
    rw [Finset.mem_insert]
    constructor
    · rintro (rfl | old)
      · exact .inr ⟨passed.1, rfl, passed.2.2⟩
      · exact .inl old
    · rintro (old | ⟨-, rfl, -⟩)
      · exact .inr old
      · exact .inl rfl
  · rename_i refused
    refine ⟨.inl, ?_⟩
    rintro (old | ⟨holds, rfl, room⟩)
    · exact old
    · by_contra new
      exact refused ⟨holds, new, room⟩

theorem subset_run_serve (served : Finset ι) (requests : List ρ) :
    served ⊆ run (serve client valid admits) served requests := by
  induction requests generalizing served with
  | nil => exact subset_rfl
  | cons r rest ih => exact fun i old => ih _ (mem_serve.mpr (.inl old))

theorem exists_request (mem : i ∈ run (serve client valid admits) served requests) :
    i ∈ served ∨ ∃ r ∈ requests, valid r ∧ client r = i := by
  induction requests generalizing served with
  | nil => exact .inl mem
  | cons r rest ih =>
    obtain old | ⟨r', later, holds⟩ := ih mem
    · exact (mem_serve.mp old).imp_right fun ⟨holds, same, _⟩ =>
        ⟨r, List.mem_cons_self, holds, same⟩
    · exact .inr ⟨r', List.mem_cons_of_mem r later, holds⟩

section Order

variable {first : Finset ι}

theorem serve_subset (antitone : ∀ P Q i, P ⊆ Q → admits Q i → admits P i)
    (mem_first : ∀ i, i ∈ first ↔ admits ∅ i) {r : ρ} (within : served ⊆ first) :
    serve client valid admits served r ⊆ first := by
  intro i mem
  obtain old | ⟨-, -, room⟩ := mem_serve.mp mem
  · exact within old
  · exact (mem_first i).mpr (antitone _ _ i (Finset.empty_subset served) room)

/-- If everyone in sight is admitted last, whoever asks is served. -/
theorem mem_run_serve (antitone : ∀ P Q i, P ⊆ Q → admits Q i → admits P i)
    (mem_first : ∀ i, i ∈ first ↔ admits ∅ i)
    (last : ∀ i ∈ first, i ≠ unseen → admits (first.erase i) i) (seen : i ≠ unseen)
    (within : served ⊆ first) : i ∈ run (serve client valid admits) served requests ↔
      i ∈ served ∨ i ∈ first ∧ ∃ r ∈ requests, valid r ∧ client r = i := by
  induction requests generalizing served with
  | nil => simp
  | cons r rest ih =>
    rw [run_cons, ih (serve_subset antitone mem_first within), mem_serve,
      List.exists_mem_cons_iff]
    constructor
    · rintro ((old | ⟨holds, same, room⟩) | ⟨possible, later⟩)
      · exact .inl old
      · exact .inr ⟨(mem_first i).mpr (antitone _ _ i (Finset.empty_subset served) room),
          .inl ⟨holds, same⟩⟩
      · exact .inr ⟨possible, .inr later⟩
    · rintro (old | ⟨possible, ⟨holds, same⟩ | later⟩)
      · exact .inl (.inl old)
      · by_cases old : i ∈ served
        · exact .inl (.inl old)
        · have others : served ⊆ first.erase i := fun j mem =>
            Finset.mem_erase.mpr ⟨ne_of_mem_of_not_mem mem old, within mem⟩
          exact .inl (.inr ⟨holds, same, antitone _ _ i others (last i possible seen)⟩)
      · exact .inr ⟨possible, later⟩

omit [DecidableEq ι] in
theorem exists_requests {clients : List ι}
    (each : ∀ i ∈ clients, ∃ r, valid r ∧ client r = i) :
    ∃ requests : List ρ, (∀ r ∈ requests, client r ∈ clients) ∧
      ∀ i ∈ clients, ∃ r ∈ requests, valid r ∧ client r = i := by
  induction clients with
  | nil => exact ⟨[], by simp, by simp⟩
  | cons i rest ih =>
    obtain ⟨requests, only, all⟩ := ih fun j mem => each j (List.mem_cons_of_mem i mem)
    obtain ⟨r, holds, rfl⟩ := each i List.mem_cons_self
    refine ⟨r :: requests, ?_, ?_⟩
    · rintro r' mem
      obtain rfl | mem := List.mem_cons.mp mem
      · exact List.mem_cons_self
      · exact List.mem_cons_of_mem _ (only r' mem)
    · rintro j mem
      obtain rfl | mem := List.mem_cons.mp mem
      · exact ⟨r, List.mem_cons_self, holds, rfl⟩
      · obtain ⟨r', asked, holds⟩ := all j mem
        exact ⟨r', List.mem_cons_of_mem r asked, holds⟩

/-- Where the order is immaterial, whoever could have come first is served. -/
theorem mem_of_order_free (mem_first : ∀ i, i ∈ first ↔ admits ∅ i)
    (free : ∀ l l' : List ρ, l.Perm l' → ∀ i, i ≠ unseen →
      (i ∈ run (serve client valid admits) ∅ l ↔ i ∈ run (serve client valid admits) ∅ l'))
    (possible : i ∈ first) (seen : i ≠ unseen) {r : ρ} (asked : r ∈ requests) (holds : valid r)
    (same : client r = i) : i ∈ run (serve client valid admits) ∅ requests := by
  obtain ⟨before, after, rfl⟩ := List.append_of_mem asked
  rw [free _ _ List.perm_middle i seen, run_cons]
  exact subset_run_serve _ _ (mem_serve.mpr (.inr ⟨holds, same, (mem_first i).mp possible⟩))

theorem admits_last (antitone : ∀ P Q i, P ⊆ Q → admits Q i → admits P i)
    (mem_first : ∀ i, i ∈ first ↔ admits ∅ i) (each : ∀ i ∈ first, ∃ r, valid r ∧ client r = i)
    (free : ∀ l l' : List ρ, l.Perm l' → ∀ i, i ≠ unseen →
      (i ∈ run (serve client valid admits) ∅ l ↔ i ∈ run (serve client valid admits) ∅ l'))
    (possible : i ∈ first) (seen : i ≠ unseen) : admits (first.erase i) i := by
  have others : ∀ j ∈ (first.erase i).toList, ∃ r, valid r ∧ client r = j :=
    fun j mem => each j (Finset.mem_of_mem_erase (Finset.mem_toList.mp mem))
  obtain ⟨requests, only, all⟩ := exists_requests others
  -- the client out of sight asks first, and `i` asks last
  obtain ⟨front, mine, opening⟩ : ∃ front : List ρ, (∀ r ∈ front, client r ≠ i) ∧
      (unseen ∈ first → unseen ∈ run (serve client valid admits) ∅ front) := by
    by_cases possible : unseen ∈ first
    · obtain ⟨r, holds, same⟩ := each unseen possible
      refine ⟨[r], by simpa [same] using seen.symm, fun _ => ?_⟩
      rw [run_cons, run_nil, mem_serve]
      exact .inr ⟨holds, same, (mem_first unseen).mp possible⟩
    · exact ⟨[], by simp, fun mem => absurd mem possible⟩
  obtain ⟨r, holds, same⟩ := each i possible
  have last : i ∈ run (serve client valid admits) ∅ ((front ++ requests) ++ [r]) :=
    mem_of_order_free mem_first free possible seen
      (List.mem_append_right _ List.mem_cons_self) holds same
  rw [run_append, run_cons, run_nil] at last
  have waiting : i ∉ run (serve client valid admits) ∅ (front ++ requests) := by
    intro early
    obtain none | ⟨r', asked, -, same'⟩ := exists_request early
    · exact Finset.notMem_empty i none
    · obtain asked | asked := List.mem_append.mp asked
      · exact mine r' asked same'
      · have asked := Finset.mem_toList.mp (only r' asked)
        exact Finset.ne_of_mem_erase asked same'
  have served : first.erase i ⊆ run (serve client valid admits) ∅ (front ++ requests) := by
    intro j mem
    obtain rfl | other := eq_or_ne j unseen
    · rw [run_append]
      exact subset_run_serve _ _ (opening (Finset.mem_of_mem_erase mem))
    · obtain ⟨r', asked, holds', same'⟩ := all j (Finset.mem_toList.mpr mem)
      exact mem_of_order_free mem_first free (Finset.mem_of_mem_erase mem) other
        (List.mem_append_right _ asked) holds' same'
  obtain early | ⟨-, -, room⟩ := mem_serve.mp last
  · exact absurd early waiting
  · exact antitone _ _ i served room

variable (client valid) in
theorem order_free_iff (antitone : ∀ P Q i, P ⊆ Q → admits Q i → admits P i)
    (mem_first : ∀ i, i ∈ first ↔ admits ∅ i) (each : ∀ i ∈ first, ∃ r, valid r ∧ client r = i) :
    (∀ l l' : List ρ, l.Perm l' → ∀ i, i ≠ unseen →
      (i ∈ run (serve client valid admits) ∅ l ↔ i ∈ run (serve client valid admits) ∅ l')) ↔
      ∀ i ∈ first, i ≠ unseen → admits (first.erase i) i := by
  constructor
  · intro free i possible seen
    exact admits_last antitone mem_first each free possible seen
  · intro last l l' perm i seen
    rw [mem_run_serve antitone mem_first last seen (Finset.empty_subset first),
      mem_run_serve antitone mem_first last seen (Finset.empty_subset first)]
    simp only [perm.mem_iff]

end Order

end Zicket.Foundation
