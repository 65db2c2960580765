import Zicket.Registry.Calls

/-! How many tickets of an event an owner has: what a minting adds, and the owner's list, which
says it as well. -/

namespace Zicket.Tickets

open Host Foundation World

namespace Registry

variable {r : Registry} {a : Address} {e : Symbol}

def Has (r : Registry) (a : Address) (e : Symbol) (k : ℕ) : Prop :=
  ∃ t ∈ r.ticket k, t.owner = a ∧ t.eventId = e

instance (r : Registry) (a : Address) (e : Symbol) (k : ℕ) : Decidable (r.Has a e k) :=
  inferInstanceAs (Decidable (∃ t ∈ r.ticket k, _))

def holds (r : Registry) (a : Address) (e : Symbol) : ℕ :=
  (List.range r.next).countP fun k => r.Has a e k

theorem holds_mint {t : Ticket} (new : t.ticketId = r.next) :
    (r.apply (.mint t)).holds a e =
      r.holds a e + if t.owner = a ∧ t.eventId = e then 1 else 0 := by
  have before : ∀ k ∈ List.range r.next, (r.apply (.mint t)).Has a e k ↔ r.Has a e k := by
    intro k mem
    have other : k ≠ t.ticketId := by
      rw [new]
      exact (List.mem_range.mp mem).ne
    have same : (r.apply (.mint t)).ticket k = r.ticket k := Function.update_of_ne other ..
    rw [Has, Has, same]
  have minted : (r.apply (.mint t)).Has a e r.next ↔ t.owner = a ∧ t.eventId = e := by
    have same : (r.apply (.mint t)).ticket r.next = some t := by
      rw [← new]
      exact Function.update_self ..
    rw [Has, same]
    simp
  have next : (r.apply (.mint t)).next = r.next + 1 := congrArg (· + 1) new
  rw [holds, next, List.range_succ, List.countP_append, holds]
  congr 1
  · exact List.countP_congr fun k mem => by simpa using before k mem
  · simp [minted]

theorem holds_minting (env : Env) (e' : Symbol) (organizer owner : Address) (count : ℕ) :
    (run apply r ((List.range' r.next count).map (minting env e' organizer owner))).holds a e =
      r.holds a e + if owner = a ∧ e' = e then count else 0 := by
  induction count generalizing r with
  | zero => simp
  | succ count ih =>
    have rest := ih (r := r.apply (minting env e' organizer owner r.next))
    have first : (r.apply (minting env e' organizer owner r.next)).holds a e =
        r.holds a e + if owner = a ∧ e' = e then 1 else 0 := holds_mint rfl
    rw [List.range'_succ, List.map_cons, run_cons]
    refine rest.trans ?_
    rw [first]
    split <;> omega

theorem Kept.holds_eq (kept : r.Kept) : r.holds a e = (r.owned a).items.countP fun k =>
    (r.ticket k).any fun t => t.eventId = e := by
  have owned (k : ℕ) : k ∈ (r.owned a).items ↔ ∃ t, r.ticket k = some t ∧ t.owner = a :=
    (kept.wellFormed a).mem_items.trans (kept.owned a k)
  have listed : ((List.range r.next).filter fun k => decide (∃ t ∈ r.ticket k, t.owner = a)).Perm
      (r.owned a).items := by
    refine (List.perm_ext_iff_of_nodup (List.nodup_range.filter _)
      (kept.wellFormed a).nodup_items).mpr fun k => ?_
    rw [owned, List.mem_filter, List.mem_range, decide_eq_true_iff]
    constructor
    · rintro ⟨-, stored⟩
      exact stored
    · rintro ⟨t, stored, owner⟩
      exact ⟨(kept.numbered k t stored).2, t, stored, owner⟩
  rw [← listed.countP_eq, List.countP_filter, holds]
  refine List.countP_congr fun k _ => ?_
  rw [Bool.and_eq_true, decide_eq_true_iff, decide_eq_true_iff, Has]
  cases r.ticket k <;> simp [and_comm]

end Registry

theorem mint_holds {env : Env} {r r' : Registry} {e e' : Symbol} {organizer owner a : Address}
    (made : Made env r (.mintTicket e' organizer owner) r') :
    r'.holds a e = r.holds a e + if owner = a ∧ e' = e then 1 else 0 := by
  obtain ⟨_, rfl, -, rfl⟩ := made
  exact Registry.holds_mint rfl

theorem batchMint_holds {env : Env} {r r' : Registry} {e e' : Symbol} {organizer owner a : Address}
    {count : ℕ} (made : Made env r (.batchMintTicket e' organizer owner count) r') :
    r'.holds a e = r.holds a e + if owner = a ∧ e' = e then count else 0 := by
  obtain ⟨_, rfl, -, rfl⟩ := made
  exact Registry.holds_minting env e' organizer owner count

end Zicket.Tickets
