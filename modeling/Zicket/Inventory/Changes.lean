import Zicket.Events.Types
import Zicket.Foundation.Holdings
import Zicket.Foundation.Run

/-! The seats of one event, apart from how they are stored: its tiers with what is sold and
reserved in them, and who holds a reservation. A change is one entry; `Sound` says when the
contract may make it, and `Kept` is what holds of every inventory the contract builds. -/

namespace Zicket.Events

open Host Foundation

structure Inventory where
  status : Option EventStatus
  tiers : List TicketTier
  maxSupply : ℕ
  soldCount : ℕ
  held : Address → Option ℕ

inductive Change where
  | create (tiers : List TicketTier) (maxSupply : ℕ)
  | setStatus (status : EventStatus)
  | addTier (tier : TicketTier)
  | editTier (index : ℕ) (tier edited : TicketTier)
  | hold (a : Address) (index : ℕ) (tier : TicketTier)
  | release (a : Address) (index : ℕ) (tier : TicketTier)
  | sell (index : ℕ) (tier : TicketTier) (count : ℕ)

namespace Inventory

def setTier (r : Inventory) (index : ℕ) (tier : TicketTier) : Inventory :=
  { r with tiers := r.tiers.set index tier }

def apply (r : Inventory) : Change → Inventory
  | .create tiers maxSupply =>
    { r with status := some .upcoming, tiers, maxSupply, soldCount := 0 }
  | .setStatus status => { r with status := some status }
  | .addTier tier =>
    { r with tiers := r.tiers ++ [tier], maxSupply := r.maxSupply + tier.capacity }
  | .editTier index tier edited =>
    { r.setTier index edited with maxSupply := r.maxSupply + edited.capacity - tier.capacity }
  | .hold a index tier =>
    { r.setTier index { tier with reserved := tier.reserved + 1 } with
      held := Function.update r.held a (some tier.tierId) }
  | .release a index tier =>
    { r.setTier index { tier with reserved := tier.reserved - 1 } with
      held := Function.update r.held a none }
  | .sell index tier count =>
    { r.setTier index { tier with sold := tier.sold + count } with
      soldCount := r.soldCount + count }

def Unsold (tier : TicketTier) : Prop := tier.sold = 0 ∧ tier.reserved = 0

def Sound (r : Inventory) : Change → Prop
  | .create tiers maxSupply =>
    r.status = none ∧ tiers.map (·.tierId) = List.range tiers.length ∧
      maxSupply = (tiers.map (·.capacity)).sum ∧ ∀ tier ∈ tiers, Unsold tier
  | .setStatus status => r.status ≠ none ∧ status ≠ .upcoming
  | .addTier tier =>
    r.status = some .upcoming ∧ tier.tierId = r.tiers.length ∧ Unsold tier
  | .editTier index tier edited =>
    r.status = some .upcoming ∧ r.tiers[index]? = some tier ∧ edited.tierId = tier.tierId ∧
      edited.sold = tier.sold ∧ edited.reserved = tier.reserved
  | .hold a index tier =>
    r.status = some .active ∧ r.tiers[index]? = some tier ∧
      tier.sold + tier.reserved < tier.capacity ∧ r.held a = none
  | .release a index tier => r.tiers[index]? = some tier ∧ r.held a = some tier.tierId
  | .sell index tier count =>
    r.status = some .active ∧ r.tiers[index]? = some tier ∧
      tier.sold + tier.reserved + count ≤ tier.capacity

def reservedIn (r : Inventory) (id : ℕ) : ℕ := (r.tiers[id]?).elim 0 (·.reserved)

structure Kept (r : Inventory) : Prop where
  numbered : r.tiers.map (·.tierId) = List.range r.tiers.length
  supply : r.maxSupply = (r.tiers.map (·.capacity)).sum
  sold : r.soldCount = (r.tiers.map (·.sold)).sum
  seats : ∀ tier ∈ r.tiers, tier.sold + tier.reserved ≤ tier.capacity
  reserved : ∀ id, (holders r.held id).encard = r.reservedIn id
  unsold : r.status = some .upcoming → ∀ tier ∈ r.tiers, Unsold tier
  absent : r.status = none → r.tiers = []

end Inventory

namespace Inventory

variable {r : Inventory}

theorem Kept.tierId (h : r.Kept) {index : ℕ} {tier : TicketTier}
    (stored : r.tiers[index]? = some tier) : tier.tierId = index := by
  have lt := (List.getElem?_eq_some_iff.mp stored).1
  have number : (r.tiers.map (·.tierId))[index]? = (List.range r.tiers.length)[index]? := by
    rw [h.numbered]
  rw [List.getElem?_map, stored, List.getElem?_range lt] at number
  exact Option.some.inj number

theorem Kept.reservedIn (h : r.Kept) {index : ℕ} {tier : TicketTier}
    (stored : r.tiers[index]? = some tier) : r.reservedIn tier.tierId = tier.reserved := by
  rw [Inventory.reservedIn, h.tierId stored, stored]
  rfl

theorem Kept.reserved_pos (h : r.Kept) {index : ℕ} {tier : TicketTier} {a : Address}
    (stored : r.tiers[index]? = some tier) (held : r.held a = some tier.tierId) :
    0 < tier.reserved :=
  holders_pos held ((h.reserved _).trans (by rw [h.reservedIn stored]))

theorem reservedIn_setTier {index : ℕ} {tier tier' : TicketTier}
    (stored : r.tiers[index]? = some tier) (id : ℕ) :
    (r.setTier index tier').reservedIn id =
      if id = index then tier'.reserved else r.reservedIn id := by
  have lt := (List.getElem?_eq_some_iff.mp stored).1
  unfold Inventory.reservedIn setTier
  rw [List.getElem?_set]
  by_cases same : id = index
  · simp [same, lt]
  · simp [same, Ne.symm same]

theorem mem_setTier {index : ℕ} {tier : TicketTier} {P : TicketTier → Prop}
    (h : ∀ tier ∈ r.tiers, P tier) (new : P tier) : ∀ t ∈ (r.setTier index tier).tiers, P t := by
  intro t mem
  obtain mem | rfl := List.mem_or_eq_of_mem_set mem
  · exact h t mem
  · exact new

theorem setTier_numbered (h : r.Kept) {index : ℕ} {tier tier' : TicketTier}
    (stored : r.tiers[index]? = some tier) (same : tier'.tierId = tier.tierId) :
    (r.setTier index tier').tiers.map (·.tierId) =
      List.range (r.setTier index tier').tiers.length := by
  unfold setTier
  rw [map_set_eq stored (·.tierId) same, List.length_set, h.numbered]

theorem apply_create {tiers : List TicketTier} {maxSupply : ℕ} (h : r.Kept)
    (sound : r.Sound (.create tiers maxSupply)) : (r.apply (.create tiers maxSupply)).Kept := by
  obtain ⟨absent, numbered, supply, unsold⟩ := sound
  exact
    { numbered, supply
      sold := by
        refine (List.sum_eq_zero fun n mem => ?_).symm
        obtain ⟨tier, listed, rfl⟩ := List.mem_map.mp mem
        exact (unsold tier listed).1
      seats := by
        intro tier mem
        rw [(unsold tier mem).1, (unsold tier mem).2]
        exact Nat.zero_le _
      reserved := by
        -- nobody can hold a seat of an event that was not there
        intro id
        refine (h.reserved id).trans ?_
        have before : r.reservedIn id = 0 := by rw [Inventory.reservedIn, h.absent absent]; rfl
        have after : (r.apply (.create tiers maxSupply)).reservedIn id = 0 := by
          change (tiers[id]?).elim 0 (·.reserved) = 0
          cases stored : tiers[id]? with
          | none => rfl
          | some tier => exact (unsold tier (List.mem_of_getElem? stored)).2
        rw [before, after]
      unsold := fun _ => unsold
      absent := fun none => by cases none }

theorem apply_addTier {tier : TicketTier} (h : r.Kept) (sound : r.Sound (.addTier tier)) :
    (r.apply (.addTier tier)).Kept := by
  obtain ⟨upcoming, number, unsold⟩ := sound
  have member {P : TicketTier → Prop} (old : ∀ t ∈ r.tiers, P t) (new : P tier) :
      ∀ t ∈ (r.apply (.addTier tier)).tiers, P t := by
    intro t mem
    obtain mem | mem := List.mem_append.mp mem
    · exact old t mem
    · rw [List.mem_singleton.mp mem]
      exact new
  exact
    { numbered := by
        change (r.tiers ++ [tier]).map _ = List.range (r.tiers ++ [tier]).length
        rw [List.map_append, h.numbered, List.length_append, List.map_singleton, number]
        exact List.range_succ.symm
      supply := by
        change r.maxSupply + tier.capacity = ((r.tiers ++ [tier]).map _).sum
        simp [h.supply]
      sold := by
        change r.soldCount = ((r.tiers ++ [tier]).map _).sum
        simp [h.sold, unsold.1]
      seats := member h.seats (by rw [unsold.1, unsold.2]; exact Nat.zero_le _)
      reserved := by
        intro id
        refine (h.reserved id).trans ?_
        have same : (r.apply (.addTier tier)).reservedIn id = r.reservedIn id := by
          change ((r.tiers ++ [tier])[id]?).elim 0 (·.reserved) = _
          unfold Inventory.reservedIn
          rw [List.getElem?_append]
          split
          · rfl
          · rename_i beyond
            rw [List.getElem?_eq_none (by omega : r.tiers.length ≤ id)]
            cases tail : [tier][id - r.tiers.length]? with
            | none => rfl
            | some t =>
              rw [List.mem_singleton.mp (List.mem_of_getElem? tail)]
              exact unsold.2
        rw [same]
      unsold := fun _ => member (h.unsold upcoming) unsold
      absent := fun none => by
        change r.status = Option.none at none
        rw [upcoming] at none
        cases none }

theorem apply_editTier {index : ℕ} {tier edited : TicketTier} (h : r.Kept)
    (sound : r.Sound (.editTier index tier edited)) :
    (r.apply (.editTier index tier edited)).Kept := by
  obtain ⟨upcoming, stored, number, sold, reserved⟩ := sound
  have unsold := h.unsold upcoming
  have mem := List.mem_of_getElem? stored
  have editedUnsold : Unsold edited :=
    ⟨sold.trans (unsold tier mem).1, reserved.trans (unsold tier mem).2⟩
  have member : ∀ t ∈ (r.setTier index edited).tiers, Unsold t := mem_setTier unsold editedUnsold
  exact
    { numbered := setTier_numbered h stored number
      supply := by
        have total := sum_map_set stored edited (·.capacity)
        have part := le_sum_map mem (·.capacity)
        change r.maxSupply + edited.capacity - tier.capacity =
          ((r.tiers.set index edited).map _).sum
        rw [h.supply]
        omega
      sold := by
        have total := sum_map_set stored edited (·.sold)
        change r.soldCount = ((r.tiers.set index edited).map _).sum
        rw [h.sold]
        omega
      seats := by
        intro t listed
        rw [(member t listed).1, (member t listed).2]
        exact Nat.zero_le _
      reserved := by
        intro id
        refine (h.reserved id).trans ?_
        change (r.reservedIn id : ℕ∞) = (r.setTier index edited).reservedIn id
        rw [reservedIn_setTier stored]
        split
        · rename_i same
          rw [same, ← h.tierId stored, h.reservedIn stored, reserved]
        · rfl
      unsold := fun _ => member
      absent := fun none => by
        change r.status = Option.none at none
        rw [upcoming] at none
        cases none }

section Seats

variable {index : ℕ} {tier tier' : TicketTier} {soldCount : ℕ} {held : Address → Option ℕ}

/-- Seats of one tier change hands; the event is not upcoming, so nothing is frozen. -/
theorem setTier_kept (h : r.Kept) (stored : r.tiers[index]? = some tier)
    (number : tier'.tierId = tier.tierId) (capacity : tier'.capacity = tier.capacity)
    (seats : tier'.sold + tier'.reserved ≤ tier'.capacity)
    (sold : soldCount + tier.sold = r.soldCount + tier'.sold)
    (reserved : ∀ id, (holders held id).encard =
      Function.update r.reservedIn tier.tierId tier'.reserved id)
    (unsold : r.status = some .upcoming → Unsold tier') :
    { r.setTier index tier' with soldCount, held }.Kept where
  numbered := setTier_numbered h stored number
  supply := by
    change r.maxSupply = ((r.tiers.set index tier').map _).sum
    rw [map_set_eq stored (·.capacity) capacity, h.supply]
  sold := by
    have total := sum_map_set stored tier' (·.sold)
    have before := h.sold
    change soldCount = ((r.tiers.set index tier').map _).sum
    omega
  seats := mem_setTier h.seats seats
  reserved := by
    intro id
    rw [reserved, h.tierId stored, Function.update_apply]
    change _ = ((r.setTier index tier').reservedIn id : ℕ∞)
    rw [reservedIn_setTier stored]
  unsold := fun upcoming => mem_setTier (h.unsold upcoming) (unsold upcoming)
  absent := by
    intro none
    have empty := h.absent none
    rw [empty] at stored
    cases stored

end Seats

theorem apply_hold {a : Address} {index : ℕ} {tier : TicketTier} (h : r.Kept)
    (sound : r.Sound (.hold a index tier)) : (r.apply (.hold a index tier)).Kept := by
  obtain ⟨active, stored, free, unheld⟩ := sound
  have taken := counts_take (i := tier.tierId) h.reserved unheld
  rw [h.reservedIn stored] at taken
  have upcoming : r.status ≠ some .upcoming := by rw [active]; decide
  exact setTier_kept h stored rfl rfl (by simp only; omega) rfl taken
    fun same => absurd same upcoming

theorem apply_release {a : Address} {index : ℕ} {tier : TicketTier} (h : r.Kept)
    (sound : r.Sound (.release a index tier)) : (r.apply (.release a index tier)).Kept := by
  obtain ⟨stored, has⟩ := sound
  have pos := h.reserved_pos stored has
  have seats := h.seats tier (List.mem_of_getElem? stored)
  have dropped := counts_drop h.reserved has
  rw [h.reservedIn stored] at dropped
  refine setTier_kept h stored rfl rfl (by simp only; omega) rfl dropped fun upcoming => ?_
  have unsold := h.unsold upcoming tier (List.mem_of_getElem? stored)
  exact ⟨unsold.1, by simp only; have := unsold.2; omega⟩

theorem apply_sell {index : ℕ} {tier : TicketTier} {count : ℕ} (h : r.Kept)
    (sound : r.Sound (.sell index tier count)) : (r.apply (.sell index tier count)).Kept := by
  obtain ⟨active, stored, free⟩ := sound
  have same : Function.update r.reservedIn tier.tierId tier.reserved = r.reservedIn := by
    rw [← h.reservedIn stored, Function.update_eq_self]
  have upcoming : r.status ≠ some .upcoming := by rw [active]; decide
  refine setTier_kept h stored rfl rfl (by simp only; omega) (by simp only; omega) ?_
    fun same => absurd same upcoming
  intro id
  rw [same]
  exact h.reserved id

theorem apply_kept (h : r.Kept) {c : Change} (sound : r.Sound c) : (r.apply c).Kept := by
  cases c with
  | create => exact apply_create h sound
  | setStatus status =>
    exact
      { h with
        unsold := fun upcoming => absurd (Option.some.inj upcoming) sound.2
        absent := fun none => by cases none }
  | addTier => exact apply_addTier h sound
  | editTier => exact apply_editTier h sound
  | hold => exact apply_hold h sound
  | release => exact apply_release h sound
  | sell => exact apply_sell h sound

theorem run_kept {cs : List Change} (sound : Along apply Sound r cs) (h : r.Kept) :
    (run apply r cs).Kept :=
  run_invariant (I := Kept) (fun _ _ kept sound => apply_kept kept sound) sound h

end Inventory

end Zicket.Events
