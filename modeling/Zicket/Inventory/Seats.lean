import Zicket.Inventory.Edits

/-! What the operations on seats do: which changes of the inventory they are, and what the
payments and the ticket contract are asked. Registrations and free claims are counted in
entries outside the roster. -/

namespace Zicket.Events

open Host Foundation World

variable {σ : Type} {net : Network σ} {env : Env} {w w' : World σ} {e : Symbol} {event : Event}

/-- From `r` to `r'` the inventory of `e` makes the changes `cs`; the others stay. -/
def Roster.Made (r r' : Roster) (e : Symbol) (cs : List Change) : Prop :=
  Along Inventory.apply Inventory.Sound (r.inventory e) cs ∧
    r'.inventory = Function.update r.inventory e (run Inventory.apply (r.inventory e) cs)

theorem Roster.Made.same {r r' : Roster} (same : r'.inventory = r.inventory) (e : Symbol) :
    r.Made r' e [] := by
  refine ⟨trivial, ?_⟩
  rw [same, run_nil, Function.update_eq_self]

def Roster.seat (r : Roster) (e : Symbol) (event : Event) (a : Address) (id : Option ℕ) : Roster :=
  { r.putEvent e event with held := put r.held e a id }

theorem Roster.inventory_seat (r : Roster) (e : Symbol) (event : Event) (a : Address)
    (id : Option ℕ) : (r.seat e event a id).inventory =
      Function.update r.inventory e (event.inventory (Function.update (r.held e) a id)) := by
  have put_first : r.seat e event a id = { r.putEvent e event with
      held := put (r.putEvent e event).held e a id } := rfl
  rw [put_first, inventory_put_held, inventory_putEvent, Function.update_self,
    Function.update_idem]
  rfl

section Frames

variable {a : Address}

theorem saveRegistration_roster (h : w.saveRegistration e a = .ok w') :
    w'.roster = w.roster ∧ w'.outside = w.outside := by
  simp only [saveRegistration, bind_eq_ok, pure_eq_ok, u64_eq_ok] at h
  obtain ⟨_, -, rfl⟩ := h
  exact ⟨rfl, rfl⟩

theorem registerOnce_roster (h : registerOnce e a w = .ok w') :
    w'.roster = w.roster ∧ w'.outside = w.outside := by
  unfold registerOnce at h
  split at h
  · cases h
    exact ⟨rfl, rfl⟩
  · exact saveRegistration_roster h

theorem recordFreeClaims_roster {count : ℕ} (h : recordFreeClaims env e a count w = .ok w') :
    w'.roster = w.roster ∧ w'.outside = w.outside := by
  induction count generalizing w with
  | zero =>
    cases h
    exact ⟨rfl, rfl⟩
  | succ count ih =>
    simp only [recordFreeClaims, incrementFreeClaimCount, bind_eq_ok, pure_eq_ok] at h
    obtain ⟨_, ⟨_, -, rfl⟩, h⟩ := h
    have rest := ih h
    exact rest

theorem recordIfFree_roster {price : ℤ} {count : ℕ} (h : recordIfFree env e a price count w = .ok w') :
    w'.roster = w.roster ∧ w'.outside = w.outside := by
  unfold recordIfFree at h
  split at h
  · exact recordFreeClaims_roster h
  · cases h
    exact ⟨rfl, rfl⟩

theorem removeRegistration_roster (w : World σ) (e : Symbol) (a : Address) :
    (w.removeRegistration e a).roster = w.roster ∧
      (w.removeRegistration e a).outside = w.outside := by
  unfold removeRegistration
  simp only
  split
  · exact ⟨rfl, rfl⟩
  · split
    · exact ⟨rfl, rfl⟩
    · split
      · split
        · exact ⟨rfl, rfl⟩
        · exact ⟨rfl, rfl⟩
      · exact ⟨rfl, rfl⟩

theorem countAnonClaim_roster (h : countAnonClaim env e w = .ok w') :
    w'.roster = w.roster ∧ w'.outside = w.outside := by
  unfold countAnonClaim at h
  simp only at h
  split at h
  · simp only [bind_eq_ok, pure_eq_ok] at h
    obtain ⟨-, -, _, -, rfl⟩ := h
    exact ⟨rfl, rfl⟩
  · cases h
    exact ⟨rfl, rfl⟩

end Frames

section Hold

variable {a : Address} {tierId : ℕ}

theorem releaseSeat_ok {released : Event} (h : event.releaseSeat tierId = .ok released) :
    ∃ index tier, event.tiers[index]? = some tier ∧ tier.tierId = tierId ∧
      released = event.setTier index tier.unreserve := by
  simp only [Event.releaseSeat, bind_eq_ok, pure_eq_ok] at h
  obtain ⟨⟨index, tier⟩, found, rfl⟩ := h
  obtain ⟨place, number⟩ := findTier_ok found
  exact ⟨index, tier, place, number, rfl⟩

theorem requireSeat_ok {tier : TicketTier} {u : Unit} (h : requireSeat tier = .ok u) :
    tier.sold + tier.reserved < tier.capacity := by
  simp only [requireSeat, bind_eq_ok, u32_eq_ok, require_eq_ok] at h
  obtain ⟨_, ⟨-, rfl⟩, free⟩ := h
  exact free

theorem holdSeat_spec (h : holdSeat env a e tierId event w = .ok w') :
    ∃ index tier, event.tiers[index]? = some tier ∧ tier.tierId = tierId ∧
      tier.sold + tier.reserved < tier.capacity ∧ w'.outside = w.outside ∧
      w'.roster = w.roster.seat e
        (event.setTier index { tier with reserved := tier.reserved + 1 }) a (some tierId) := by
  simp only [holdSeat, bind_eq_ok, pure_eq_ok, u64_eq_ok, u32_eq_ok] at h
  obtain ⟨⟨index, tier⟩, found, _, seat, _, -, _, ⟨-, rfl⟩, rfl⟩ := h
  obtain ⟨place, number⟩ := findTier_ok found
  refine ⟨index, tier, place, number, requireSeat_ok seat, rfl, ?_⟩
  rw [roster_saveEvent, roster_saveReservation]
  rfl

/-- The changes of a reservation: an expired one is released first. -/
theorem reserveTicket_spec (h : reserveTicket env a e tierId w = .ok w') :
    w'.outside = w.outside ∧ (w' = w ∨ ∃ event, w.roster.event e = some event ∧
      event.status = .active ∧ ∃ tiers cs, w.roster.Made w'.roster e cs ∧
        w'.roster = w.roster.seat e { event with tiers } a (some tierId)) := by
  simp only [reserveTicket, bind_eq_ok, require_eq_ok, getEvent_ok] at h
  obtain ⟨-, -, event, stored, -, active, -, -, h⟩ := h
  have inventory := w.roster.inventory_of_event stored
  have status : (w.roster.inventory e).status = some .active := by
    rw [inventory, ← active]
    rfl
  cases reserved : w.get (.reservation e a) with
  | none =>
    rw [reserved] at h
    obtain ⟨index, tier, place, number, free, outside, roster⟩ := holdSeat_spec h
    refine ⟨outside, .inr ⟨event, stored, active, _, [.hold a index tier], ?_, roster⟩⟩
    have unheld : (w.roster.inventory e).held a = none := by
      rw [Roster.inventory_held]
      exact congrArg (Option.map _) reserved
    subst number
    refine ⟨⟨⟨status, ?_, free, unheld⟩, trivial⟩, ?_⟩
    · rw [inventory]
      exact place
    · rw [roster, Roster.inventory_seat, inventory]
      rfl
  | some reservation =>
    rw [reserved] at h
    simp only at h
    split at h
    · cases h
      exact ⟨rfl, .inl rfl⟩
    · obtain ⟨released, released_ok, h⟩ := bind_eq_ok.mp h
      obtain ⟨index₀, tier₀, place₀, number₀, rfl⟩ := releaseSeat_ok released_ok
      obtain ⟨index, tier, place, number, free, outside, roster⟩ := holdSeat_spec h
      refine ⟨outside, .inr ⟨event, stored, active, _,
        [.release a index₀ tier₀, .hold a index tier], ?_, roster⟩⟩
      have held : (w.roster.inventory e).held a = some tier₀.tierId := by
        rw [Roster.inventory_held, number₀]
        exact congrArg (Option.map _) reserved
      subst number
      refine ⟨⟨⟨?_, held⟩, ⟨status, ?_, free, ?_⟩, trivial⟩, ?_⟩
      · rw [inventory]
        exact place₀
      · rw [inventory]
        exact place
      · exact Function.update_self ..
      · rw [roster, Roster.inventory_seat, inventory]
        simp only [run_cons, run_nil, Inventory.apply, Inventory.setTier, Event.inventory,
          Event.setTier, Function.update_idem, TicketTier.unreserve]

theorem releaseExpiredReservation_spec (h : releaseExpiredReservation env e a w = .ok w') :
    w'.outside = w.outside ∧ ∃ event, w.roster.event e = some event ∧ ∃ tiers index tier,
      w.roster.Made w'.roster e [.release a index tier] ∧
        w'.roster = w.roster.seat e { event with tiers } a none := by
  simp only [releaseExpiredReservation, bind_eq_ok, pure_eq_ok, getEvent_ok] at h
  obtain ⟨reservation, reserved, -, -, event, stored, released, released_ok, rfl⟩ := h
  obtain ⟨index, tier, place, number, rfl⟩ := releaseSeat_ok released_ok
  have inventory := w.roster.inventory_of_event stored
  have roster : ((w.removeReservation e a).saveEvent e
      (event.setTier index tier.unreserve)).roster =
        w.roster.seat e (event.setTier index tier.unreserve) a none := by
    rw [roster_saveEvent, roster_removeReservation]
    rfl
  refine ⟨rfl, event, stored, _, index, tier, ⟨⟨⟨?_, ?_⟩, trivial⟩, ?_⟩, roster⟩
  · rw [inventory]
    exact place
  · rw [Roster.inventory_held, number]
    exact congrArg (Option.map _) (okOr_eq_ok.mp reserved)
  · rw [roster, Roster.inventory_seat, inventory]
    rfl

end Hold

end Zicket.Events
