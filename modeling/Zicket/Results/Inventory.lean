import Zicket.Inventory.Calls

/-! Seats over whole runs of the event contract, whatever the linked contracts answer. -/

namespace Zicket.Events

open Host Foundation

variable {σ : Type}

/-- Nothing is oversold, and a seat is reserved for each reservation and for no one else. -/
theorem inventory_exact (net : Network σ) (d : Deployment) (outside : σ) (steps : List (Step σ)) :
    let w := run (World.next net d) (deployed outside) steps
    ∀ e event, w.getEvent e = .ok event →
      event.maxSupply = (event.tiers.map (·.capacity)).sum ∧
      event.soldCount = (event.tiers.map (·.sold)).sum ∧
      event.tiers.map (·.tierId) = List.range event.tiers.length ∧
      ∀ tier ∈ event.tiers, tier.sold + tier.reserved ≤ tier.capacity ∧
        {a | ∃ r, w.getReservation e a = .ok r ∧ r.tierId = tier.tierId}.encard =
          tier.reserved := by
  intro w e event stored
  have kept := reachable_stocked net d outside steps e
  rw [w.roster.inventory_of_event (getEvent_ok.mp stored)] at kept
  refine ⟨kept.supply, kept.sold, kept.numbered, fun tier mem => ⟨kept.seats tier mem, ?_⟩⟩
  obtain ⟨index, place⟩ := List.mem_iff_getElem?.mp mem
  rw [← kept.reservedIn place, ← kept.reserved]
  congr 1
  ext a
  change (∃ r, w.getReservation e a = .ok r ∧ _) ↔ (w.get (.reservation e a)).map (·.tierId) = _
  simp only [World.getReservation, okOr_eq_ok, Option.map_eq_some_iff]

namespace Sample

def silent : Network Unit where
  networkId := Vector.replicate 32 0
  getAcceptedToken _ _ s := some (Payments.Sample.token, s)
  syncEventConfig _ _ _ _ _ s := some s
  syncRevenueSplits _ _ _ _ _ s := some s
  cancelEvent _ _ _ _ s := some s
  postponeEvent _ _ _ _ _ s := some s
  resumeEvent _ _ _ _ s := some s
  paymentsTicket _ _ _ _ := none
  requestPostponementRefund _ _ _ _ _ := none
  payForTicket _ _ _ _ _ _ _ _ _ _ _ s := some s
  withdrawRevenue _ _ _ _ s := some s
  withdrawSplit _ _ _ _ s := some s
  flagCohost _ _ _ _ _ s := some s
  trySetEventContract _ _ _ _ s := s
  mintTicket _ _ _ _ _ s := some s
  batchMintTicket _ _ _ _ _ _ s := some s
  getTicketsByOwner _ _ _ s := some ([], s)
  getTicket _ _ _ _ := none
  cancelTicket _ _ _ _ s := some s
  tryVerify _ _ _ _ s := (true, s)

def seated : List (Step Unit) :=
  [call 1 (.initialise organizer ⟨7⟩ ⟨8⟩), call 1 (.createEvent params),
    call 2 (.updateEventStatus organizer concert .active), call 3 (.reserveTicket bob concert 0),
    call 4 (.registerForEvent 1 amy concert 0 none)]

end Sample

theorem inventory_exact_seated :
    let w := run (World.next Sample.silent Sample.deployment) (deployed ()) Sample.seated
    ∃ event, w.getEvent Sample.concert = .ok event ∧
      event.maxSupply = (event.tiers.map (·.capacity)).sum ∧
      event.soldCount = (event.tiers.map (·.sold)).sum ∧
      event.tiers.map (·.tierId) = List.range event.tiers.length ∧
      ∀ tier ∈ event.tiers, tier.sold + tier.reserved ≤ tier.capacity ∧
        {a | ∃ r, w.getReservation Sample.concert a = .ok r ∧ r.tierId = tier.tierId}.encard =
          tier.reserved :=
  ⟨_, rfl, inventory_exact Sample.silent Sample.deployment () Sample.seated Sample.concert _ rfl⟩

example :
    ((run (World.next Sample.silent Sample.deployment) (deployed ()) Sample.seated).get
      (.event Sample.concert)).map (fun event => event.tiers.map fun tier => (tier.sold, tier.reserved)) =
        some [(1, 1), (0, 0)] := by
  decide

end Zicket.Events
