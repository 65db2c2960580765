import Zicket.Linked.Agreement
import Zicket.Registry.Holdings

/-! The cap on an attendee's tickets of an event, over whole runs of the linked contracts: when
those who register have no more tickets than it says. -/

namespace Zicket.Linked

open Host Foundation Events

variable {links : Links} {env : Env} {w w' : World} {e : Symbol} {a : Address} {step : Step}

def holdings (w : World) (a : Address) (e : Symbol) : ℕ := w.outside.tickets.registry.holds a e

/-- Whoever registers for an event with a cap has no more than that many of its tickets then. -/
def CapKept (links : Links) (w : World) (step : Step) : Prop :=
  links.succeeds w step = true → match step with
  | .events _ (.registerForEvent _ a e _ _) | .events _ (.batchRegisterForEvent _ a e _ _ _) =>
    ∀ event ∈ w.get (.event e), 0 < event.maxTicketsPerUser →
      holdings (links.next w step) a e ≤ event.maxTicketsPerUser
  | _ => True

/-- Whoever registers for one ticket of an event with a cap has fewer than that many. -/
def RoomLeft (links : Links) (w : World) (step : Step) : Prop :=
  links.succeeds w step = true → match step with
  | .events _ (.registerForEvent _ a e _ _) =>
    ∀ event ∈ w.get (.event e), 0 < event.maxTicketsPerUser →
      holdings w a e < event.maxTicketsPerUser
  | _ => True

instance (w : World) (step : Step) : Decidable (CapKept links w step) := by
  unfold CapKept
  split <;> infer_instance

instance (w : World) (step : Step) : Decidable (RoomLeft links w step) := by
  unfold RoomLeft
  split <;> infer_instance

section Names

def Named (w : World) : Prop := ∀ e o, outline w e = some o → o.eventId = e

theorem Named.write {o : Outline} (named : Named w)
    (h : Becomes w w' (Function.update (outline w) e (some o))) (name : o.eventId = e) :
    Named w' := by
  intro e' o' stored
  rw [h.1] at stored
  obtain ⟨rfl, rfl⟩ | ⟨-, stored⟩ := update_eq_some.mp stored
  · exact name
  · exact named e' o' stored

theorem Effect.named {ms : List Message} {c : Call} (effect : Effect env w w' ms c)
    (named : Named w) : Named w' := by
  have keep (same : outline w' = outline w) : Named w' :=
    fun e o stored => named e o (same ▸ stored)
  cases c with
  | initialise => exact keep effect.1
  | createEvent =>
    obtain ⟨o, -, -, name, write, -⟩ := effect
    exact named.write write name
  | updateEventDetails | finalizePostponement =>
    obtain ⟨o, terms, stored, effect⟩ := effect
    have name := named _ o stored
    grind [Named.write]
  | addTicketTier | updateEventStatus | cancelEvent | postponeEvent =>
    obtain ⟨o, stored, effect⟩ := effect
    have name := named _ o stored
    grind [Named.write]
  | updateTier =>
    obtain ⟨o, _, _, _, _, -, -, stored, -, -, write, -⟩ := effect
    exact named.write write (named _ o stored)
  | _ => exact keep effect.1.1

theorem next_named (wired : Wired links w) (named : Named w) (step : Step) :
    Named (links.next w step) := by
  cases step with
  | events invocation c =>
    by_cases success : links.succeeds w (.events invocation c) = true
    · obtain ⟨ms, effect, -⟩ := wired.events success
      exact effect.named named
    · rw [next_failed success]
      exact named
  | _ => exact named

end Names

section Registrations

theorem countTickets_counts {t : Address} {ids : List ℕ} {count counted : ℕ}
    (h : countTickets links.network env t e ids count w = .ok (counted, w')) :
    counted = count + ids.countP fun k =>
      (w.outside.tickets.registry.ticket k).any fun ticket => ticket.eventId = e := by
  induction ids generalizing count w with
  | nil =>
    cases h
    rfl
  | cons id rest ih =>
    simp only [countTickets, bind_eq_ok, World.ask_eq_ok] at h
    obtain ⟨⟨minted, _⟩, ⟨outside, asked, rfl⟩, count', one, h⟩ := h
    obtain ⟨stored, rfl⟩ := Links.getTicket_same asked
    have same : w.outside.tickets.registry.ticket id = some minted := stored
    rw [ih h, List.countP_cons, same, Option.any_some]
    by_cases here : minted.eventId = e
    · simp only [here, if_true, u32_eq_ok] at one
      simp only [here, decide_true, if_true, ← one.2]
      omega
    · simp only [here, if_false, pure_eq_ok] at one
      simp only [here, decide_false, Bool.false_eq_true, if_false, ← one]
      omega

theorem batch_capped {nonce tierId count : ℕ} {emailHash : Option (BytesN 32)} {event : Event}
    (kept : w.outside.tickets.registry.Kept) (stored : w.get (.event e) = some event)
    (capped : 0 < event.maxTicketsPerUser)
    (h : batchRegisterForEvent links.network env nonce a e tierId count emailHash w = .ok w') :
    holdings w a e + count ≤ event.maxTicketsPerUser := by
  obtain ⟨call⟩ := batchRegisterForEvent_ok h
  have same : event = call.event :=
    Option.some.inj (stored.symm.trans (okOr_eq_ok.mp call.stored))
  have checked := call.asks
  rw [← same] at checked
  simp only [checkUserLimit, capped, if_true, countUserEventTickets, bind_eq_ok, World.ask_eq_ok,
    u32_eq_ok, require_eq_ok] at checked
  obtain ⟨⟨existing, _⟩, ⟨⟨ids, _⟩, ⟨outside, asked, rfl⟩, counted⟩, wanted, ⟨-, rfl⟩, -, within,
    -⟩ := checked
  obtain ⟨listed, rfl⟩ := Links.getTicketsByOwner_same asked
  have found : existing = holdings w a e := by
    rw [countTickets_counts counted, Nat.zero_add, holdings, kept.holds_eq, ← listed]
    rfl
  rw [← found]
  exact within

theorem registration_holdings {nonce tierId : ℕ} {emailHash : Option (BytesN 32)}
    {invocation : Invocation} (wired : Wired links w) (named : Named w)
    (success : links.succeeds w (.events invocation
      (.registerForEvent nonce a e tierId emailHash)) = true) :
    holdings (links.next w (.events invocation (.registerForEvent nonce a e tierId emailHash))) a e =
      holdings w a e + 1 := by
  obtain ⟨ms, ⟨-, o, price, charge, stored, -, -, charges, rfl⟩, sent⟩ := wired.events success
  have minted := Tickets.exec_made wired.outside.registry (sale_delivered charges sent).2
  rw [named e o stored] at minted
  simpa [holdings] using Tickets.mint_holds (a := a) (e := e) minted

theorem batch_holdings {nonce tierId count : ℕ} {emailHash : Option (BytesN 32)}
    {invocation : Invocation} (wired : Wired links w) (named : Named w)
    (success : links.succeeds w (.events invocation
      (.batchRegisterForEvent nonce a e tierId count emailHash)) = true) :
    holdings (links.next w (.events invocation
        (.batchRegisterForEvent nonce a e tierId count emailHash))) a e =
      holdings w a e + count := by
  obtain ⟨ms, ⟨-, o, price, amount, charge, stored, -, -, -, charges, rfl⟩, sent⟩ :=
    wired.events success
  have minted := Tickets.exec_made wired.outside.registry (sale_delivered charges sent).2
  rw [named e o stored] at minted
  simpa [holdings] using Tickets.batchMint_holds (a := a) (e := e) minted

theorem capKept_iff (wired : Wired links w) (named : Named w) :
    CapKept links w step ↔ RoomLeft links w step := by
  refine forall_congr' fun success => ?_
  cases step with
  | events invocation c =>
    cases c with
    | registerForEvent nonce a e tierId emailHash =>
      dsimp only
      rw [registration_holdings wired named success]
      simp only [Nat.succ_le_iff]
    | batchRegisterForEvent nonce a e tierId count emailHash =>
      refine iff_of_true (fun event stored capped => ?_) trivial
      rw [batch_holdings wired named success]
      obtain ⟨w', result⟩ := events_succeeds.mp success
      exact batch_capped wired.outside.registry stored capped result
    | _ => exact Iff.rfl
  | _ => exact Iff.rfl

end Registrations

/-- All along a run those who register have no more tickets of the event than its cap says exactly
when whoever registers for one ticket has fewer. -/
theorem caps_kept_iff (links : Links) (setup : Setup) (steps : List Step)
    (linked : LinkedRun links setup steps) :
    Along links.next (CapKept links) (links.opened setup) steps ↔
      Along links.next (RoomLeft links) (links.opened setup) steps := by
  have start : Wired links (links.opened setup) ∧ Named (links.opened setup) :=
    ⟨opened_wired links setup, nofun⟩
  have reached := linked.strengthen (I := fun w => Wired links w ∧ Named w)
    (fun w step inv keeps => ⟨next_wired inv.1 keeps, next_named inv.1 inv.2 step⟩) start
  constructor
  · exact fun kept => (kept.and reached).mono fun w step ⟨kept, inv, _⟩ =>
      (capKept_iff inv.1 inv.2).mp kept
  · exact fun room => (room.and reached).mono fun w step ⟨room, inv, _⟩ =>
      (capKept_iff inv.1 inv.2).mpr room

namespace Sample

def capped : List Step :=
  [events 1 (.createEvent { params with maxTicketsPerUser := 1 }),
    events 2 (.updateEventStatus organizer concert .active)]

def handedOver : List Step :=
  capped ++ [events 3 (.registerForEvent 1 amy concert 0 none),
    .tickets (invocation 4) (.transferTicket amy bob 1)]

end Sample

theorem caps_kept_iff_single :
    Along Sample.links.next (CapKept Sample.links) (Sample.links.opened Sample.setup)
      Sample.handedOver :=
  (caps_kept_iff Sample.links Sample.setup Sample.handedOver (by decide)).mpr (by decide)

/-- Bob, who has amy's ticket, registers and has two. -/
theorem cap_exceeded :
    let steps := Sample.handedOver ++ [Sample.events 5 (.registerForEvent 1 Sample.bob
      Sample.concert 0 none)]
    LinkedRun Sample.links Sample.setup steps ∧
      holdings (run Sample.links.next (Sample.links.opened Sample.setup) steps) Sample.bob
        Sample.concert = 2 ∧
      ¬ Along Sample.links.next (CapKept Sample.links) (Sample.links.opened Sample.setup) steps := by
  refine ⟨by decide, by decide, by decide⟩

end Zicket.Linked
