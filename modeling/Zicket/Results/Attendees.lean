import Zicket.Attendance.Footprint
import Zicket.Results.Inventory

/-! What the event contract stores of the attendees of an event that is not for standard
payments: the sales refuse such an event, a reservation is made without looking. -/

namespace Zicket.Events

open Host Foundation World

variable {σ : Type} {net : Network σ} {d : Deployment} {env : Env} {w w' : World σ} {e : Symbol}
  {a : Address}

/-- No entry of the event names an attendee. -/
def World.NamesNobody (w : World σ) (e : Symbol) : Prop :=
  ∀ a k, DataKey.OfAttendee e a k → w.get k = none

/-- The event is private or anonymous, if there is one. -/
def World.Hides (w : World σ) (e : Symbol) : Prop :=
  ∀ event ∈ (w.get (.event e) : Option Event), w.getEventPrivacy e ≠ .standard

instance (w : World σ) (e : Symbol) : Decidable (w.Hides e) :=
  inferInstanceAs (Decidable (∀ _ ∈ _, _))

def Unreserved (e : Symbol) (_ : Env) (_ : World σ) : Call → Prop
  | .reserveTicket _ e' _ => e' ≠ e
  | _ => True

instance (e : Symbol) (env : Env) (w : World σ) (c : Call) : Decidable (Unreserved e env w c) := by
  apply @Call.casesOn (fun c => Decidable (Unreserved e env w c)) c <;> intros <;>
    dsimp only [Unreserved] <;> infer_instance

section Reservations

theorem reserveTicket_stores {tierId : ℕ} (h : reserveTicket env a e tierId w = .ok w') :
    w'.get (.reservation e a) ≠ none := by
  have held {event : Event} (h : holdSeat env a e tierId event w = .ok w') :
      w'.get (.reservation e a) ≠ none := by
    simp only [holdSeat, bind_eq_ok, pure_eq_ok] at h
    obtain ⟨_, -, _, -, expiresAt, -, _, -, rfl⟩ := h
    have saved : (w.saveReservation e a ⟨tierId, expiresAt⟩).get (.reservation e a) =
        some ⟨tierId, expiresAt⟩ := Store.get_set_self _ _ _
    have stored (event : Event) :
        ((w.saveReservation e a ⟨tierId, expiresAt⟩).saveEvent e event).get (.reservation e a) =
          some ⟨tierId, expiresAt⟩ :=
      (Store.get_set_of_ne (k := DataKey.event e) _ event (by simp)).trans saved
    rw [stored]
    exact Option.some_ne_none _
  simp only [reserveTicket, bind_eq_ok] at h
  obtain ⟨-, -, event, -, -, -, -, -, h⟩ := h
  split at h
  · rename_i reservation stored
    split at h
    · cases h
      exact stored ▸ Option.some_ne_none _
    · obtain ⟨event', -, h⟩ := bind_eq_ok.mp h
      exact held h
  · exact held h

end Reservations

section Removal

theorem removeRegistration_namesNobody (nobody : w.NamesNobody e) (e' : Symbol) (a : Address) :
    (w.removeRegistration e' a).NamesNobody e := by
  by_cases same : e' = e
  · subst same
    have cleared : (w.remove (.registration e' a)).NamesNobody e' := by
      intro b k names
      by_cases here : k = .registration e' a
      · rw [here]
        exact Store.get_remove_self _ _
      · exact (Store.get_remove_of_ne _ here).trans (nobody b k names)
    have unlisted (i : ℕ) : (w.remove (.registration e' a)).get (.eventAttendeeIndex e' i) = none :=
      cleared a _ (.inr (.inr (.inr (.inr ⟨i, rfl⟩))))
    unfold removeRegistration
    simp only
    split
    · exact cleared
    · split
      · exact cleared
      · rename_i idx found
        have listed := List.find?_some found
        simp only [unlisted] at listed
        simp at listed
  · intro b k names
    have written : w.Writes (DataKey.OfAttendeeList e' a) (w.removeRegistration e' a) :=
      removeRegistration_writes fun _ mem => mem
    refine (written.get fun listed => same ?_).trans (nobody b k names)
    simp only [DataKey.OfAttendeeList, DataKey.OfAttendee] at listed names
    obtain rfl | rfl | ⟨i, rfl⟩ := listed <;> simp at names
    · exact names.1
    · exact names

theorem requestPostponementRefund_namesNobody {ticketId : ℕ} (nobody : w.NamesNobody e)
    (h : requestPostponementRefund net env a ticketId w = .ok w') : w'.NamesNobody e := by
  simp only [requestPostponementRefund, bind_eq_ok, pure_eq_ok, tell_eq_ok, ask_eq_ok] at h
  obtain ⟨-, -, p, -, ⟨ticket, _⟩, ⟨s₁, -, rfl⟩, event, -, -, -, t, -, ⟨first, w₂⟩, scan, revocable,
    -, _, ⟨s₃, -, rfl⟩, _, ⟨s₄, -, rfl⟩, ⟨left, w₅⟩, rescan, rfl⟩ := h
  have frame := (firstRevocable_queried rescan).1.trans (firstRevocable_queried scan).1
  have still : w₅.NamesNobody e :=
    fun b k names => (congrArg (Store.get · k) frame).trans (nobody b k names)
  split
  · exact still
  · exact removeRegistration_namesNobody still _ a

end Removal

section Steps

theorem sale_standard {c : Call} (success : c.exec net env w = .ok w')
    (sale : (∃ nonce tierId hash, c = .registerForEvent nonce a e tierId hash) ∨
      ∃ nonce tierId count hash, c = .batchRegisterForEvent nonce a e tierId count hash) :
    ¬ w.Hides e := by
  intro hides
  obtain ⟨event, stored, standard⟩ : ∃ event, w.get (.event e) = some event ∧
      w.getEventPrivacy e = .standard := by
    obtain ⟨nonce, tierId, hash, rfl⟩ | ⟨nonce, tierId, count, hash, rfl⟩ := sale
    · obtain ⟨call⟩ := registerForEvent_ok success
      exact ⟨call.event, getEvent_ok.mp call.stored, require_eq_ok.mp call.settles⟩
    · obtain ⟨call⟩ := batchRegisterForEvent_ok success
      exact ⟨call.event, getEvent_ok.mp call.stored, require_eq_ok.mp call.settles⟩
  exact hides event stored standard

theorem touches_attendee {c : Call} {k : DataKey} (names : k.OfAttendee e a)
    (touched : c.Touches k) :
    (∃ b ticketId, c = .requestPostponementRefund b ticketId) ∨
    (∃ b tierId, c = .reserveTicket b e tierId) ∨
    (∃ b, c = .releaseExpiredReservation e b ∧ k = .reservation e b) ∨
    (∃ b nonce tierId hash, c = .registerForEvent nonce b e tierId hash) ∨
    ∃ b nonce tierId count hash, c = .batchRegisterForEvent nonce b e tierId count hash := by
  simp only [DataKey.OfAttendee] at names
  cases c <;> obtain rfl | rfl | rfl | rfl | ⟨i, rfl⟩ := names <;>
    simp_all [Call.Touches, DataKey.OfRegistration, DataKey.OfAttendee, DataKey.OfAttendeeList]

theorem next_namesNobody {step : Step σ} (hides : w.Hides e) (nobody : w.NamesNobody e)
    (unreserved : Succeeding net d (Unreserved e) w step) :
    (w.next net d step).NamesNobody e := by
  intro a k names
  obtain ⟨-, same⟩ | ⟨invocation, c, rfl, result⟩ := next_cases net d w step
  · exact (congrArg (Store.get · k) same).trans (nobody a k names)
  · by_cases touched : c.Touches k
    · obtain ⟨b, ticketId, rfl⟩ | ⟨b, tierId, rfl⟩ | ⟨b, rfl, rfl⟩ | ⟨b, nonce, tierId, hash, rfl⟩ |
        ⟨b, nonce, tierId, count, hash, rfl⟩ := touches_attendee names touched
      · exact requestPostponementRefund_namesNobody nobody result a k names
      · exact absurd rfl (unreserved (succeeds_iff.mpr ⟨_, result⟩))
      · have released := result
        simp only [Call.exec, releaseExpiredReservation, bind_eq_ok, getReservation,
          okOr_eq_ok] at released
        obtain ⟨reservation, stored, -⟩ := released
        rw [nobody b _ (.inr (.inl rfl))] at stored
        cases stored
      · exact absurd hides (sale_standard (a := b) result (.inl ⟨_, _, _, rfl⟩))
      · exact absurd hides (sale_standard (a := b) result (.inr ⟨_, _, _, _, rfl⟩))
    · exact ((exec_touches net _ w c _ result).get touched).trans (nobody a k names)

end Steps

/-- An event that is private or anonymous in every state of a run has no entry that names an
attendee in any of them exactly when no reservation for it is made. -/
theorem attendees_hidden_iff (net : Network σ) (d : Deployment) (outside : σ)
    (steps : List (Step σ)) (e : Symbol)
    (hides : ∀ before, before <+: steps →
      (run (World.next net d) (deployed outside) before).Hides e) :
    (∀ before, before <+: steps →
      (run (World.next net d) (deployed outside) before).NamesNobody e) ↔
      Along (World.next net d) (Succeeding net d (Unreserved e)) (deployed outside) steps := by
  rw [along_iff_throughout]
  constructor
  · rintro nobody before step le
    cases step with
    | elsewhere outside => trivial
    | call invocation c =>
      intro success
      have after := nobody _ le
      cases c with
      | reserveTicket a e' tierId =>
        rintro rfl
        obtain ⟨w', result⟩ := succeeds_iff.mp success
        rw [run_append, run_cons, run_nil, World.next, result] at after
        exact reserveTicket_stores result (after a _ (.inr (.inl rfl)))
      | _ => trivial
  · intro unreserved before
    induction before using List.reverseRecOn with
    | nil => exact fun _ _ _ _ => rfl
    | append_singleton before step ih =>
      intro le
      have earlier : before <+: steps := (List.prefix_append ..).trans le
      rw [run_append]
      exact next_namesNobody (hides _ earlier) (ih earlier) (unreserved before step le)

def Sample.hidden : List (Step Unit) :=
  [call 1 (.createEvent { params with privacyLevel := .priv }),
    call 2 (.updateEventStatus organizer concert .active)]

def Sample.reserves : Step Unit := call 3 (.reserveTicket bob concert 0)

theorem attendees_hidden_sample :
    (run (World.next Sample.silent Sample.deployment) (deployed ()) Sample.hidden).NamesNobody
      Sample.concert :=
  (attendees_hidden_iff Sample.silent Sample.deployment () Sample.hidden Sample.concert
    fun before le => (show ∀ before ∈ Sample.hidden.inits,
      (run (World.next Sample.silent Sample.deployment) (deployed ()) before).Hides Sample.concert
        by decide) before (List.mem_inits _ _ |>.mpr le)).mpr (by decide) _ (List.prefix_refl _)

/-- Bob's reservation of the private event is stored under his address. -/
theorem attendee_named :
    ¬ ∀ steps : List (Step Unit), (∀ before, before <+: steps →
        (run (World.next Sample.silent Sample.deployment) (deployed ()) before).Hides
          Sample.concert) →
      ∀ before, before <+: steps →
        (run (World.next Sample.silent Sample.deployment) (deployed ()) before).NamesNobody
          Sample.concert := by
  intro nobody
  have hides : ∀ before ∈ (Sample.hidden ++ [Sample.reserves]).inits,
      (run (World.next Sample.silent Sample.deployment) (deployed ()) before).Hides
        Sample.concert := by decide
  have none := nobody _ (fun before le => hides before ((List.mem_inits _ _).mpr le)) _
    (List.prefix_refl _) Sample.bob (.reservation Sample.concert Sample.bob) (.inr (.inl rfl))
  have stored : ((run (World.next Sample.silent Sample.deployment) (deployed ())
      (Sample.hidden ++ [Sample.reserves])).get
        (.reservation Sample.concert Sample.bob)).isSome = true := by decide
  rw [none] at stored
  cases stored

end Zicket.Events
