import Zicket.Foundation.Postcondition
import Zicket.Inventory.Sales

/-! Which entries an operation of the event contract may write. `Call.Touches` lists them,
`exec_touches` says that all others stay. -/

namespace Zicket.Events

open Host Foundation World
open Payments (PrivacyLevel)

def DataKey.OfAttendee (e : Symbol) (a : Address) (k : DataKey) : Prop :=
  k = .registration e a ∨ k = .reservation e a ∨ k = .freeClaimCount e a ∨
    k = .lastFreeClaim e a ∨ ∃ i, k = .eventAttendeeIndex e i

def DataKey.OfRegistration (e : Symbol) (a : Address) (k : DataKey) : Prop :=
  k = .event e ∨ k = .eventAttendeesCount e ∨ k.OfAttendee e a

def DataKey.OfAttendeeList (e : Symbol) (a : Address) (k : DataKey) : Prop :=
  k = .registration e a ∨ k = .eventAttendeesCount e ∨ ∃ i, k = .eventAttendeeIndex e i

def Call.Touches : Call → DataKey → Prop
  | .initialise .., k => k = .admin ∨ k = .ticketContract ∨ k = .paymentsContract
  | .createEvent params, k => k = .event params.eventId ∨ k = .eventPrivacy params.eventId
  | .updateEventDetails params, k => k = .event params.eventId
  | .addTicketTier _ e .., k | .updateTier _ e .., k | .updateEventStatus _ e _, k
  | .cancelEvent _ e, k => k = .event e
  | .postponeEvent _ e .., k => k = .event e ∨ k = .postponeCount e ∨ k = .postponement e
  | .finalizePostponement _ e, k => k = .event e ∨ k = .postponement e
  | .requestPostponementRefund a _, k => ∃ e, k.OfAttendeeList e a
  | .reserveTicket a e _, k | .releaseExpiredReservation e a, k =>
    k = .event e ∨ k = .reservation e a
  | .registerForEvent _ a e .., k | .batchRegisterForEvent _ a e .., k => k.OfRegistration e a
  | .setEventPrivacy _ e _, k => k = .eventPrivacy e
  | .setClaimSettings _ e .., k => k = .eventClaimSettings e
  | .setAnonymousClaimVerifier .., k => k = .anonymousClaimVerifier
  | .claimAnonymousTicket e _ claim, k =>
    k = .event e ∨ k = .eventAnonWindow e ∨ k = .anonymousNullifier e claim.nullifier
  | .setAnonClaimSettings _ e .., k => k = .eventAnonSettings e
  | .verifyAndAttend e _ claim, k => k = .event e ∨ k = .zkNullifier e claim.nullifier
  | .setZkConfig _ e _, k => k = .zkVerificationConfig e
  | .migrate _, k => k = .contractVersion
  | .withdrawRevenue .., _ | .withdrawSplit .., _ | .flagCohost .., _ => False

variable {σ : Type} {net : Network σ} {env : Env} {w w' w'' : World σ} {e : Symbol} {a : Address}
  {T : DataKey → Prop}

def World.Writes (T : DataKey → Prop) (w w' : World σ) : Prop :=
  Store.Within T w.storage w'.storage

instance (T : DataKey → Prop) : IsTrans (World σ) (World.Writes T) :=
  ⟨fun _ _ _ => Store.Within.trans⟩

namespace World.Writes

theorem refl (T : DataKey → Prop) (w : World σ) : w.Writes T w := Store.Within.refl T w.storage

theorem trans (h : w.Writes T w') (h' : w'.Writes T w'') : w.Writes T w'' :=
  Store.Within.trans h h'

theorem set {k : DataKey} (v : k.Val) (mem : T k) : w.Writes T (w.set k v) :=
  Store.within_set v mem

theorem remove {k : DataKey} (mem : T k) : w.Writes T (w.remove k) := Store.within_remove mem

theorem of_storage (same : w'.storage = w.storage) : w.Writes T w' := by
  unfold World.Writes
  rw [same]
  exact .refl T _

theorem get (h : w.Writes T w') {k : DataKey} (free : ¬ T k) : w'.get k = w.get k := h k free

end World.Writes

section Frames

theorem tell_writes {call : σ → Option σ} : Yields (w.tell call) (w.Writes T) := by
  intro w' h
  obtain ⟨outside, -, rfl⟩ := tell_eq_ok.mp h
  exact .refl T w

theorem updateEvent_writes {event : Event} (mem : T (.event e)) :
    Yields (w.updateEvent e event) (w.Writes T) :=
  .skip fun _ => .pure (.set _ mem)

theorem sellSeats_writes {event : Event} {index count : ℕ} {tier : TicketTier} {hasRes : Bool}
    (mem : T (.event e)) :
    Yields (sellSeats e event index tier count hasRes w) fun sale => w.Writes T sale.2 := by
  rintro ⟨sold, w'⟩ h
  obtain rfl := sellSeats_ok h
  exact .set _ mem

theorem tellPayments_writes {call : Address → σ → Option σ} :
    Yields (tellPayments w call) (w.Writes T) :=
  fun _ h => .of_storage (tellPayments_told h).1

theorem syncConfig_writes {event : Event} {more : Address → World σ → Attempt (World σ)}
    (calls : ∀ p (w : World σ), Yields (more p w) (w.Writes T)) :
    Yields (syncConfig net env e event more w) (w.Writes T) := by
  unfold syncConfig
  split
  · exact .skip fun p => .andThen tell_writes fun w => calls p w
  · exact .pure (.refl T w)

theorem syncSplits_writes {splits : List (Address × ℕ)} {p : Address} :
    Yields (syncSplits net env e splits p w) (w.Writes T) :=
  fun _ h => .of_storage (syncSplits_told h).1

theorem saveRegistration_writes (mem : ∀ k, DataKey.OfAttendeeList e a k → T k) :
    Yields (w.saveRegistration e a) (w.Writes T) := by
  have flag : T (.registration e a) := mem _ (.inl rfl)
  have slot (i : ℕ) : T (.eventAttendeeIndex e i) := mem _ (.inr (.inr ⟨i, rfl⟩))
  have size : T (.eventAttendeesCount e) := mem _ (.inr (.inl rfl))
  have entered (w : World σ) (n : ℕ) : w.Writes T
      ((w.set (.registration e a) true).set (.eventAttendeeIndex e n) a) :=
    .trans (.set true flag) (.set a (slot n))
  exact .after (entered w _) (.skip fun _ => .pure (.set _ size))

theorem registerOnce_writes (mem : ∀ k, DataKey.OfAttendeeList e a k → T k) :
    Yields (registerOnce e a w) (w.Writes T) := by
  unfold registerOnce
  split
  · exact .pure (.refl _ w)
  · exact saveRegistration_writes mem

theorem removal_writes (mem : T (.reservation e a)) (w : World σ) (hasRes : Bool) :
    w.Writes T (if hasRes then w.removeReservation e a else w) := by
  split
  · exact .remove mem
  · exact .refl _ w

theorem recordFreeClaims_writes {count : ℕ} (counter : T (.freeClaimCount e a))
    (last : T (.lastFreeClaim e a)) :
    Yields (recordFreeClaims env e a count w) (w.Writes T) := by
  induction count generalizing w with
  | zero => exact .pure (.set _ last)
  | succ count ih => exact .andThen (.skip fun _ => .pure (.set _ counter)) fun _ => ih

theorem removeRegistration_writes (mem : ∀ k, DataKey.OfAttendeeList e a k → T k) :
    w.Writes T (w.removeRegistration e a) := by
  have first : w.Writes T (w.remove (.registration e a)) := .remove (mem _ (.inl rfl))
  have slot (i : ℕ) : T (.eventAttendeeIndex e i) := mem _ (.inr (.inr ⟨i, rfl⟩))
  have size : T (.eventAttendeesCount e) := mem _ (.inr (.inl rfl))
  have cut (i n : ℕ) (w : World σ) : w.Writes T
      ((w.remove (.eventAttendeeIndex e i)).set (.eventAttendeesCount e) n) :=
    .trans (.remove (slot i)) (.set n size)
  unfold removeRegistration
  simp only
  split
  · exact first
  · split
    · exact first
    · refine first.trans ?_
      split
      · split
        · rename_i last _
          exact .trans (.set last (slot _)) (cut _ _ _)
        · exact cut _ _ _
      · exact cut _ _ _

end Frames

section Operations

variable {nonce tierId count : ℕ} {emailHash : Option (BytesN 32)} {organizer : Address}

theorem chargePriced_writes {p payer : Address} {price amount : ℤ} :
    Yields (chargePriced net env p nonce payer e price amount emailHash w) (w.Writes T) :=
  fun _ h => .of_storage (chargePriced_ok h).1

theorem createEvent_touches {params : CreateEventParams} :
    Yields (createEvent net env params w) fun made =>
      w.Writes (Call.createEvent params).Touches made.2 := by
  rintro ⟨event, w'⟩ h
  obtain ⟨tiers, maxSupply, w₁, w₂, -, -, -, -, asked, synced, rfl⟩ := createEvent_ok h
  have stored (event : Event) (level : PrivacyLevel) : w₁.Writes (Call.createEvent params).Touches
      ((w₁.saveEvent params.eventId event).setEventPrivacy params.eventId level) :=
    .trans (.set (k := .event _) event (.inl rfl)) (.set (k := .eventPrivacy _) level (.inr rfl))
  have told := syncConfig_writes (T := (Call.createEvent params).Touches)
    (fun _ _ => syncSplits_writes) _ synced
  exact .trans (.of_storage (checkPayoutToken_told asked).1) ((stored _ _).trans told)

theorem updateEventDetails_touches {params : UpdateEventParams} :
    Yields (updateEventDetails net env params w) fun made =>
      w.Writes (Call.updateEventDetails params).Touches made.2 := by
  rintro ⟨event, w'⟩ h
  simp only [updateEventDetails, bind_eq_ok, pure_eq_ok] at h
  obtain ⟨-, -, _, -, -, -, _, -, w₁, synced, h⟩ := h
  cases h
  have calls (_ : Address) (w : World σ) : Yields (pure w : Attempt (World σ))
      (w.Writes (Call.updateEventDetails params).Touches) := .pure (.refl _ w)
  exact .trans (.set (k := .event _) event rfl) (syncConfig_writes calls w₁ synced)

theorem postponeEvent_touches {newDateLedger choiceWindowLedgers : ℕ} :
    Yields (postponeEvent net env organizer e newDateLedger choiceWindowLedgers w)
      (w.Writes (Call.postponeEvent organizer e newDateLedger choiceWindowLedgers).Touches) := by
  refine .skip fun _ => .skip fun _ => .skip fun _ => .skip fun _ => .skip fun _ => .skip fun _ =>
    .skip fun _ => .skip fun _ => .skip fun _ => ?_
  refine .andThen (updateEvent_writes (.inl rfl)) fun w => .after
    (show w.Writes _ (World.emit _ _) from
      .trans (.set _ (.inr (.inl rfl))) (.set _ (.inr (.inr rfl)))) tellPayments_writes

theorem finalizePostponement_touches :
    Yields (finalizePostponement net env organizer e w)
      (w.Writes (Call.finalizePostponement organizer e).Touches) := by
  refine .skip fun _ => .skip fun _ => .skip fun _ => .skip fun _ => .skip fun _ => .skip fun _ =>
    .skip fun _ => ?_
  refine .andThen (updateEvent_writes (.inl rfl)) fun w => .after
    (show w.Writes _ (World.emit _ _) from .remove (.inr rfl))
    (syncConfig_writes fun _ _ => tell_writes)

theorem holdSeat_touches {event : Event} :
    Yields (holdSeat env a e tierId event w) (w.Writes (Call.reserveTicket a e tierId).Touches) :=
  .skip fun _ => .skip fun _ => .skip fun _ =>
    .after (.set _ (.inr rfl)) (.skip fun _ => .pure (.set _ (.inl rfl)))

theorem reserveTicket_touches :
    Yields (reserveTicket env a e tierId w)
      (w.Writes (Call.reserveTicket a e tierId).Touches) := by
  refine .skip fun _ => .skip fun _ => .skip fun _ => .skip fun _ => ?_
  split
  · split
    · exact .pure (.refl _ w)
    · exact .skip fun _ => holdSeat_touches
  · exact holdSeat_touches

theorem releaseExpiredReservation_touches :
    Yields (releaseExpiredReservation env e a w)
      (w.Writes (Call.releaseExpiredReservation e a).Touches) := by
  refine .skip fun _ => .skip fun _ => .skip fun _ => .skip fun _ => .pure ?_
  exact .trans (.remove (.inr rfl)) (.set _ (.inl rfl))

section Registration

theorem recordIfFree_writes {price : ℤ} :
    Yields (recordIfFree env e a price count w) (w.Writes (DataKey.OfRegistration e a)) := by
  unfold recordIfFree
  split
  · refine recordFreeClaims_writes (.inr (.inr ?_)) (.inr (.inr ?_))
    · exact .inr (.inr (.inl rfl))
    · exact .inr (.inr (.inr (.inl rfl)))
  · exact .pure (.refl _ w)

theorem listed_of_registration (k : DataKey) (listed : k.OfAttendeeList e a) :
    k.OfRegistration e a := by
  obtain h | h | h := listed
  · exact .inr (.inr (.inl h))
  · exact .inr (.inl h)
  · exact .inr (.inr (.inr (.inr (.inr (.inr h)))))

theorem registerForEvent_touches :
    Yields (registerForEvent net env nonce a e tierId emailHash w)
      (w.Writes (DataKey.OfRegistration e a)) := by
  refine .skip fun _ => .skip fun event => .skip fun _ => .skip fun _ => .skip fun _ =>
    .skip fun _ => .skip fun hasRes => .skip fun ⟨index, tier⟩ => .skip fun _ => .skip fun _ =>
    .skip fun p => .skip fun t => ?_
  refine .andThen chargePriced_writes fun w => .andThen tell_writes fun w =>
    .andThen (saveRegistration_writes listed_of_registration) fun w => ?_
  refine .after (removal_writes (.inr (.inr (.inr (.inl rfl)))) w hasRes) (.andThen recordIfFree_writes fun w => ?_)
  exact .bind (sellSeats_writes (.inl rfl)) fun _ sold => .pure sold

theorem batchRegisterForEvent_touches :
    Yields (batchRegisterForEvent net env nonce a e tierId count emailHash w)
      (w.Writes (DataKey.OfRegistration e a)) := by
  refine .skip fun _ => .skip fun _ => .skip fun event => .skip fun _ => .skip fun _ =>
    .skip fun ⟨index, tier⟩ => .skip fun hasRes => .skip fun t => ?_
  have queried : Yields (checkUserLimit net env t a e event count w)
      (w.Writes (DataKey.OfRegistration e a)) := fun _ h => .of_storage (checkUserLimit_queried h).1
  refine .andThen queried fun w => .skip fun _ => .skip fun _ => .skip fun _ => .skip fun _ =>
    .skip fun _ => .skip fun _ => .skip fun p => .skip fun amount => ?_
  refine .andThen chargePriced_writes fun w => .andThen tell_writes fun w =>
    .andThen (registerOnce_writes listed_of_registration) fun w =>
    .andThen recordIfFree_writes fun w => ?_
  refine .after (removal_writes (.inr (.inr (.inr (.inl rfl)))) w hasRes) ?_
  exact .bind (sellSeats_writes (.inl rfl)) fun _ sold => .pure sold

end Registration

theorem requestPostponementRefund_touches {ticketId : ℕ} :
    Yields (requestPostponementRefund net env a ticketId w)
      (w.Writes (Call.requestPostponementRefund a ticketId).Touches) := by
  intro w' h
  simp only [requestPostponementRefund, bind_eq_ok, pure_eq_ok, tell_eq_ok, ask_eq_ok] at h
  obtain ⟨-, -, p, -, ⟨ticket, _⟩, ⟨s₁, -, rfl⟩, event, -, -, -, t, -, ⟨first, w₂⟩, scan, revocable,
    -, _, ⟨s₃, -, rfl⟩, _, ⟨s₄, -, rfl⟩, ⟨left, w₅⟩, rescan, rfl⟩ := h
  have frame := (firstRevocable_queried rescan).1.trans (firstRevocable_queried scan).1
  have first : w.Writes (Call.requestPostponementRefund a ticketId).Touches w₅ := .of_storage frame
  split
  · exact first
  · exact first.trans (removeRegistration_writes fun _ mem => ⟨ticket.eventId, mem⟩)

theorem countAnonClaim_writes (mem : T (.eventAnonWindow e)) :
    Yields (countAnonClaim env e w) (w.Writes T) := by
  unfold countAnonClaim
  simp only
  split
  · exact .skip fun _ => .skip fun _ => .pure (.set _ mem)
  · exact .pure (.refl _ w)

theorem claimAnonymousTicket_touches {claim : AnonymousTicketClaim} :
    Yields (claimAnonymousTicket net env e tierId claim w)
      (w.Writes (Call.claimAnonymousTicket e tierId claim).Touches) := by
  refine .skip fun event => ?_
  split
  · split
    · exact .pure (.refl _ w)
    · exact .error _
  · refine .skip fun _ => .skip fun _ => .skip fun _ => .skip fun _ => .skip fun ⟨index, tier⟩ =>
      .skip fun _ => .skip fun _ => .andThen (countAnonClaim_writes (.inr (.inl rfl))) fun w =>
      .skip fun verifier => .andThen ?_ fun w =>
      .after (.set claim.ticketCommitment (.inr (.inr rfl))) ?_
    · exact .skip fun _ => .pure (.refl _ w)
    · exact .bind (sellSeats_writes (.inl rfl)) fun _ sold => .pure sold

theorem verifyAndAttend_touches {claim : ZkPassportClaim} :
    Yields (verifyAndAttend net env e tierId claim w)
      (w.Writes (Call.verifyAndAttend e tierId claim).Touches) := by
  refine .skip fun event => .skip fun _ => .skip fun _ => .skip fun _ => .skip fun _ =>
    .skip fun _ => .skip fun _ => .skip fun _ => .skip fun ⟨index, tier⟩ => .skip fun _ =>
    .skip fun _ => .andThen (fun _ h => .of_storage (chargeAttendance_told h).1) fun w => ?_
  refine .after (.set true (.inr rfl)) ?_
  exact .bind (sellSeats_writes (.inl rfl)) fun _ sold => .pure sold

theorem storeSetting_writes {k : DataKey} {v : k.Val} (mem : T k) :
    Yields (storeSetting env organizer e k v w) (w.Writes T) :=
  .skip fun _ => .skip fun _ => .pure (.set _ mem)

end Operations

theorem exec_touches (net : Network σ) (env : Env) (w : World σ) (c : Call) :
    Yields (c.exec net env w) (w.Writes c.Touches) := by
  cases c with
  | initialise admin ticketContract paymentsContract =>
    refine .skip fun _ => .pure ?_
    refine .trans (.set (k := .admin) admin (.inl rfl)) (.trans
      (.set (k := .ticketContract) ticketContract (.inr (.inl rfl))) ?_)
    exact .set (k := .paymentsContract) paymentsContract (.inr (.inr rfl))
  | createEvent => exact .bind createEvent_touches fun _ made => .pure made
  | updateEventDetails => exact .bind updateEventDetails_touches fun _ made => .pure made
  | addTicketTier =>
    intro w' h
    simp only [Call.exec, bind_eq_ok, pure_eq_ok] at h
    obtain ⟨⟨tier, _⟩, added, rfl⟩ := h
    obtain ⟨event, -, -, -, -, -, -, rfl⟩ := addTicketTier_spec added
    exact .set _ rfl
  | updateTier =>
    intro w' h
    obtain ⟨event, _, _, _, _, -, -, -, -, -, rfl⟩ := updateTier_spec h
    exact .set _ rfl
  | updateEventStatus organizer e newStatus =>
    refine .skip fun _ => .skip fun _ => .skip fun _ => ?_
    exact .bind (P := fun w' => w.Writes (Call.updateEventStatus organizer e newStatus).Touches w')
      (updateEvent_writes rfl) fun _ updated => .pure updated
  | cancelEvent =>
    exact .skip fun _ => .skip fun _ => .skip fun _ =>
      .andThen (updateEvent_writes rfl) fun _ => tellPayments_writes
  | postponeEvent => exact postponeEvent_touches
  | finalizePostponement => exact finalizePostponement_touches
  | requestPostponementRefund => exact requestPostponementRefund_touches
  | reserveTicket => exact reserveTicket_touches
  | releaseExpiredReservation => exact releaseExpiredReservation_touches
  | registerForEvent => exact registerForEvent_touches
  | batchRegisterForEvent => exact batchRegisterForEvent_touches
  | withdrawRevenue =>
    exact .skip fun _ => .skip fun _ => .skip fun _ => .skip fun _ => tell_writes
  | setEventPrivacy => exact storeSetting_writes rfl
  | setClaimSettings => exact storeSetting_writes rfl
  | setAnonymousClaimVerifier => exact .skip fun _ => .skip fun _ => .pure (.set _ rfl)
  | claimAnonymousTicket => exact claimAnonymousTicket_touches
  | setAnonClaimSettings => exact storeSetting_writes rfl
  | verifyAndAttend => exact verifyAndAttend_touches
  | setZkConfig => exact storeSetting_writes rfl
  | migrate =>
    intro w' h
    simp only [Call.exec, migrate, bind_eq_ok, pure_eq_ok] at h
    obtain ⟨_, ⟨-, -, -, -, rfl⟩, rfl⟩ := h
    exact .set _ rfl
  | withdrawSplit => exact .skip fun _ => .skip fun _ => .skip fun _ => tell_writes
  | flagCohost => exact .skip fun _ => .skip fun _ => .skip fun _ => tell_writes

section Steps

variable {d : Deployment}

theorem succeeds_iff {c : Call} : c.succeeds net env w = true ↔ ∃ w', c.exec net env w = .ok w' := by
  unfold Call.succeeds
  cases c.exec net env w <;> simp [Except.isOk, Except.toBool]

def Succeeding (net : Network σ) (d : Deployment) (C : Env → World σ → Call → Prop) (w : World σ) :
    Step σ → Prop
  | .call invocation c => c.succeeds net ⟨d, invocation⟩ w = true → C ⟨d, invocation⟩ w c
  | .elsewhere _ => True

instance (C : Env → World σ → Call → Prop) [∀ env w c, Decidable (C env w c)] (w : World σ)
    (step : Step σ) : Decidable (Succeeding net d C w step) := by
  cases step <;> dsimp only [Succeeding] <;> infer_instance

theorem next_cases (net : Network σ) (d : Deployment) (w : World σ) (step : Step σ) :
    (Succeeding net d (fun _ _ _ => False) w step ∧
      (w.next net d step).storage = w.storage) ∨
    ∃ invocation c, step = .call invocation c ∧
      c.exec net ⟨d, invocation⟩ w = .ok (w.next net d step) := by
  cases step with
  | elsewhere outside => exact .inl ⟨trivial, rfl⟩
  | call invocation c =>
    rw [World.next]
    cases result : c.exec net ⟨d, invocation⟩ w with
    | error failure =>
      refine .inl ⟨fun success => ?_, rfl⟩
      obtain ⟨w', succeeded⟩ := succeeds_iff.mp success
      rw [result] at succeeded
      cases succeeded
    | ok w' => exact .inr ⟨invocation, c, rfl, result⟩

end Steps

end Zicket.Events
