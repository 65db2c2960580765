import Zicket.Inventory.Sales

/-! The entries that only a few operations write: whom the event contract trusts, and the
postponements of its events. The charter of a state holds them, `Amends` says what each
successful call does to it. -/

namespace Zicket.Events

open Host Foundation World

structure Charter where
  admin : Option Address
  ticketContract : Option Address
  paymentsContract : Option Address
  verifier : Option Address
  postponement : Symbol → Option PostponementInfo
  postponeCount : Symbol → ℕ

variable {σ : Type} {net : Network σ} {env : Env} {w w' : World σ} {e : Symbol}

def World.charter (w : World σ) : Charter where
  admin := w.get .admin
  ticketContract := w.get .ticketContract
  paymentsContract := w.get .paymentsContract
  verifier := w.get .anonymousClaimVerifier
  postponement := w.getPostponement
  postponeCount := w.getPostponeCount

theorem charter_congr (same : w'.storage = w.storage) : w'.charter = w.charter := by
  unfold World.charter getPostponement getPostponeCount World.get
  rw [same]

def Charter.postpone (ch : Charter) (e : Symbol) (info : PostponementInfo) : Charter :=
  { ch with
    postponement := Function.update ch.postponement e (some info)
    postponeCount := Function.update ch.postponeCount e (ch.postponeCount e + 1) }

def Charter.resume (ch : Charter) (e : Symbol) : Charter :=
  { ch with postponement := Function.update ch.postponement e none }

/-- What a successful call makes of the charter, and what it checked first. -/
def Charter.Amends (env : Env) (ch ch' : Charter) : Call → Prop
  | .initialise admin ticketContract paymentsContract => env.authorized admin = true ∧
    ch' = { ch with
      admin := some admin
      ticketContract := some ticketContract
      paymentsContract := some paymentsContract }
  | .setAnonymousClaimVerifier _ verifier => ch.verifier = none ∧
    ch' = { ch with verifier := some verifier }
  | .postponeEvent _ e newDateLedger choiceWindowLedgers =>
    ch.postponeCount e < maxPostponements ∧
      env.sequence + choiceWindowLedgers < newDateLedger ∧
      ch' = ch.postpone e ⟨newDateLedger, env.sequence + choiceWindowLedgers⟩
  | .finalizePostponement _ e => ch' = ch.resume e
  | _ => ch' = ch

section Frames

variable {a : Address}

theorem saveRegistration_charter (h : w.saveRegistration e a = .ok w') :
    w'.charter = w.charter := by
  simp only [saveRegistration, bind_eq_ok, pure_eq_ok] at h
  obtain ⟨_, -, rfl⟩ := h
  rfl

theorem registerOnce_charter (h : registerOnce e a w = .ok w') : w'.charter = w.charter := by
  unfold registerOnce at h
  split at h
  · cases h
    rfl
  · exact saveRegistration_charter h

theorem recordFreeClaims_charter {count : ℕ} (h : recordFreeClaims env e a count w = .ok w') :
    w'.charter = w.charter := by
  induction count generalizing w with
  | zero =>
    cases h
    rfl
  | succ count ih =>
    simp only [recordFreeClaims, incrementFreeClaimCount, bind_eq_ok, pure_eq_ok] at h
    obtain ⟨_, ⟨_, -, rfl⟩, h⟩ := h
    have rest := ih h
    exact rest

theorem recordIfFree_charter {price : ℤ} {count : ℕ}
    (h : recordIfFree env e a price count w = .ok w') : w'.charter = w.charter := by
  unfold recordIfFree at h
  split at h
  · exact recordFreeClaims_charter h
  · cases h
    rfl

theorem removeRegistration_charter (w : World σ) (e : Symbol) (a : Address) :
    (w.removeRegistration e a).charter = w.charter := by
  unfold removeRegistration
  simp only
  split
  · rfl
  · split
    · rfl
    · split
      · split
        · rfl
        · rfl
      · rfl

theorem removal_charter (w : World σ) (e : Symbol) (a : Address) (hasRes : Bool) :
    (if hasRes then w.removeReservation e a else w).charter = w.charter := by
  cases hasRes with
  | false => rfl
  | true => rfl

theorem countAnonClaim_charter (h : countAnonClaim env e w = .ok w') :
    w'.charter = w.charter := by
  unfold countAnonClaim at h
  simp only at h
  split at h
  · simp only [bind_eq_ok, pure_eq_ok] at h
    obtain ⟨-, -, _, -, rfl⟩ := h
    rfl
  · cases h
    rfl

theorem sellSeats_charter {event : Event} {index count sold : ℕ} {tier : TicketTier}
    {hasRes : Bool} (h : sellSeats e event index tier count hasRes w = .ok (sold, w')) :
    w'.charter = w.charter := by
  obtain rfl := sellSeats_ok h
  rfl

theorem holdSeat_charter {event : Event} {tierId : ℕ}
    (h : holdSeat env a e tierId event w = .ok w') : w'.charter = w.charter := by
  simp only [holdSeat, bind_eq_ok, pure_eq_ok] at h
  obtain ⟨_, -, _, -, _, -, _, -, rfl⟩ := h
  rfl

theorem storeSetting_charter {organizer : Address} {k : DataKey} {v : k.Val}
    (quiet : ∀ w : World σ, (w.set k v).charter = w.charter)
    (h : storeSetting env organizer e k v w = .ok w') : w'.charter = w.charter := by
  simp only [storeSetting, bind_eq_ok, pure_eq_ok] at h
  obtain ⟨-, -, _, -, rfl⟩ := h
  exact quiet w

end Frames

section Postponements

variable {organizer : Address}

theorem postponeEvent_amends {newDateLedger choiceWindowLedgers : ℕ}
    (h : postponeEvent net env organizer e newDateLedger choiceWindowLedgers w = .ok w') :
    w.charter.Amends env w'.charter
      (.postponeEvent organizer e newDateLedger choiceWindowLedgers) := by
  simp only [postponeEvent, bind_eq_ok, require_eq_ok] at h
  obtain ⟨-, -, event, -, -, -, -, few, -, -, -, -, -, -, -, -, -, later, w₁, updated, told⟩ := h
  obtain rfl := updateEvent_ok updated
  refine ⟨few, later, ?_⟩
  rw [charter_congr (tellPayments_told told).1]
  have postponement := Store.table_set DataKey.postponement (by simp)
    (fun _ (o : Option PostponementInfo) => o) w.storage e
      ⟨newDateLedger, env.sequence + choiceWindowLedgers⟩
  have count := Store.table_set DataKey.postponeCount (by simp)
    (fun _ (o : Option ℕ) => o.getD 0) w.storage e (w.getPostponeCount e + 1)
  unfold World.charter Charter.postpone
  congr 1

/-- The new dates: after the deadline, and as long as before. -/
theorem finalizePostponement_amends (h : finalizePostponement net env organizer e w = .ok w') :
    w.charter.Amends env w'.charter (.finalizePostponement organizer e) ∧
      ∃ event info, w.roster.event e = some event ∧ event.status = .postponed ∧
        w.charter.postponement e = some info ∧ info.choiceDeadlineLedger < env.sequence ∧
        w'.roster = w.roster.putEvent e
          { event with
            eventStartLedger := info.newDateLedger
            eventEndLedger := info.newDateLedger + (event.eventEndLedger - event.eventStartLedger)
            status := .active } := by
  simp only [finalizePostponement, bind_eq_ok, require_eq_ok, ownEvent_ok, okOr_eq_ok] at h
  obtain ⟨-, -, event, ⟨stored, -⟩, -, postponed, info, known, -, closed, -, -, -, -, w₁, updated,
    synced⟩ := h
  obtain rfl := updateEvent_ok updated
  have resumes : ∀ p (w w' : World σ), w.tell (net.resumeEvent env p e event.organizer) = .ok w' →
      w'.storage = w.storage ∧
        net.resumeEvent env p e event.organizer w.outside = some w'.outside := by
    intro p w w' h
    obtain ⟨outside, told, rfl⟩ := tell_eq_ok.mp h
    exact ⟨rfl, told⟩
  obtain ⟨frame, -⟩ := syncConfig_told resumes synced
  refine ⟨?_, event, info, stored, postponed, known, closed,
    (roster_congr frame).trans (roster_saveEvent ..)⟩
  have postponement := Store.table_remove DataKey.postponement (by simp)
    (fun _ (o : Option PostponementInfo) => o) w.storage e
  unfold Charter.Amends
  rw [charter_congr frame]
  unfold World.charter Charter.resume
  congr 1

end Postponements

theorem exec_amends {c : Call} (h : c.exec net env w = .ok w') :
    w.charter.Amends env w'.charter c := by
  cases c with
  | initialise =>
    simp only [Call.exec, initializeContract, bind_eq_ok, pure_eq_ok, requireAuth_eq_ok] at h
    obtain ⟨-, authorized, rfl⟩ := h
    exact ⟨authorized, rfl⟩
  | createEvent =>
    simp only [Call.exec, bind_eq_ok, pure_eq_ok] at h
    obtain ⟨⟨event, _⟩, created, rfl⟩ := h
    obtain ⟨tiers, maxSupply, w₁, w₂, -, -, -, -, asked, synced, rfl⟩ := createEvent_ok created
    have synced := charter_congr (syncConfig_told (fun _ _ _ => syncSplits_told) synced).1
    have asked := charter_congr (checkPayoutToken_told asked).1
    exact synced.trans asked
  | updateEventDetails =>
    simp only [Call.exec, updateEventDetails, bind_eq_ok, pure_eq_ok] at h
    obtain ⟨_, ⟨-, -, event, -, -, -, _, -, w₁, synced, rfl⟩, rfl⟩ := h
    have silent : ∀ (_ : Address) (w w' : World σ), (pure w : Attempt (World σ)) = .ok w' →
        w'.storage = w.storage ∧ some w.outside = some w'.outside := by
      intro _ w w' h
      cases h
      exact ⟨rfl, rfl⟩
    have synced := charter_congr (syncConfig_told silent synced).1
    exact synced
  | addTicketTier =>
    simp only [Call.exec, bind_eq_ok, pure_eq_ok] at h
    obtain ⟨⟨tier, w₁⟩, added, rfl⟩ := h
    obtain ⟨event, -, -, -, -, -, -, rfl⟩ := addTicketTier_spec added
    rfl
  | updateTier =>
    obtain ⟨event, index, tier, edited, maxSupply, -, -, -, -, -, rfl⟩ := updateTier_spec h
    rfl
  | updateEventStatus =>
    simp only [Call.exec, updateEventStatus, bind_eq_ok, pure_eq_ok] at h
    obtain ⟨-, -, event, -, -, -, w₁, updated, rfl⟩ := h
    obtain rfl := updateEvent_ok updated
    rfl
  | cancelEvent =>
    simp only [Call.exec, cancelEvent, bind_eq_ok] at h
    obtain ⟨-, -, event, -, -, -, w₁, updated, told⟩ := h
    obtain rfl := updateEvent_ok updated
    have told := charter_congr (tellPayments_told told).1
    exact told
  | postponeEvent => exact postponeEvent_amends h
  | finalizePostponement => exact (finalizePostponement_amends h).1
  | requestPostponementRefund =>
    simp only [Call.exec, requestPostponementRefund, bind_eq_ok, pure_eq_ok, tell_eq_ok,
      ask_eq_ok] at h
    obtain ⟨-, -, p, -, _, ⟨_, -, frame₁⟩, event, -, -, -, t, -, ⟨first, w₂⟩, scan, revocable, -, _,
      ⟨_, -, rfl⟩, _, ⟨_, -, rfl⟩, ⟨left, w₅⟩, rescan, rfl⟩ := h
    have same : w₅.charter = w.charter := by
      rw [charter_congr (firstRevocable_queried rescan).1]
      have scanned := charter_congr (firstRevocable_queried scan).1
      rw [← frame₁] at scanned
      exact scanned
    have cleared (e : Symbol) (a : Address) :
        (if left.isSome then w₅ else w₅.removeRegistration e a).charter = w.charter := by
      split
      · exact same
      · rw [removeRegistration_charter, same]
    exact cleared ..
  | reserveTicket =>
    simp only [Call.exec, reserveTicket, bind_eq_ok] at h
    obtain ⟨-, -, event, -, -, -, -, -, h⟩ := h
    split at h
    · split at h
      · cases h
        rfl
      · obtain ⟨released, -, h⟩ := bind_eq_ok.mp h
        exact holdSeat_charter h
    · exact holdSeat_charter h
  | releaseExpiredReservation =>
    simp only [Call.exec, releaseExpiredReservation, bind_eq_ok, pure_eq_ok] at h
    obtain ⟨reservation, -, -, -, event, -, released, -, rfl⟩ := h
    rfl
  | registerForEvent nonce attendee e tierId emailHash =>
    obtain ⟨call⟩ := registerForEvent_ok h
    have charge := charter_congr (chargePriced_ok call.charges).1
    have minted := charter_congr (World.tell_storage call.mints)
    have saved := saveRegistration_charter call.saves
    have removed := removal_charter call.saved e attendee call.hasRes
    have recorded := recordIfFree_charter call.records
    have sells := sellSeats_charter call.sells
    rw [call.result]
    exact sells.trans
      (recorded.trans (removed.trans (saved.trans (minted.trans charge))))
  | batchRegisterForEvent nonce attendee e tierId count emailHash =>
    obtain ⟨call⟩ := batchRegisterForEvent_ok h
    have asked := charter_congr (checkUserLimit_queried call.asks).1
    have charge := charter_congr (chargePriced_ok call.charges).1
    have minted := charter_congr (World.tell_storage call.mints)
    have registered := registerOnce_charter call.registers
    have recorded := recordIfFree_charter call.records
    have removed := removal_charter call.recorded e attendee call.hasRes
    have sells := sellSeats_charter call.sells
    rw [call.result]
    exact sells.trans
      (removed.trans (recorded.trans (registered.trans (minted.trans (charge.trans asked)))))
  | withdrawRevenue =>
    simp only [Call.exec, withdrawRevenue, bind_eq_ok, tell_eq_ok] at h
    obtain ⟨-, -, -, -, -, -, _, -, _, -, rfl⟩ := h
    rfl
  | setEventPrivacy => exact storeSetting_charter (fun _ => rfl) h
  | setClaimSettings => exact storeSetting_charter (fun _ => rfl) h
  | setAnonymousClaimVerifier =>
    simp only [Call.exec, setAnonymousClaimVerifier, bind_eq_ok, pure_eq_ok, require_eq_ok] at h
    obtain ⟨-, -, -, unset, rfl⟩ := h
    exact ⟨unset, rfl⟩
  | claimAnonymousTicket =>
    simp only [Call.exec, claimAnonymousTicket, bind_eq_ok] at h
    obtain ⟨event, -, h⟩ := h
    split at h
    · split at h
      · cases h
        rfl
      · simp at h
    · simp only [claimNewTicket, verifyClaim, bind_eq_ok, pure_eq_ok] at h
      obtain ⟨-, -, -, -, -, -, -, -, ⟨index, tier⟩, -, -, -, _, -, w₁, counted, verifier, -, w₂,
        ⟨-, -, rfl⟩, ⟨sold, w₃⟩, sells, rfl⟩ := h
      have sells := sellSeats_charter sells
      have counted := countAnonClaim_charter counted
      exact sells.trans counted
  | setAnonClaimSettings => exact storeSetting_charter (fun _ => rfl) h
  | verifyAndAttend =>
    simp only [Call.exec, verifyAndAttend, bind_eq_ok, pure_eq_ok] at h
    obtain ⟨event, -, -, -, -, -, -, -, -, -, -, -, -, -, -, -, ⟨index, tier⟩, -, -, -, _, -, w₁,
      charged, ⟨sold, w₂⟩, sells, rfl⟩ := h
    have sells := sellSeats_charter sells
    have charged := charter_congr (chargeAttendance_told charged).1
    exact sells.trans charged
  | setZkConfig => exact storeSetting_charter (fun _ => rfl) h
  | migrate =>
    simp only [Call.exec, migrate, bind_eq_ok, pure_eq_ok] at h
    obtain ⟨_, ⟨-, -, -, -, rfl⟩, rfl⟩ := h
    rfl
  | withdrawSplit =>
    simp only [Call.exec, withdrawSplit, bind_eq_ok, tell_eq_ok] at h
    obtain ⟨-, -, -, -, _, -, _, -, rfl⟩ := h
    rfl
  | flagCohost =>
    simp only [Call.exec, flagCohost, bind_eq_ok, tell_eq_ok] at h
    obtain ⟨-, -, -, -, _, -, _, -, rfl⟩ := h
    rfl

end Zicket.Events
