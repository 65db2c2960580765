import Zicket.Attendance.Footprint

/-! What the claims that name no attendee leave behind: a nullifier each, one seat sold, and
the count of anonymous claims in the present window. -/

namespace Zicket.Events

open Host Foundation World

variable {σ : Type} {net : Network σ} {env : Env} {w w' : World σ} {e : Symbol} {tierId : ℕ}

def World.soldOf (w : World σ) (e : Symbol) : ℕ :=
  ((w.get (.event e) : Option Event).map (·.soldCount)).getD 0

theorem soldOf_eq {event : Event} (stored : w.get (.event e) = some event) :
    w.soldOf e = event.soldCount := by
  rw [World.soldOf, stored]
  rfl

theorem soldOf_saveEvent (w : World σ) (event : Event) :
    (w.saveEvent e event).soldOf e = event.soldCount :=
  soldOf_eq (Store.get_set_self _ _ _)

theorem soldOf_congr (same : w'.get (.event e) = w.get (.event e)) : w'.soldOf e = w.soldOf e := by
  rw [World.soldOf, same]
  rfl

section Anonymous

variable {claim : AnonymousTicketClaim}

theorem touches_anonymousNullifier {c : Call} {n : BytesN 32}
    (h : c.Touches (.anonymousNullifier e n)) :
    ∃ tierId claim, c = .claimAnonymousTicket e tierId claim ∧ claim.nullifier = n := by
  cases c <;> simp [Call.Touches, DataKey.OfRegistration, DataKey.OfAttendee,
    DataKey.OfAttendeeList] at h
  case claimAnonymousTicket =>
    obtain ⟨rfl, rfl⟩ := h
    exact ⟨_, _, rfl, rfl⟩

theorem touches_eventAnonWindow {c : Call} (h : c.Touches (.eventAnonWindow e)) :
    ∃ tierId claim, c = .claimAnonymousTicket e tierId claim := by
  cases c <;> simp [Call.Touches, DataKey.OfRegistration, DataKey.OfAttendee,
    DataKey.OfAttendeeList] at h
  case claimAnonymousTicket =>
    obtain rfl := h
    exact ⟨_, _, rfl⟩

/-- The window state as the present ledger finds it: a state of another window counts nothing. -/
def World.windowCount (w : World σ) (e : Symbol) (window : ℕ) : ℕ :=
  if (w.getAnonWindowState e).windowIndex = window then (w.getAnonWindowState e).count else 0

theorem countAnonClaim_limited (h : countAnonClaim env e w = .ok w')
    (limited : 0 < (w.getAnonClaimSettings e).maxAnonClaimsPerWindow)
    (windowed : 0 < (w.getAnonClaimSettings e).anonWindowSize) :
    let window := env.sequence / (w.getAnonClaimSettings e).anonWindowSize
    w.windowCount e window < (w.getAnonClaimSettings e).maxAnonClaimsPerWindow ∧
      w'.getAnonWindowState e = ⟨window, w.windowCount e window + 1⟩ := by
  unfold countAnonClaim at h
  simp only [limited, windowed, and_self, if_true, bind_eq_ok, pure_eq_ok, require_eq_ok,
    u32_eq_ok] at h
  obtain ⟨-, room, _, ⟨-, rfl⟩, rfl⟩ := h
  refine ⟨room, ?_⟩
  unfold getAnonWindowState World.get World.set
  rw [Store.get_set_self]
  rfl

theorem claimAnonymousTicket_cases (h : claimAnonymousTicket net env e tierId claim w = .ok w') :
    (w.get (.anonymousNullifier e claim.nullifier) = some claim.ticketCommitment ∧ w' = w) ∨
    (w.get (.anonymousNullifier e claim.nullifier) = none ∧
      w'.get (.anonymousNullifier e claim.nullifier) = some claim.ticketCommitment ∧
      w'.soldOf e = w.soldOf e + 1 ∧
      ∃ w₁, countAnonClaim env e w = .ok w₁ ∧
        w'.getAnonWindowState e = w₁.getAnonWindowState e) := by
  simp only [claimAnonymousTicket, bind_eq_ok] at h
  obtain ⟨event, found, h⟩ := h
  split at h
  · rename_i commitment stored
    split at h
    · rename_i same
      cases h
      exact .inl ⟨same ▸ stored, rfl⟩
    · simp at h
  · rename_i fresh
    simp only [claimNewTicket, verifyClaim, bind_eq_ok, pure_eq_ok] at h
    obtain ⟨-, -, -, -, -, -, -, -, ⟨index, tier⟩, -, -, -, _, -, w₁, counted, verifier, -, w₂,
      ⟨-, -, rfl⟩, ⟨sold, w₃⟩, sells, rfl⟩ := h
    obtain rfl := sellSeats_ok sells
    have stored : w.get (.event e) = some event := getEvent_ok.mp found
    have kept (k : DataKey) (other : k ≠ .event e) (w : World σ) (event : Event) :
        (w.saveEvent e event).get k = w.get k := Store.get_set_of_ne _ _ other
    have aside (k : DataKey) (other : k ≠ .anonymousNullifier e claim.nullifier) (w : World σ) :
        (w.set (.anonymousNullifier e claim.nullifier) claim.ticketCommitment).get k = w.get k :=
      Store.get_set_of_ne _ _ other
    refine .inr ⟨fresh, ?_, ?_, w₁, counted, ?_⟩
    · refine (kept _ (by simp) _ _).trans (Store.get_set_self _ _ _)
    · rw [soldOf_eq stored]
      exact soldOf_saveEvent _ (event.sell index (tier.offered false) 1)
    · have same := (kept (.eventAnonWindow e) (by simp) _
        (event.sell index (tier.offered false) 1)).trans (aside (.eventAnonWindow e) (by simp)
          { w₁ with outside := (net.tryVerify env verifier claim.proof
            (anonymousClaimPublicInputs net env e tierId claim) w₁.outside).2 })
      exact congrArg (Option.getD · _) same

theorem claimAnonymousTicket_accepted
    (h : claimAnonymousTicket net env e tierId claim w = .ok w')
    (fresh : w.get (.anonymousNullifier e claim.nullifier) = none) :
    ∃ verifier outside, w.getAnonymousClaimVerifier = .ok verifier ∧
      (net.tryVerify env verifier claim.proof (anonymousClaimPublicInputs net env e tierId claim)
        outside).1 = true := by
  simp only [claimAnonymousTicket, bind_eq_ok] at h
  obtain ⟨event, -, h⟩ := h
  rw [fresh] at h
  simp only [claimNewTicket, verifyClaim, bind_eq_ok, require_eq_ok] at h
  obtain ⟨-, -, -, -, -, -, -, -, _, -, -, -, _, -, w₁, counted, verifier, stored, _,
    ⟨-, accepted, -⟩, -⟩ := h
  have writes : w.Writes (DataKey.eventAnonWindow e = ·) w₁ := countAnonClaim_writes rfl _ counted
  refine ⟨verifier, w₁.outside, ?_, accepted⟩
  rw [getAnonymousClaimVerifier, ← writes.get (by simp)]
  exact stored

end Anonymous

section Passport

variable {claim : ZkPassportClaim}

theorem touches_zkNullifier {c : Call} {n : BytesN 32} (h : c.Touches (.zkNullifier e n)) :
    ∃ tierId claim, c = .verifyAndAttend e tierId claim ∧ claim.nullifier = n := by
  cases c <;> simp [Call.Touches, DataKey.OfRegistration, DataKey.OfAttendee,
    DataKey.OfAttendeeList] at h
  case verifyAndAttend =>
    obtain ⟨rfl, rfl⟩ := h
    exact ⟨_, _, rfl, rfl⟩

theorem verifyAndAttend_spends (h : verifyAndAttend net env e tierId claim w = .ok w') :
    w.get (.zkNullifier e claim.nullifier) = none ∧
      w'.get (.zkNullifier e claim.nullifier) = some true := by
  simp only [verifyAndAttend, bind_eq_ok, pure_eq_ok, require_eq_ok] at h
  obtain ⟨event, -, -, -, -, -, -, -, -, -, -, -, -, -, -, fresh, ⟨index, tier⟩, -, -, -, _, -,
    w₁, charged, ⟨sold, w₂⟩, sells, rfl⟩ := h
  obtain rfl := sellSeats_ok sells
  constructor
  · simpa [World.has, Store.has, World.get] using fresh
  · exact (Store.get_set_of_ne _ _ (by simp)).trans (Store.get_set_self _ _ _)

end Passport

end Zicket.Events
