import Zicket.Lifecycle.Charter
import Zicket.Results.Inventory

/-! Whom the event contract trusts, over whole runs and whatever the linked contracts
answer: `initialize` can be called again, and then by anyone. -/

namespace Zicket.Events

open Host Foundation World

variable {σ : Type} {net : Network σ} {d : Deployment}

def Step.AuthorizedBy (a : Address) : Step σ → Prop
  | .call invocation _ => invocation.authorized a = true
  | .elsewhere _ => False

instance (a : Address) : (step : Step σ) → Decidable (step.AuthorizedBy a)
  | .call .. => inferInstanceAs (Decidable (_ = true))
  | .elsewhere _ => instDecidableFalse

/-- Once there is an admin, the step leaves the admin and the linked contracts as they are
or has the admin's authorization, and a verifier that is set stays. -/
structure AnchorsKept (net : Network σ) (d : Deployment) (w : World σ) (step : Step σ) : Prop where
  links : ∀ admin, w.getAdmin = .ok admin →
    step.AuthorizedBy admin ∨
      ((w.next net d step).getAdmin = w.getAdmin ∧
        (w.next net d step).getTicketContract = w.getTicketContract ∧
        (w.next net d step).getPaymentsContract = w.getPaymentsContract)
  verifier : ∀ verifier, w.getAnonymousClaimVerifier = .ok verifier →
    (w.next net d step).getAnonymousClaimVerifier = .ok verifier

/-- A second `initialize` has the authorization of the stored admin. -/
def AdminReinitializes (net : Network σ) (d : Deployment) (w : World σ) : Step σ → Prop
  | .call invocation (.initialise admin ticketContract paymentsContract) =>
    (Call.initialise admin ticketContract paymentsContract).succeeds net ⟨d, invocation⟩ w = true →
      ∀ stored, w.getAdmin = .ok stored → invocation.authorized stored = true
  | _ => True

theorem succeeds_amends {w : World σ} {invocation : Invocation} {c : Call}
    (success : c.succeeds net ⟨d, invocation⟩ w = true) :
    w.charter.Amends ⟨d, invocation⟩ (w.next net d (.call invocation c)).charter c := by
  rw [World.next]
  cases result : c.exec net ⟨d, invocation⟩ w with
  | error failure => simp [Call.succeeds, result, Except.isOk, Except.toBool] at success
  | ok w' => exact exec_amends result

theorem next_failed {w : World σ} {invocation : Invocation} {c : Call}
    (failed : ¬ c.succeeds net ⟨d, invocation⟩ w = true) :
    w.next net d (.call invocation c) = w := by
  rw [World.next]
  cases result : c.exec net ⟨d, invocation⟩ w with
  | error failure => rfl
  | ok w' => simp [Call.succeeds, result, Except.isOk, Except.toBool] at failed

theorem anchorsKept_of_charter {w : World σ} {step : Step σ}
    (admin : (w.next net d step).charter.admin = w.charter.admin)
    (ticketContract : (w.next net d step).charter.ticketContract = w.charter.ticketContract)
    (paymentsContract : (w.next net d step).charter.paymentsContract = w.charter.paymentsContract)
    (verifier : w.charter.verifier = none ∨
      (w.next net d step).charter.verifier = w.charter.verifier) : AnchorsKept net d w step where
  links _ _ := .inr ⟨congrArg (okOr · .contractLinksNotConfigured) admin,
    congrArg (okOr · .contractLinksNotConfigured) ticketContract,
    congrArg (okOr · .contractLinksNotConfigured) paymentsContract⟩
  verifier v known := by
    have known : w.charter.verifier = some v := okOr_eq_ok.mp known
    obtain unset | same := verifier
    · rw [unset] at known
      cases known
    · exact okOr_eq_ok.mpr (same.trans known)

/-- One step: nothing but an `initialize` of somebody else moves the anchors. -/
theorem anchors_step (w : World σ) (step : Step σ) :
    AnchorsKept net d w step ↔ AdminReinitializes net d w step := by
  constructor
  · intro kept
    unfold AdminReinitializes
    split
    · intro success stored known
      obtain authorized | ⟨same, -⟩ := kept.links stored known
      · exact authorized
      · -- the new admin is the caller, who has to authorize the call
        obtain ⟨authorized, amended⟩ := succeeds_amends success
        have new := congrArg Charter.admin amended
        have old := okOr_eq_ok.mp (same.trans known)
        cases new.symm.trans old
        exact authorized
    · trivial
  · intro reinitializes
    cases step with
    | elsewhere outside => exact anchorsKept_of_charter rfl rfl rfl (.inr rfl)
    | call invocation c =>
      by_cases success : c.succeeds net ⟨d, invocation⟩ w = true
      · have amends := succeeds_amends success
        cases c with
        | initialise =>
          refine ⟨fun stored known => .inl (reinitializes success stored known), fun v known => ?_⟩
          exact okOr_eq_ok.mpr ((congrArg Charter.verifier amends.2).trans (okOr_eq_ok.mp known))
        | setAnonymousClaimVerifier =>
          obtain ⟨unset, amended⟩ := amends
          have admin := congrArg Charter.admin amended
          have tickets := congrArg Charter.ticketContract amended
          have payments := congrArg Charter.paymentsContract amended
          exact anchorsKept_of_charter admin tickets payments (.inl unset)
        | postponeEvent =>
          obtain ⟨-, -, amended⟩ := amends
          have admin := congrArg Charter.admin amended
          have tickets := congrArg Charter.ticketContract amended
          have payments := congrArg Charter.paymentsContract amended
          have verifier := congrArg Charter.verifier amended
          exact anchorsKept_of_charter admin tickets payments (.inr verifier)
        | finalizePostponement organizer e =>
          have amended : _ = w.charter.resume e := amends
          have admin := congrArg Charter.admin amended
          have tickets := congrArg Charter.ticketContract amended
          have payments := congrArg Charter.paymentsContract amended
          have verifier := congrArg Charter.verifier amended
          exact anchorsKept_of_charter admin tickets payments (.inr verifier)
        | _ =>
          exact anchorsKept_of_charter (congrArg Charter.admin amends)
            (congrArg Charter.ticketContract amends) (congrArg Charter.paymentsContract amends)
            (.inr (congrArg Charter.verifier amends))
      · have same := congrArg World.charter (next_failed success)
        exact anchorsKept_of_charter (congrArg Charter.admin same)
          (congrArg Charter.ticketContract same) (congrArg Charter.paymentsContract same)
          (.inr (congrArg Charter.verifier same))

/-- The anchors are safe along a run exactly when no `initialize` after the first one lacks
the authorization of the admin stored by then. -/
theorem anchors_kept_iff (net : Network σ) (d : Deployment) (outside : σ) (steps : List (Step σ)) :
    Along (World.next net d) (AnchorsKept net d) (deployed outside) steps ↔
      Along (World.next net d) (AdminReinitializes net d) (deployed outside) steps :=
  ⟨fun kept => kept.mono fun w step => (anchors_step w step).mp,
    fun meets => meets.mono fun w step => (anchors_step w step).mpr⟩

namespace Sample

def signedByBob : Invocation := { invocation 2 with authorized := fun a => a = bob }

def takeover : List (Step Unit) :=
  [call 1 (.initialise organizer ⟨7⟩ ⟨8⟩), .call signedByBob (.initialise bob ⟨17⟩ ⟨18⟩)]

end Sample

theorem anchors_taken : ¬ Along (World.next Sample.silent Sample.deployment)
    (AnchorsKept Sample.silent Sample.deployment) (deployed ()) Sample.takeover := by
  rintro ⟨-, kept, -⟩
  obtain authorized | ⟨same, -⟩ := kept.links Sample.organizer rfl
  · revert authorized
    decide
  · revert same
    decide

end Zicket.Events
