import Zicket.Linked.Agreement
import Zicket.Privacy.Replay
import Zicket.Privacy.Records

/-! An event's privacy switches. The event contract tells them with the event's terms, and the
payments contract looks for them elsewhere, where nothing puts them; so payments heed them only
as far as the payers do. -/

namespace Zicket.Payments

open Host Foundation

def World.forbidsAnonymous (w : World) (e : Symbol) : Bool :=
  (w.getEventConfig e).any (fun config => !config.allowAnonymous) ||
    !(w.getEventPrivacy e).allowAnonymous

def World.requiresVerified (w : World) (e : Symbol) : Bool :=
  (w.getEventConfig e).any (·.requiresVerification) || (w.getEventPrivacy e).requiresVerification

theorem Sells.unrequired {env : Env} {params : PaymentParams} {w w' : World} {id : ℕ}
    (s : Sells env params w w' id) (unverified : params.isVerified = false) :
    (w.getEventPrivacy params.eventId).requiresVerification = false := by
  have allowed := s.allowed
  simp only [validatePaymentPrivacy, bind_eq_ok, require_eq_ok] at allowed
  obtain ⟨-, -, verified⟩ := allowed
  simpa [unverified] using verified

end Zicket.Payments

namespace Zicket.Linked

open Host Foundation Events

variable {links : Links} {w : World} {e : Symbol} {step : Step}

def Records (links : Links) (e : Symbol) (w : World) (step : Step)
    (p : Payments.PaymentRecord) : Prop :=
  ∃ id, w.outside.payments.book.payment id = none ∧
    (links.next w step).outside.payments.book.payment id = some p ∧ p.eventId = e

/-- A payment for the event succeeds without verification. The event contract pays through
`pay_for_ticket`, which passes `is_verified = false`. -/
def PaysUnverified (links : Links) (e : Symbol) (w : World) : Step → Prop
  | .payments invocation c => links.succeeds w (.payments invocation c) = true ∧
    ∃ params, c.params = some params ∧ params.eventId = e ∧ params.isVerified = false
  | .events invocation c => ∃ p, Records links e w (.events invocation c) p
  | _ => False

/-- No Anonymous payment for an event that does not allow them, and no unverified payment for
one that requires verification. -/
def SwitchesHold (links : Links) (e : Symbol) (w : World) (step : Step) : Prop :=
  (w.outside.payments.forbidsAnonymous e = true →
    ∀ p, Records links e w step p → p.privacyLevel ≠ .anonymous) ∧
  (w.outside.payments.requiresVerified e = true → ¬ PaysUnverified links e w step)

/-- The payers heed the switches: nobody pays the payments contract for an Anonymous ticket that
is not allowed, or unverified for an event whose configuration requires verification, and nobody
registers with the latter for a ticket that has a price. -/
def PayersHeed (links : Links) (e : Symbol) (w : World) (step : Step) : Prop :=
  let required := (w.outside.payments.getEventConfig e).any (·.requiresVerification)
  links.succeeds w step = true → match step with
  | .payments _ c => ∀ params, c.params = some params → params.eventId = e →
    (params.privacyLevel = .anonymous → w.outside.payments.forbidsAnonymous e = false) ∧
    (params.isVerified = false → required = false)
  | .events _ (.registerForEvent _ _ e' tierId _) | .events _ (.batchRegisterForEvent _ _ e' tierId _ _) =>
    e' = e → ∀ price, PricedAt w e tierId price → 0 < price → required = false
  | _ => True

section Records

variable {p q : Payments.PaymentRecord} {id : ℕ}

theorem no_records (unsold : ∀ id, w.outside.payments.book.payment id = none →
    (links.next w step).outside.payments.book.payment id = none) : ¬ Records links e w step p := by
  rintro ⟨id, absent, stored, -⟩
  rw [unsold id absent] at stored
  cases stored

theorem records_of_update (absent : w.outside.payments.book.payment id = none)
    (update : (links.next w step).outside.payments.book.payment =
      Function.update w.outside.payments.book.payment id (some p)) :
    Records links e w step q ↔ p.eventId = e ∧ q = p := by
  constructor
  · rintro ⟨id', absent', stored, event⟩
    rw [update] at stored
    obtain ⟨-, rfl⟩ | ⟨-, old⟩ := update_eq_some.mp stored
    · exact ⟨event, rfl⟩
    · rw [absent'] at old
      cases old
  · rintro ⟨event, rfl⟩
    exact ⟨id, absent, by rw [update, Function.update_self], event⟩

theorem failed_holds (failed : ¬ links.succeeds w step = true) : SwitchesHold links e w step := by
  have none_recorded (p : Payments.PaymentRecord) : ¬ Records links e w step p :=
    no_records fun id absent => by rwa [next_failed failed]
  refine ⟨fun _ p recorded => absurd recorded (none_recorded p), fun _ pays => ?_⟩
  cases step with
  | events => exact pays.elim none_recorded
  | payments => exact failed pays.1
  | tickets | mint | pay => exact pays

end Records

theorem direct_holds {invocation : Invocation} {c : Payments.Call} {params : Payments.PaymentParams}
    (asked : c.params = some params)
    (success : links.succeeds w (.payments invocation c) = true) :
    SwitchesHold links e w (.payments invocation c) ↔ PayersHeed links e w (.payments invocation c) := by
  obtain ⟨payments, called, next⟩ := payments_next success
  rw [Payments.exec_params asked, bind_eq_ok] at called
  obtain ⟨⟨id, w'⟩, made, same⟩ := called
  obtain rfl := pure_eq_ok.mp same
  obtain ⟨sells⟩ := Payments.createPayment_sells made
  obtain ⟨p, built, absent, update⟩ := Payments.createPayment_records made
  have event : p.eventId = params.eventId := (Payments.buildPaymentRecord_builds built).event
  have level : p.privacyLevel = params.privacyLevel := (Payments.built_identity built).1
  have records (q : Payments.PaymentRecord) := records_of_update (q := q) (e := e) absent
    (show (links.next w (.payments invocation c)).outside.payments.book.payment = _ by
      rw [next]; exact update)
  unfold SwitchesHold PayersHeed
  simp only [records, event]
  constructor
  · rintro ⟨anonymous, verified⟩ - params' asked' here
    rw [asked] at asked'
    cases asked'
    constructor
    · intro hidden
      refine Bool.eq_false_iff.mpr fun forbidden => ?_
      exact anonymous forbidden p ⟨here, rfl⟩ (level.trans hidden)
    · intro unverified
      refine Bool.eq_false_iff.mpr fun required => ?_
      refine verified ?_ ⟨success, params, asked, here, unverified⟩
      rw [Payments.World.requiresVerified, required, Bool.true_or]
  · intro heed
    obtain heed := heed success params asked
    constructor
    · rintro forbidden q ⟨here, rfl⟩ hidden
      rw [(heed here).1 (level.symm.trans hidden)] at forbidden
      cases forbidden
    · rintro required ⟨-, params', asked', here, unverified⟩
      rw [asked] at asked'
      cases asked'
      rw [Payments.World.requiresVerified, (heed here).2 unverified, ← here,
        sells.unrequired unverified] at required
      cases required

section Registration

variable {env : Env} {nonce : ℕ} {payer : Address} {e' : Symbol} {price amount : ℤ}
  {emailHash : Option (BytesN 32)} {charge : List Message} {t : Tickets.Call}
  {invocation : Invocation} {c : Call}

theorem registration_holds
    (charges : Charges env nonce payer e' price amount emailHash charge)
    (sent : links.Delivered env w.outside (charge ++ [.tickets t])
      (links.next w (.events invocation c)).outside) :
    SwitchesHold links e w (.events invocation c) ↔ (e' = e → 0 < price →
      (w.outside.payments.getEventConfig e).any (·.requiresVerification) = false) := by
  obtain ⟨free, same⟩ | ⟨priced, token, paid⟩ := (sale_delivered charges sent).1
  · have unsold (p : Payments.PaymentRecord) : ¬ Records links e w (.events invocation c) p :=
      no_records fun id absent => by rwa [same]
    refine iff_of_true ⟨fun _ p recorded => absurd recorded (unsold p), ?_⟩
      fun _ priced => absurd free (not_le.mpr priced)
    rintro - ⟨p, recorded⟩
    exact unsold p recorded
  · rw [Payments.exec_params rfl, bind_eq_ok] at paid
    obtain ⟨⟨id, w'⟩, made, after⟩ := paid
    obtain rfl := pure_eq_ok.mp after
    obtain ⟨sells⟩ := Payments.createPayment_sells made
    obtain ⟨p, built, absent, update⟩ := Payments.createPayment_records made
    have event : p.eventId = e' := (Payments.buildPaymentRecord_builds built).event
    have level : p.privacyLevel = .standard := (Payments.built_identity built).1
    have records (q : Payments.PaymentRecord) :
        Records links e w (.events invocation c) q ↔ p.eventId = e ∧ q = p :=
      records_of_update absent update
    have unrequired := sells.unrequired rfl
    unfold SwitchesHold PaysUnverified
    simp only [records, event]
    constructor
    · rintro ⟨-, verified⟩ here -
      refine Bool.eq_false_iff.mpr fun required => verified ?_ ⟨p, here, rfl⟩
      rw [Payments.World.requiresVerified, required, Bool.true_or]
    · intro heed
      refine ⟨?_, ?_⟩
      · rintro - q ⟨-, rfl⟩ hidden
        rw [level] at hidden
        cases hidden
      · rintro required ⟨q, here, -⟩
        rw [Payments.World.requiresVerified, heed here priced, ← here, unrequired] at required
        cases required

end Registration

theorem pricedAt_inj {tierId : ℕ} {price price' : ℤ} (h : PricedAt w e tierId price)
    (h' : PricedAt w e tierId price') : price' = price := by
  obtain ⟨event, index, tier, stored, found, rfl⟩ := h
  obtain ⟨event', index', tier', stored', found', rfl⟩ := h'
  rw [stored] at stored'
  cases stored'
  rw [found] at found'
  cases found'
  rfl

theorem switches_step (wired : Wired links w) :
    SwitchesHold links e w step ↔ PayersHeed links e w step := by
  by_cases success : links.succeeds w step = true
  · have unpaid (unsold : ∀ id, w.outside.payments.book.payment id = none →
        (links.next w step).outside.payments.book.payment id = none)
        (silent : ¬ PaysUnverified links e w step) : SwitchesHold links e w step :=
      ⟨fun _ p recorded => absurd recorded (no_records unsold), fun _ => silent⟩
    cases step with
    | payments invocation c =>
      cases asked : c.params with
      | some params => exact direct_holds asked success
      | none =>
        refine iff_of_true (unpaid (fun id absent => ?_) ?_) ?_
        · obtain ⟨payments, called, next⟩ := payments_next success
          rw [next]
          exact Payments.exec_unsold wired.outside.book called
            (Payments.unsold_of_params asked) absent
        · rintro ⟨-, params, given, -⟩
          rw [asked] at given
          cases given
        · intro _ params given
          rw [asked] at given
          cases given
    | events invocation c =>
      obtain ⟨ms, effect, sent⟩ := wired.events success
      have free (free : registers c = false) : SwitchesHold links e w (.events invocation c) := by
        have unsold (id : ℕ) (absent : w.outside.payments.book.payment id = none) :=
          delivered_unsold wired.outside.book (effect.unsold free) sent absent
        exact unpaid unsold fun ⟨p, recorded⟩ => no_records unsold recorded
      have priced {tierId : ℕ} {price : ℤ} {e' : Symbol} {required : Bool}
          (here : PricedAt w e' tierId price) :
          (e' = e → 0 < price → required = false) ↔ (e' = e → ∀ price, PricedAt w e tierId price →
            0 < price → required = false) := by
        constructor
        · rintro heed rfl price' there positive
          rw [pricedAt_inj here there] at positive
          exact heed rfl positive
        · rintro heed rfl positive
          exact heed rfl price here positive
      cases c with
      | registerForEvent nonce attendee e' tierId emailHash =>
        obtain ⟨-, o, price, charge, -, -, here, charges, rfl⟩ := effect
        rw [registration_holds charges sent, priced here]
        exact ⟨fun heed _ => heed, fun heed => heed success⟩
      | batchRegisterForEvent nonce attendee e' tierId count emailHash =>
        obtain ⟨-, o, price, amount, charge, -, -, here, -, charges, rfl⟩ := effect
        rw [registration_holds charges sent, priced here]
        exact ⟨fun heed _ => heed, fun heed => heed success⟩
      | _ => exact iff_of_true (free rfl) fun _ => trivial
    | tickets => exact iff_of_true (unpaid (fun _ absent => absent) id) fun _ => trivial
    | mint token dst amount =>
      have carries : w.outside.payments.book.Carries
          (w.outside.payments.next links.paymentsAt (.mint token dst amount)).book :=
        Payments.next_carries wired.outside.book rfl
      exact iff_of_true (unpaid (fun _ => carries.absent) id) fun _ => trivial
    | pay token src dst amount =>
      have carries : w.outside.payments.book.Carries
          (w.outside.payments.next links.paymentsAt (.pay token src dst amount)).book :=
        Payments.next_carries wired.outside.book rfl
      exact iff_of_true (unpaid (fun _ => carries.absent) id) fun _ => trivial
  · exact iff_of_true (failed_holds success) fun succeeds => absurd succeeds success

/-- The privacy switches of an event hold all along a run exactly when its payers heed them. -/
theorem switches_hold_iff (links : Links) (setup : Setup) (e : Symbol) (steps : List Step)
    (linked : LinkedRun links setup steps) :
    Along links.next (SwitchesHold links e) (links.opened setup) steps ↔
      Along links.next (PayersHeed links e) (links.opened setup) steps := by
  have strong := linked.strengthen (I := Wired links) (fun w step wired keeps => next_wired wired keeps)
    (opened_wired links setup)
  constructor
  · intro holds
    exact (strong.and holds).mono fun w step meets => (switches_step meets.1.1).mp meets.2
  · intro heed
    exact (strong.and heed).mono fun w step meets => (switches_step meets.1.1).mpr meets.2

def Sample.hides : Step :=
  Sample.payments 2 (.payForTicket 1 Sample.bob Sample.concert 100 none Sample.token .anonymous
    (some Payments.zeroHash) none)

def Sample.strict : List Step :=
  [Sample.events 1 (.createEvent { Sample.params with requiresVerification := true }),
    Sample.events 2 (.updateEventStatus Sample.organizer Sample.concert .active)]

def Sample.registers : Step :=
  Sample.events 3 (.registerForEvent 1 Sample.bob Sample.concert 0 none)

theorem switches_hold_iff_unverified :
    Along Sample.links.next (SwitchesHold Sample.links Sample.concert)
        (Sample.links.opened Sample.setup) (Sample.strict ++ [Sample.registers]) ↔
      Along Sample.links.next (PayersHeed Sample.links Sample.concert)
        (Sample.links.opened Sample.setup) (Sample.strict ++ [Sample.registers]) :=
  switches_hold_iff Sample.links Sample.setup Sample.concert _ (by decide)

/-- Neither switch stops a payment: the concert does not allow the Anonymous ticket that is
sold, and the seat is sold without verification. -/
theorem switches_ignored :
    let hidden := Sample.announced ++ [Sample.hides]
    let unverified := Sample.strict ++ [Sample.registers]
    (LinkedRun Sample.links Sample.setup hidden ∧
      ¬ Along Sample.links.next (SwitchesHold Sample.links Sample.concert)
        (Sample.links.opened Sample.setup) hidden) ∧
    LinkedRun Sample.links Sample.setup unverified ∧
      ¬ Along Sample.links.next (SwitchesHold Sample.links Sample.concert)
        (Sample.links.opened Sample.setup) unverified := by
  have recorded (past : List Step) (step : Step) (level : Payments.PaymentPrivacy)
      (absent : ((run Sample.links.next (Sample.links.opened Sample.setup)
        past).outside.payments.book.payment 1).isNone = true)
      (stored : ((Sample.links.next (run Sample.links.next (Sample.links.opened Sample.setup) past)
        step).outside.payments.book.payment 1).map (·.privacyLevel) = some level)
      (sold : ((Sample.links.next (run Sample.links.next (Sample.links.opened Sample.setup) past)
        step).outside.payments.book.payment 1).map (·.eventId) = some Sample.concert) :
      ∃ p, Records Sample.links Sample.concert
        (run Sample.links.next (Sample.links.opened Sample.setup) past) step p ∧
          p.privacyLevel = level := by
    obtain ⟨p, stored, shown⟩ := Option.map_eq_some_iff.mp stored
    rw [stored, Option.map_some, Option.some.injEq] at sold
    exact ⟨p, ⟨1, Option.isNone_iff_eq_none.mp absent, stored, sold⟩, shown⟩
  refine ⟨⟨by decide, fun holds => ?_⟩, by decide, fun holds => ?_⟩
  · have last := along_singleton.mp (along_append.mp holds).2
    obtain ⟨p, record, shown⟩ := recorded Sample.announced Sample.hides .anonymous (by decide)
      (by decide) (by decide)
    exact last.1 (by decide) p record shown
  · have last := along_singleton.mp (along_append.mp holds).2
    obtain ⟨p, record, -⟩ := recorded Sample.strict Sample.registers .standard (by decide)
      (by decide) (by decide)
    exact last.2 (by decide) ⟨p, record⟩

end Zicket.Linked
