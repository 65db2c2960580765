import Zicket.Linked.Minting

/-! Postponed events over whole runs of the linked contracts: what a cancellation leaves to
the attendees, and what an attendee who opts out gives up. -/

namespace Zicket.Linked

open Host Foundation Events

variable {links : Links} {w : World} {e : Symbol}

section Cancelled

/-- The organizer has no part in the event, and `claim_refund` pays the payer of a held payment
all that is left of it. The contract does not refuse: the call fails only if the payer did not
sign it, the pool does not cover the amount, or a sum does not fit. -/
def FullRefunds (links : Links) (e : Symbol) (w : World) : Prop :=
  (∃ config, w.outside.payments.getEventConfig e = some config ∧
    config.withdrawableRatioBps = some 0) ∧
  ∀ (invocation : Invocation) id p payer, w.outside.payments.get (.payment id) = some p →
    p.eventId = e → p.status = .held → p.privacyLevel = .standard → p.payer = some payer →
    let env : Env := ⟨links.paymentsAt, links.toPayments invocation w.outside.tickets⟩
    match Payments.claimRefund env payer id w.outside.payments with
    | .ok paid => paid.transfers = Payments.Book.refundTransfer links.payments p payer
        (p.amount - p.refundedAmount) :: w.outside.payments.transfers
    | .error failure => failure = .trap ∧ ¬ (env.authorized payer = true ∧
        w.outside.payments.CoversRefund links.payments p (p.amount - p.refundedAmount))

theorem fullRefunds_of_ratio {config : Payments.EventConfig} (kept : w.outside.payments.book.Kept)
    (cancelled : w.outside.payments.book.status e = some .cancelled)
    (configured : w.outside.payments.book.config e = some config)
    (full : config.withdrawableRatioBps = some 0) : FullRefunds links e w := by
  refine ⟨⟨config, configured, full⟩, ?_⟩
  rintro invocation id p payer stored rfl held - payee env
  have unrefused : Unrefused (Payments.claimRefund env payer id w.outside.payments) :=
    Payments.claimRefund_unrefused kept stored payee held cancelled configured full
  split
  · rename_i paid claimed
    exact Payments.claimRefund_full kept stored configured full claimed
  · rename_i failure failed
    refine ⟨?_, fun ⟨signed, covers⟩ => ?_⟩
    · cases failure with
      | error error => exact absurd failed (unrefused error)
      | trap => rfl
    · obtain ⟨paid, claimed⟩ :=
        Payments.claimRefund_ok kept stored payee held cancelled configured full signed covers
      rw [claimed] at failed
      cases failed

theorem cancel_step {invocation : Invocation} {organizer : Address} {event : Event}
    (wired : Wired links w) (copies : Matches UpToSupply w) (stored : w.get (.event e) = some event)
    (success : links.succeeds w (.events invocation (.cancelEvent organizer e)) = true) :
    FullRefunds links e (links.next w (.events invocation (.cancelEvent organizer e))) ↔
      invocation.sequence < event.eventStartLedger ∨
        (invocation.sequence - event.eventStartLedger) * 10000 <
          event.eventEndLedger - event.eventStartLedger := by
  obtain ⟨ms, ⟨o, -, -, -, -, rfl⟩, sent⟩ := wired.events success
  obtain ⟨payments, called, pushed⟩ :=
    Links.deliver_payments.mp (Links.delivered_singleton.mp sent)
  obtain ⟨config, contract, configured, -, -, status, ratio, -⟩ := Payments.cancelEvent_ok called
  have kept := Payments.exec_kept wired.outside.book called
  -- the schedule is the event's own, whatever was sold meanwhile
  obtain ⟨terms, copied, same⟩ := copies e _ (outline_of_event stored)
  rw [Payments.Book.terms, configured] at copied
  cases copied
  have start : config.eventStartLedger = event.eventStartLedger :=
    congrArg Payments.EventTerms.eventStartLedger same
  have stop : config.eventEndLedger = event.eventEndLedger :=
    congrArg Payments.EventTerms.eventEndLedger same
  rw [← start, ← stop, ← Payments.cancellationRatio_eq_zero]
  generalize links.next w (.events invocation (.cancelEvent organizer e)) = w' at pushed
  have here : w'.outside.payments = payments := congrArg (·.payments) pushed
  have status : w'.outside.payments.book.status e = some .cancelled := by
    rw [here, status, Function.update_self]
  have stored' : w'.outside.payments.book.config e = some { config with
      cancelLedger := some invocation.sequence
      withdrawableRatioBps := some (Payments.cancellationRatio config invocation.sequence) } := by
    rw [here, ratio, Function.update_self]
    rfl
  constructor
  · rintro ⟨⟨config', known, full⟩, -⟩
    cases (show w'.outside.payments.book.config e = some config' from known).symm.trans stored'
    exact Option.some.inj full
  · intro full
    exact fullRefunds_of_ratio (here ▸ kept) status stored' (congrArg some full)

/-- A postponed event that is cancelled is refunded in full exactly when the ledger is before
its old start, or in the first ten-thousandth of its old schedule. -/
theorem cancel_refunds_iff (links : Links) (setup : Setup) (steps : List Step)
    (linked : LinkedRun links setup steps) (invocation : Invocation) (organizer : Address)
    (e : Symbol) (event : Event) :
    let w := run links.next (links.opened setup) steps
    w.get (.event e) = some event → event.status = .postponed →
    links.succeeds w (.events invocation (.cancelEvent organizer e)) = true →
    (FullRefunds links e (links.next w (.events invocation (.cancelEvent organizer e))) ↔
      invocation.sequence < event.eventStartLedger ∨
        (invocation.sequence - event.eventStartLedger) * 10000 <
          event.eventEndLedger - event.eventStartLedger) := by
  intro w stored _ success
  have inv : Wired links w ∧ Matches UpToSupply w :=
    run_invariant (I := fun w => Wired links w ∧ Matches UpToSupply w)
      (fun w step inv keeps => ⟨next_wired inv.1 keeps, next_copies inv.1 inv.2⟩) linked
      ⟨opened_wired links setup, opened_copies links setup⟩
  exact cancel_step inv.1 inv.2 stored success

def Sample.postponed : List Step :=
  onSale ++ [events 3 (.registerForEvent 1 bob concert 0 none),
    events 4 (.postponeEvent organizer concert 70000 51840)]

theorem cancel_refunds_iff_early :
    ∃ event : Event,
      (FullRefunds Sample.links Sample.concert (Sample.links.next
          (run Sample.links.next (Sample.links.opened Sample.setup) Sample.postponed)
          (Sample.events 500 (.cancelEvent Sample.organizer Sample.concert))) ↔
        500 < event.eventStartLedger ∨ (500 - event.eventStartLedger) * 10000 <
          event.eventEndLedger - event.eventStartLedger) := by
  obtain ⟨event, stored, status⟩ := Option.map_eq_some_iff.mp
    (show ((run Sample.links.next (Sample.links.opened Sample.setup) Sample.postponed).get
      (.event Sample.concert)).map (·.status) = some .postponed by decide)
  exact ⟨event, cancel_refunds_iff Sample.links Sample.setup Sample.postponed (by decide)
    (Sample.invocation 500) Sample.organizer Sample.concert event stored status (by decide)⟩

/-- Cancelled half way through the old schedule, bob gets half of his money back. -/
theorem cancel_keeps_half :
    let w := run Sample.links.next (Sample.links.opened Sample.setup) Sample.postponed
    let cancel := Sample.events 1500 (.cancelEvent Sample.organizer Sample.concert)
    LinkedRun Sample.links Sample.setup Sample.postponed ∧
      (w.get (.event Sample.concert)).map (·.status) = some .postponed ∧
      Sample.links.succeeds w cancel = true ∧
      ¬ FullRefunds Sample.links Sample.concert (Sample.links.next w cancel) := by
  refine ⟨by decide, by decide, by decide, ?_⟩
  rintro ⟨⟨config, stored, full⟩, -⟩
  have half : ((Sample.links.next
      (run Sample.links.next (Sample.links.opened Sample.setup) Sample.postponed)
      (Sample.events 1500
        (.cancelEvent Sample.organizer Sample.concert))).outside.payments.getEventConfig
          Sample.concert).map (·.withdrawableRatioBps) = some (some 5000) := by decide
  rw [stored, Option.map_some, full] at half
  cases half

end Cancelled

section OptOut

def revoked (w w' : World) (e : Symbol) : Set ℕ :=
  {id | ∃ t, w.outside.tickets.get (.ticket id) = some t ∧ Revocable e t ∧
    w'.outside.tickets.get (.ticket id) = some { t with status := .cancelled }}

/-- As many tickets are revoked from `w` to `w'` as `minted` has, and the attendee can use
none of these any more. -/
def GivesUp (minted : Finset ℕ) (w w' : World) (e : Symbol) (attendee : Address) : Prop :=
  (revoked w w' e).encard = minted.card ∧ ∀ id ∈ minted, ∀ t,
    w'.outside.tickets.get (.ticket id) = some t → t.owner = attendee → ¬ t.Usable

/-- The ticket `id` is the first of the event that the attendee has, if it is still the
attendee's and unused. -/
def FoundFirst (id : ℕ) (w : World) (e : Symbol) (attendee : Address) : Prop :=
  ∀ t, w.outside.tickets.get (.ticket id) = some t → t.owner = attendee → t.Usable →
    firstRevocableOf w.outside.tickets attendee e = some id

variable {invocation : Invocation} {attendee : Address} {k : ℕ}

theorem firstRevocableOf_eq_some {tickets : Tickets.World} {r : ℕ}
    (found : firstRevocableOf tickets attendee e = some r) :
    ∃ t, tickets.get (.ticket r) = some t ∧ Revocable e t := by
  have revocable := List.find?_some found
  simpa [Option.any_eq_true] using revocable

theorem request_revokes (wired : Wired links w) (success : links.succeeds w
      (.events invocation (.requestPostponementRefund attendee k)) = true) :
    ∃ ticket r t, w.outside.payments.getTicket k = .ok ticket ∧
      firstRevocableOf w.outside.tickets attendee ticket.eventId = some r ∧
      w.outside.tickets.get (.ticket r) = some t ∧ Revocable ticket.eventId t ∧
      ∀ id, (links.next w (.events invocation
          (.requestPostponementRefund attendee k))).outside.tickets.get (.ticket id) =
        if id = r then some { t with status := .cancelled }
        else w.outside.tickets.get (.ticket id) := by
  obtain ⟨ms, ⟨-, ticket, o, r, held, -, -, found, rfl⟩, sent⟩ := wired.events success
  obtain ⟨t, stored, revocable⟩ := firstRevocableOf_eq_some found
  obtain ⟨next, refunded, cancelled⟩ := sent
  obtain ⟨payments, -, rfl⟩ := Links.deliver_payments.mp refunded
  obtain ⟨tickets, called, after⟩ :=
    Links.deliver_tickets.mp (Links.delivered_singleton.mp cancelled)
  refine ⟨ticket, r, t, held, found, stored, revocable, fun id => ?_⟩
  obtain ⟨cs, ⟨t', stored', rfl⟩, -, effect⟩ :=
    Tickets.exec_made wired.outside.registry called
  cases stored.symm.trans stored'
  have number : t.ticketId = r := (wired.outside.registry.numbered r t stored).1
  have written := congrFun (congrArg Tickets.Registry.ticket effect) id
  rw [after]
  refine written.symm.trans ?_
  change Function.update w.outside.tickets.registry.ticket t.ticketId _ id = _
  rw [number, Function.update_apply]
  rfl

/-- One ticket is revoked, so one must have been minted, and the scan must have found it. -/
theorem givesUp_iff {minted : Finset ℕ} {r : ℕ} {t : Tickets.Ticket} {w' : World}
    (stored : w.outside.tickets.get (.ticket r) = some t) (revocable : Revocable e t)
    (after : ∀ id, w'.outside.tickets.get (.ticket id) =
      if id = r then some { t with status := .cancelled }
      else w.outside.tickets.get (.ticket id)) :
    GivesUp minted w w' e attendee ↔ minted.card = 1 ∧ ∀ id ∈ minted, ∀ t,
      w.outside.tickets.get (.ticket id) = some t → t.owner = attendee → t.Usable → id = r := by
  have one : revoked w w' e = {r} := by
    ext id
    simp only [revoked, Set.mem_ofPred_eq, Set.mem_singleton_iff, after]
    constructor
    · rintro ⟨u, kept, ⟨-, -, valid⟩, cancelled⟩
      by_contra other
      rw [if_neg other, kept, Option.some.injEq] at cancelled
      have status : u.status = .cancelled := congrArg Tickets.Ticket.status cancelled
      rw [valid] at status
      cases status
    · rintro rfl
      exact ⟨t, stored, revocable, if_pos rfl⟩
  unfold GivesUp
  rw [one, Set.encard_singleton]
  refine and_congr ⟨fun same => by exact_mod_cast same.symm, fun same => by rw [same]; rfl⟩ ?_
  refine forall₂_congr fun id _ => ?_
  rw [after]
  by_cases found : id = r
  · subst found
    rw [if_pos rfl]
    refine iff_of_true ?_ fun _ _ _ _ => rfl
    rintro u same - usable
    cases same
    cases usable.2
  · rw [if_neg found]
    exact forall₂_congr fun u kept => forall_congr' fun _ => by simp [found]

/-- An attendee who opts out gives up the tickets that are refunded exactly when these were
one ticket, and the scan finds it before any other of the attendee's. -/
theorem opt_out_iff (links : Links) (setup : Setup) (steps : List Step)
    (linked : LinkedRun links setup steps) (invocation : Invocation) (attendee : Address) (k : ℕ) :
    let w := run links.next (links.opened setup) steps
    let optOut := Step.events invocation (.requestPostponementRefund attendee k)
    links.succeeds w optOut = true →
    ∃ ticket past issue rest, w.outside.payments.getTicket k = .ok ticket ∧
      steps = past ++ issue :: rest ∧
      let before := run links.next (links.opened setup) past
      ¬ Issued k before ∧ Issued k (links.next before issue) ∧
      (GivesUp (mintedBy before (links.next before issue)) w (links.next w optOut) ticket.eventId
          attendee ↔
        issue.seats = 1 ∧ FoundFirst (nextMint before) w ticket.eventId attendee) := by
  intro w optOut success
  have wired := run_wired linked (opened_wired links setup)
  obtain ⟨ticket, r, t, held, found, stored, revocable, after⟩ := request_revokes wired success
  have issued : Issued k w := by
    unfold Issued
    rw [show w.outside.payments.book.ticket k = some ticket from Payments.okOr_eq_ok.mp held]
    exact Option.some_ne_none _
  have unissued : ¬ Issued k (links.opened setup) := fun issued => issued rfl
  obtain ⟨past, issue, rest, rfl, before, issues⟩ := exists_first unissued issued
  refine ⟨ticket, past, issue, rest, held, rfl, before, issues, ?_⟩
  have sold := run_wired (along_append.mp linked).1 (opened_wired links setup)
  rw [givesUp_iff stored revocable after, mintedBy, (issue_mints sold before issues).1, Nat.card_Ico,
    Nat.add_sub_cancel_left]
  refine and_congr_right fun single => ?_
  rw [single]
  unfold FoundFirst
  rw [found]
  simp only [Finset.mem_Ico, Option.some.injEq]
  constructor
  · intro all t stored owner usable
    exact (all _ ⟨le_rfl, Nat.lt_succ_self _⟩ t stored owner usable).symm
  · intro first id range t stored owner usable
    obtain rfl : id = nextMint (run links.next (links.opened setup) past) := by omega
    exact (first t stored owner usable).symm

theorem opt_out_iff_single :
    let w := run Sample.links.next (Sample.links.opened Sample.setup) Sample.postponed
    let optOut := Sample.events 5 (.requestPostponementRefund Sample.bob 1)
    ∃ ticket past issue rest, w.outside.payments.getTicket 1 = .ok ticket ∧
      Sample.postponed = past ++ issue :: rest ∧
      let before := run Sample.links.next (Sample.links.opened Sample.setup) past
      ¬ Issued 1 before ∧ Issued 1 (Sample.links.next before issue) ∧
      (GivesUp (mintedBy before (Sample.links.next before issue)) w (Sample.links.next w optOut)
          ticket.eventId Sample.bob ↔
        issue.seats = 1 ∧ FoundFirst (nextMint before) w ticket.eventId Sample.bob) :=
  opt_out_iff Sample.links Sample.setup Sample.postponed (by decide) (Sample.invocation 5)
    Sample.bob 1 (by decide)

/-- Bob pays for two seats, is refunded for both, and can still use the second. -/
theorem opt_out_keeps_one :
    let before := run Sample.links.next (Sample.links.opened Sample.setup) Sample.onSale
    let issue := Sample.events 3 (.batchRegisterForEvent 1 Sample.bob Sample.concert 0 2 none)
    let postpone := Sample.events 4 (.postponeEvent Sample.organizer Sample.concert 70000 51840)
    let w := run Sample.links.next (Sample.links.opened Sample.setup)
      (Sample.onSale ++ [issue, postpone])
    let optOut := Sample.events 5 (.requestPostponementRefund Sample.bob 1)
    LinkedRun Sample.links Sample.setup (Sample.onSale ++ [issue, postpone]) ∧
      Sample.links.succeeds w optOut = true ∧
      ¬ Issued 1 before ∧ Issued 1 (Sample.links.next before issue) ∧
      ¬ GivesUp (mintedBy before (Sample.links.next before issue)) w (Sample.links.next w optOut)
        Sample.concert Sample.bob := by
  refine ⟨by decide, by decide, fun issued => issued rfl, ?_, ?_⟩
  · unfold Issued
    decide
  · rintro ⟨-, unusable⟩
    have kept : ((Sample.links.next (run Sample.links.next (Sample.links.opened Sample.setup)
        (Sample.onSale ++
          [Sample.events 3 (.batchRegisterForEvent 1 Sample.bob Sample.concert 0 2 none),
            Sample.events 4 (.postponeEvent Sample.organizer Sample.concert 70000 51840)]))
        (Sample.events 5 (.requestPostponementRefund Sample.bob 1))).outside.tickets.get
          (.ticket 2)).any (fun t => t.owner = Sample.bob ∧ t.Usable) = true := by decide
    obtain ⟨t, stored, usable⟩ := (Option.any_eq_true _ _).mp kept
    obtain ⟨owner, usable⟩ := of_decide_eq_true usable
    exact unusable 2 (by decide) t stored owner usable

end OptOut

end Zicket.Linked
