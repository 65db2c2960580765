import Zicket.Privacy.Indexes
import Zicket.Results.Disputes

/-! The identity that a payment and its ticket show over whole runs: its fields are those of the
privacy level, the level never changes, and the indexes by address name Standard ones only. -/

namespace Zicket.Payments

open Host Foundation Book

def Ticket.Identified (ticket : Ticket) : Prop :=
  match ticket.privacyLevel with
  | .standard => ticket.owner.isSome ∧ ticket.hashedOwner = none ∧ ticket.nullifierCommitment = none
  | .priv => ticket.owner = none ∧ ticket.hashedOwner.isSome ∧ ticket.nullifierCommitment = none
  | .anonymous =>
    ticket.owner = none ∧ ticket.hashedOwner = none ∧ ticket.nullifierCommitment.isSome

def World.ListsStandard (w : World) : Prop :=
  ∀ n, w.Lists n → ∃ p, w.book.payment n = some p ∧ p.privacyLevel = .standard

variable {d : Deployment} {w : World}

theorem PaymentRecord.Identified.standard {p : PaymentRecord} (h : p.Identified)
    (shown : p.payer.isSome) : p.privacyLevel = .standard := by
  unfold PaymentRecord.Identified at h
  cases level : p.privacyLevel with
  | standard => rfl
  | priv | anonymous =>
    rw [level] at h
    simp [h.1] at shown

theorem Ticket.identified {ticket : Ticket} {p : PaymentRecord} {k : ℕ} (h : p.Identified)
    (built : { ticket with owner := p.payer } = buildTicket p k)
    (owner : ticket.owner.isSome ↔ p.payer.isSome) : ticket.Identified := by
  have level : ticket.privacyLevel = p.privacyLevel := (congrArg Ticket.privacyLevel built :)
  have hash : ticket.hashedOwner = p.hashedWallet := (congrArg Ticket.hashedOwner built :)
  have commitment : ticket.nullifierCommitment = p.nullifierCommitment :=
    (congrArg Ticket.nullifierCommitment built :)
  unfold PaymentRecord.Identified at h
  unfold Ticket.Identified
  rw [level, hash, commitment]
  cases shown : p.privacyLevel with
  | standard =>
    rw [shown] at h
    exact ⟨owner.mpr h.1, h.2.1, h.2.2.2⟩
  | priv | anonymous =>
    rw [shown] at h
    have hidden : ticket.owner = none := by simpa [h.1] using owner
    exact ⟨hidden, h.2.1, h.2.2.2⟩

theorem next_adds {step : Step} (unpaid : paidFor d w step = none) :
    w.Adds [] (w.next d step) ∨ ∃ (id : ℕ) (ticket : Ticket), w.get (.ticket id) = some ticket ∧
      ticket.owner.isSome ∧ w.Adds [id] (w.next d step) := by
  cases step with
  | call invocation c =>
    rw [World.next]
    cases result : c.exec ⟨d, invocation⟩ w with
    | error e => exact .inl (.refl w)
    | ok w' =>
      cases asked : c.params with
      | some params =>
        rw [exec_params asked, bind_eq_ok] at result
        obtain ⟨⟨id, _⟩, result, -⟩ := result
        simp [paidFor, asked, result] at unpaid
      | none =>
        by_cases sold : ∀ buyer id, c ≠ .buyResaleTicket buyer id
        · exact .inl (exec_adds_nothing asked sold result)
        · push Not at sold
          obtain ⟨buyer, id, rfl⟩ := sold
          obtain ⟨ticket, seller, paid, moved, stored, owner, -⟩ := buyResaleTicket_ok aside_free result
          exact .inr ⟨id, ticket, stored, by simp [owner], buyResaleTicket_adds result⟩
  | mint =>
    rw [World.next]
    split <;> exact .inl (.refl w)
  | pay token src dst amount =>
    obtain ⟨balances, -, effect⟩ := payOutside_sound d w token src dst amount
    rw [World.next, effect]
    exact .inl (.refl w)

theorem next_listsStandard (kept : w.book.Kept) (h : w.ListsStandard) (step : Step) :
    (w.next d step).ListsStandard := by
  have old {n : ℕ} (known : ∃ p, w.book.payment n = some p ∧ p.privacyLevel = .standard) :
      ∃ p, (w.next d step).book.payment n = some p ∧ p.privacyLevel = .standard := by
    obtain ⟨p, hp, level⟩ := known
    obtain ⟨q, hq, follows⟩ := run_follows (d := d) kept [step] hp
    exact ⟨q, hq, follows.privacyLevel.trans level⟩
  intro n listed
  cases made : paidFor d w step with
  | none =>
    obtain adds | ⟨id, ticket, stored, owner, adds⟩ := next_adds made
    · obtain mem | listed := adds n listed
      · cases mem
      · exact old (h n listed)
    · obtain mem | listed := adds n listed
      · obtain rfl := List.mem_singleton.mp mem
        obtain ⟨p, hp, -, shown⟩ := kept.recorded.ticketed n ticket stored
        exact old ⟨p, hp, (kept.recorded.inRange n p hp).identified.standard (shown.mp owner)⟩
      · exact old (h n listed)
  | some entry =>
    obtain ⟨invocation, made⟩ := paidFor_eq_some made
    obtain ⟨sells⟩ := createPayment_sells made
    obtain ⟨p, built, -, payment⟩ := createPayment_records made
    obtain rfl : sells.p = p := Except.ok.inj (sells.built.symm.trans built)
    obtain mem | listed := sells.adds n listed
    · split at mem
      · rename_i standard
        simp only [List.mem_cons, List.not_mem_nil, or_false] at mem
        obtain rfl | rfl := mem
        · have kept' : (w.next d step).book.Kept := next_kept w step kept
          obtain ⟨p', hp', same, -⟩ := kept'.recorded.ticketed _ _ sells.stored
          have level : sells.p.privacyLevel = p'.privacyLevel := (congrArg Ticket.privacyLevel same :)
          exact ⟨p', hp', level.symm.trans standard⟩
        · refine ⟨sells.p, ?_, standard⟩
          rw [payment, (buildPaymentRecord_builds built).id]
          exact Function.update_self ..
      · cases mem
    · exact old (h n listed)

theorem reachable_listsStandard (d : Deployment) (balances : Balances Address Address)
    (steps : List Step) : (run (World.next d) (deployed balances) steps).ListsStandard := by
  have each : ∀ (w : World) step, w.book.Kept ∧ w.ListsStandard → True →
      (w.next d step).book.Kept ∧ (w.next d step).ListsStandard :=
    fun w step inv _ => ⟨next_kept w step inv.1, next_listsStandard inv.1 inv.2 step⟩
  have base : (deployed balances).ListsStandard := by
    rintro n ⟨k, v, stored, -⟩
    cases stored
  exact (run_invariant each (along_of_forall (fun _ _ => trivial) _ steps)
    ⟨deployed_kept balances, base⟩).2

/-- A payment and its ticket carry the identity fields of one privacy level, which later steps
keep; and unless the level is Standard, no index by payer or owner names them. -/
theorem identity_kept (d : Deployment) (balances : Balances Address Address)
    (before after : List Step) :
    let w := run (World.next d) (deployed balances) before
    let later := run (World.next d) w after
    (∀ id p, w.getPayment id = .ok p → p.Identified ∧
      (∃ q, later.getPayment id = .ok q ∧ q.privacyLevel = p.privacyLevel) ∧
      (∃ ticketId ticket, w.getTicket ticketId = .ok ticket ∧ ticket.paymentId = id) ∧
      (p.privacyLevel ≠ .standard → ∀ a, w.get (.payerPayment a id) = none ∧
        ∀ index, w.get (.payerPaymentIndex a index) ≠ some id)) ∧
    ∀ id ticket, w.getTicket id = .ok ticket → ticket.Identified ∧
      (∃ p, w.getPayment ticket.paymentId = .ok p ∧ p.privacyLevel = ticket.privacyLevel) ∧
      (∃ sold, later.getTicket id = .ok sold ∧ sold.paymentId = ticket.paymentId ∧
        sold.privacyLevel = ticket.privacyLevel) ∧
      (ticket.privacyLevel ≠ .standard → ∀ a, w.get (.ownerTicket a id) = none ∧
        ∀ index, w.get (.ownerTicketIndex a index) ≠ some id) := by
  intro w later
  have kept : w.book.Kept := reachable_kept d balances before
  have public_ : w.ListsStandard := reachable_listsStandard d balances before
  have unlisted {n : ℕ} {p : PaymentRecord} (hp : w.book.payment n = some p)
      (hidden : p.privacyLevel ≠ .standard) : ¬ w.Lists n := by
    intro listed
    obtain ⟨p', hp', standard⟩ := public_ n listed
    rw [hp] at hp'
    cases hp'
    exact hidden standard
  have paired {k : ℕ} {p : PaymentRecord} (hp : w.book.payment k = some p) :=
    reachable_paired d balances before hp
  constructor
  · intro id p stored
    have hp : w.book.payment id = some p := okOr_eq_ok.mp stored
    obtain ⟨number, ticket, pair⟩ := paired hp
    obtain ⟨q, hq, follows⟩ := run_follows (d := d) kept after hp
    refine ⟨(kept.recorded.inRange id p hp).identified,
      ⟨q, okOr_eq_ok.mpr hq, follows.privacyLevel⟩,
      ⟨id, ticket, okOr_eq_ok.mpr pair.stored, pair.paymentId.trans number⟩, fun hidden a => ⟨?_, ?_⟩⟩
    · refine Option.eq_none_iff_forall_ne_some.mpr fun listed entry => ?_
      exact unlisted hp hidden ⟨_, _, entry, rfl⟩
    · exact fun index entry => unlisted hp hidden ⟨_, _, entry, rfl⟩
  · intro id ticket stored
    have hticket : w.book.ticket id = some ticket := okOr_eq_ok.mp stored
    obtain ⟨p, hp, built, owner⟩ := kept.recorded.ticketed id ticket hticket
    have level : ticket.privacyLevel = p.privacyLevel := (congrArg Ticket.privacyLevel built :)
    have payment : ticket.paymentId = p.paymentId := (congrArg Ticket.paymentId built :)
    have number := (kept.recorded.numbered id p hp).1
    obtain ⟨q, hq, follows⟩ := run_follows (d := d) kept after hp
    have reached : later = run (World.next d) (deployed balances) (before ++ after) :=
      (run_append ..).symm
    have hq : later.book.payment id = some q := hq
    obtain ⟨number', sold, pair⟩ : q.paymentId = id ∧ ∃ sold, later.book.Paired id q sold := by
      rw [reached] at hq ⊢
      exact reachable_paired d balances (before ++ after) hq
    have level' : sold.privacyLevel = q.privacyLevel := (congrArg Ticket.privacyLevel pair.built :)
    refine ⟨Ticket.identified (kept.recorded.inRange id p hp).identified built owner,
      ⟨p, ?_, level.symm⟩, ⟨sold, okOr_eq_ok.mpr pair.stored, ?_, ?_⟩, fun hidden a => ⟨?_, ?_⟩⟩
    · rw [payment, number]
      exact okOr_eq_ok.mpr hp
    · rw [pair.paymentId, number', payment, number]
    · rw [level', follows.privacyLevel, level]
    · refine Option.eq_none_iff_forall_ne_some.mpr fun listed entry => ?_
      exact unlisted hp (level ▸ hidden) ⟨_, _, entry, rfl⟩
    · exact fun index entry => unlisted hp (level ▸ hidden) ⟨_, _, entry, rfl⟩

end Zicket.Payments
