import Zicket.Linked.Wiring
import Zicket.Refinement.Terms

/-! How far the payments contract follows the event contract: which status it keeps of an
event, and which terms. Both are pushed by the event contract alone. -/

namespace Zicket.Linked

open Host Foundation Events
open Payments (EventTerms)

variable {links : Links} {env : Env} {w w' : World} {s s' : Outside} {e : Symbol}

section Delivered

variable {ms : List Message}

theorem delivered_book {I : Payments.Book → Prop}
    (keeps : ∀ c, .payments c ∈ ms → ∀ (env : Env) (w w' : Payments.World), w.book.Kept → I w.book →
      c.exec env w = .ok w' → I w'.book)
    (kept : s.payments.book.Kept) (base : I s.payments.book) (sent : links.Delivered env s ms s') :
    I s'.payments.book := by
  induction ms generalizing s with
  | nil =>
    cases sent
    exact base
  | cons m ms ih =>
    obtain ⟨next, first, rest⟩ := sent
    have later : ∀ c, .payments c ∈ ms → ∀ (env : Env) (w w' : Payments.World), w.book.Kept →
        I w.book → c.exec env w = .ok w' → I w'.book :=
      fun c mem => keeps c (List.mem_cons_of_mem _ mem)
    cases m with
    | payments c =>
      obtain ⟨payments, called, rfl⟩ := Links.deliver_payments.mp first
      exact ih later (Payments.exec_kept kept called)
        (keeps c (List.mem_cons_self ..) _ _ _ kept base called) rest
    | tickets c =>
      obtain ⟨tickets, -, rfl⟩ := Links.deliver_tickets.mp first
      have last := ih (s := { s with tickets }) later kept base rest
      exact last

def Message.entries : Message → List Payments.Entry
  | .payments c => c.entries
  | .tickets _ => []

def Message.Steady (m : Message) : Prop := .setStatus ∉ m.entries ∧ .cancel ∉ m.entries

def Message.sells (m : Message) : Bool := m.entries.contains .sale

theorem delivered_status (kept : s.payments.book.Kept) (steady : ∀ m ∈ ms, m.Steady)
    (sent : links.Delivered env s ms s') :
    s'.payments.book.status = s.payments.book.status := by
  refine delivered_book (I := fun b => b.status = s.payments.book.status) ?_ kept rfl sent
  intro c mem env w w' kept same called
  exact (Payments.exec_status kept called (steady _ mem)).trans same

theorem delivered_terms (kept : s.payments.book.Kept)
    (quiet : ∀ contract e terms, .payments (.syncEventConfig contract e terms) ∉ ms)
    (sent : links.Delivered env s ms s') :
    s'.payments.book.terms = s.payments.book.terms := by
  refine delivered_book (I := fun b => b.terms = s.payments.book.terms) ?_ kept rfl sent
  intro c mem env w w' kept same called
  refine (Payments.exec_terms kept called fun contract e terms eq => ?_).trans same
  exact quiet contract e terms (eq ▸ mem)

theorem delivered_unsold (kept : s.payments.book.Kept)
    (unsold : ∀ m ∈ ms, m.sells = false) (sent : links.Delivered env s ms s') {id : ℕ}
    (absent : s.payments.book.payment id = none) : s'.payments.book.payment id = none := by
  refine delivered_book (I := fun b => b.payment id = none) ?_ kept absent sent
  intro c mem env w w' kept absent called
  have quiet : c.entries.contains .sale = false := unsold _ mem
  exact Payments.exec_unsold kept called (by simpa using quiet) absent

end Delivered

section Direct

variable {invocation : Invocation}

/-- Nobody outside signs for the event contract, so what only that contract may ask for is
refused when it is asked for directly. -/
theorem direct_refused {contract : Address} (wired : Wired links w)
    (stored : w.outside.payments.book.eventContract = some contract)
    (signed : (links.toPayments invocation w.outside.tickets).authorized contract = true) :
    False := by
  rw [wired.outside.eventContract] at stored
  cases stored
  have masked : links.IsContract links.events := List.mem_cons_self ..
  simp [Links.toPayments, Links.signed, masked] at signed

theorem direct_status {c : Payments.Call} (wired : Wired links w)
    (success : links.succeeds w (.payments invocation c) = true)
    (steady : ∀ admin e status, c ≠ .setEventStatus admin e status) :
    (links.next w (.payments invocation c)).outside.payments.book.status =
      w.outside.payments.book.status := by
  obtain ⟨payments, called, next⟩ := payments_next success
  rw [next]
  cases c with
  | setEventStatus admin e status => exact absurd rfl (steady admin e status)
  | cancelEvent =>
    obtain ⟨-, contract, -, stored, signed, -⟩ := Payments.cancelEvent_ok called
    exact (direct_refused wired stored signed).elim
  | postponeEvent =>
    obtain ⟨contract, stored, signed, -⟩ := Payments.postponeEvent_ok called
    exact (direct_refused wired stored signed).elim
  | resumeEvent =>
    obtain ⟨contract, stored, signed, -⟩ := Payments.resumeEvent_ok called
    exact (direct_refused wired stored signed).elim
  | _ => exact Payments.exec_status wired.outside.book called (by simp [Payments.Call.entries])

theorem direct_terms {c : Payments.Call} (wired : Wired links w)
    (success : links.succeeds w (.payments invocation c) = true) :
    (links.next w (.payments invocation c)).outside.payments.book.terms =
      w.outside.payments.book.terms := by
  obtain ⟨payments, called, next⟩ := payments_next success
  rw [next]
  refine Payments.exec_terms wired.outside.book called ?_
  rintro contract e terms rfl
  obtain ⟨stored, signed, -⟩ := Payments.syncEventConfig_ok called
  exact direct_refused wired stored signed

theorem next_outline {step : Step} (other : ∀ invocation c, step ≠ .events invocation c) :
    outline (links.next w step) = outline w := by
  cases step with
  | events invocation c => exact absurd rfl (other invocation c)
  | _ => rfl

theorem token_book (d : Deployment) {w : Payments.World} (kept : w.book.Kept)
    (step : Payments.Step) (token : ∀ invocation c, step ≠ .call invocation c) :
    (w.next d step).book.toRecords = w.book.toRecords ∧
      (w.next d step).book.toTerms = w.book.toTerms := by
  obtain ⟨ps, wrote, -, effect⟩ := Payments.next_wrote kept step
  rw [← effect]
  cases step with
  | call invocation c => exact absurd rfl (token invocation c)
  | mint | pay =>
    obtain rfl := wrote
    exact ⟨rfl, rfl⟩

def Step.setsStatus : Step → Bool
  | .payments _ (.setEventStatus ..) => true
  | _ => false

theorem next_pushed {step : Step} (wired : Wired links w)
    (other : ∀ invocation c, step ≠ .events invocation c) :
    (links.next w step).outside.payments.book.terms = w.outside.payments.book.terms ∧
      (step.setsStatus = false →
        (links.next w step).outside.payments.book.status = w.outside.payments.book.status) := by
  have token (step : Payments.Step) (token : ∀ invocation c, step ≠ .call invocation c) :
      (w.outside.payments.next links.paymentsAt step).book.terms = w.outside.payments.book.terms ∧
        (w.outside.payments.next links.paymentsAt step).book.status =
          w.outside.payments.book.status := by
    obtain ⟨-, same⟩ := token_book links.paymentsAt wired.outside.book step token
    have config := congrArg Payments.Terms.config same
    exact ⟨funext fun e => congrArg (Option.map _) (congrFun config e),
      congrArg Payments.Terms.status same⟩
  by_cases success : links.succeeds w step = true
  · cases step with
    | events invocation c => exact absurd rfl (other invocation c)
    | payments invocation c =>
      refine ⟨direct_terms wired success, fun steady => direct_status wired success ?_⟩
      rintro admin e status rfl
      cases steady
    | tickets => exact ⟨rfl, fun _ => rfl⟩
    | mint t dst amount => exact (token (.mint t dst amount) nofun).imp_right fun same _ => same
    | pay t src dst amount => exact (token (.pay t src dst amount) nofun).imp_right fun same _ => same
  · rw [next_failed success]
    exact ⟨rfl, fun _ => rfl⟩

end Direct

section Status

theorem Charges.steady {nonce : ℕ} {payer : Address} {price amount : ℤ}
    {emailHash : Option (BytesN 32)} {charge : List Message}
    (charges : Charges env nonce payer e price amount emailHash charge) :
    ∀ m ∈ charge, m.Steady := by
  obtain ⟨-, rfl⟩ | ⟨-, -, token, rfl⟩ := charges
  · simp
  · simp [Message.Steady, Message.entries, Payments.Call.entries]

/-- Only a cancellation, a postponement and its end push a status. -/
def pushesStatus : Call → Bool
  | .cancelEvent .. | .postponeEvent .. | .finalizePostponement .. => true
  | _ => false

theorem Effect.steady {ms : List Message} {c : Call} (effect : Effect env w w' ms c)
    (silent : pushesStatus c = false) : ∀ m ∈ ms, m.Steady := by
  have charges := @Charges.steady env
  cases c <;> simp only [Effect, pushesStatus, reduceCtorEq] at effect silent <;>
    grind [Message.Steady, Message.entries, Payments.Call.entries]

/-- The status that the payments contract has of an event. Nothing tells it that sales
opened or that the event is over. -/
def Followed : Option EventStatus → Option Payments.EventStatus → Prop
  | none, kept | some .upcoming, kept => kept = none
  | some .active, kept | some .completed, kept => kept = none ∨ kept = some .active
  | some .postponed, kept => kept = some .postponed
  | some .cancelled, kept => kept = some .cancelled

def statusOf (w : World) (e : Symbol) : Option EventStatus := (outline w e).map (·.status)

theorem statusOf_eq (w : World) (e : Symbol) :
    statusOf w e = (w.get (.event e)).map (·.status) :=
  Option.map_map ..

def Tracks (w : World) : Prop :=
  ∀ e, Followed (statusOf w e) (w.outside.payments.book.status e)

theorem statusOf_write {o : Outline}
    (write : outline w' = Function.update (outline w) e (some o)) :
    statusOf w' = Function.update (statusOf w) e (some o.status) := by
  funext e'
  unfold statusOf
  rw [write]
  by_cases same : e' = e
  · subst same
    simp
  · simp [same]

theorem statusOf_keep {o o' : Outline} (stored : outline w e = some o)
    (write : outline w' = Function.update (outline w) e (some o')) (like : o'.status = o.status) :
    statusOf w' = statusOf w := by
  have before : statusOf w e = some o.status := congrArg (Option.map _) stored
  rw [statusOf_write write, like, ← before, Function.update_eq_self]

theorem Tracks.keep (tracks : Tracks w) (statuses : statusOf w' = statusOf w)
    (status : w'.outside.payments.book.status = w.outside.payments.book.status) : Tracks w' := by
  intro e
  rw [statuses, status]
  exact tracks e

theorem Tracks.write (tracks : Tracks w) {new : EventStatus} {kept : Option Payments.EventStatus}
    (statuses : statusOf w' = Function.update (statusOf w) e (some new))
    (status : w'.outside.payments.book.status =
      Function.update w.outside.payments.book.status e kept)
    (followed : Followed (some new) kept) : Tracks w' := by
  intro e'
  rw [statuses, status]
  by_cases same : e' = e
  · subst same
    rw [Function.update_self, Function.update_self]
    exact followed
  · rw [Function.update_of_ne same, Function.update_of_ne same]
    exact tracks e'

theorem Tracks.write_silent (tracks : Tracks w) {new : EventStatus}
    (statuses : statusOf w' = Function.update (statusOf w) e (some new))
    (status : w'.outside.payments.book.status = w.outside.payments.book.status)
    (followed : Followed (some new) (w.outside.payments.book.status e)) : Tracks w' :=
  tracks.write statuses (status.trans (Function.update_eq_self e _).symm) followed

theorem effect_tracks {ms : List Message} {c : Call} (kept : w.outside.payments.book.Kept)
    (tracks : Tracks w) (effect : Effect env w w' ms c)
    (sent : links.Delivered env w.outside ms w'.outside) : Tracks w' := by
  have silent (silent : pushesStatus c = false) :=
    delivered_status kept (effect.steady silent) sent
  cases c with
  | initialise =>
    have same : outline w' = outline w := effect.1
    exact tracks.keep (by unfold statusOf; rw [same]) (silent rfl)
  | createEvent params =>
    obtain ⟨o, absent, status, -, ⟨write, -⟩, -⟩ := effect
    have before : Followed (statusOf w params.eventId) _ := tracks params.eventId
    rw [statusOf, absent] at before
    have statuses := statusOf_write write
    rw [status] at statuses
    exact tracks.write_silent statuses (silent rfl) before
  | updateEventDetails params =>
    obtain ⟨o, terms, stored, -, -, -, ⟨write, -⟩, -⟩ := effect
    exact tracks.keep (statusOf_keep stored write rfl) (silent rfl)
  | addTicketTier =>
    obtain ⟨o, stored, -, -, ⟨write, -⟩, -⟩ := effect
    exact tracks.keep (statusOf_keep stored write rfl) (silent rfl)
  | updateTier =>
    obtain ⟨o, event, index, tier, maxSupply, -, -, stored, -, -, ⟨write, -⟩, -⟩ := effect
    exact tracks.keep (statusOf_keep stored write rfl) (silent rfl)
  | updateEventStatus organizer e newStatus =>
    obtain ⟨o, stored, transition, ⟨write, -⟩, -⟩ := effect
    have before : Followed (statusOf w e) _ := tracks e
    rw [statusOf, stored, Option.map_some] at before
    refine tracks.write_silent (statusOf_write write) (silent rfl) ?_
    -- sales open, or the event is over: either way nothing is pushed
    obtain ⟨upcoming, rfl⟩ | ⟨active, rfl⟩ := transition
    · rw [upcoming] at before
      exact .inl before
    · rw [active] at before
      exact before
  | cancelEvent organizer e =>
    obtain ⟨o, -, -, -, ⟨write, -⟩, rfl⟩ := effect
    obtain ⟨payments, called, pushed⟩ :=
      Links.deliver_payments.mp (Links.delivered_singleton.mp sent)
    obtain ⟨-, -, -, -, -, status, -⟩ := Payments.cancelEvent_ok called
    refine tracks.write (statusOf_write write) ?_ rfl
    rw [pushed]
    exact status
  | postponeEvent organizer e =>
    obtain ⟨o, -, -, ⟨write, -⟩, rfl⟩ := effect
    obtain ⟨payments, called, pushed⟩ :=
      Links.deliver_payments.mp (Links.delivered_singleton.mp sent)
    obtain ⟨-, -, -, status⟩ := Payments.postponeEvent_ok called
    refine tracks.write (statusOf_write write) ?_ rfl
    rw [pushed]
    exact status
  | finalizePostponement organizer e =>
    obtain ⟨o, terms, -, -, ⟨write, -⟩, rfl⟩ := effect
    obtain ⟨next, synced, resumed⟩ := sent
    obtain ⟨payments, called, rfl⟩ := Links.deliver_payments.mp synced
    obtain ⟨-, -, -, same⟩ := Payments.syncEventConfig_ok called
    obtain ⟨payments', called', pushed⟩ :=
      Links.deliver_payments.mp (Links.delivered_singleton.mp resumed)
    obtain ⟨-, -, -, status⟩ := Payments.resumeEvent_ok called'
    refine tracks.write (statusOf_write write) ?_ (.inr rfl)
    rw [pushed, ← same]
    exact status
  | _ =>
    have same : outline w' = outline w := effect.1.1
    exact tracks.keep (by unfold statusOf; rw [same]) (silent rfl)

theorem next_tracks {step : Step} (wired : Wired links w) (tracks : Tracks w)
    (steady : step.setsStatus = false) : Tracks (links.next w step) := by
  by_cases success : links.succeeds w step = true
  · by_cases calls : ∃ invocation c, step = .events invocation c
    · obtain ⟨invocation, c, rfl⟩ := calls
      obtain ⟨ms, effect, sent⟩ := wired.events success
      exact effect_tracks wired.outside.book tracks effect sent
    · have other : ∀ invocation c, step ≠ .events invocation c :=
        fun invocation c same => calls ⟨invocation, c, same⟩
      have same : statusOf (links.next w step) = statusOf w := by
        unfold statusOf
        rw [next_outline other]
      exact tracks.keep same ((next_pushed wired other).2 steady)
  · rw [next_failed success]
    exact tracks

theorem Effect.completes {ms : List Message} {c : Call} (effect : Effect env w w' ms c)
    (finished : statusOf w' e = some .completed) :
    statusOf w e = some .completed ∨ ∃ organizer, c = .updateEventStatus organizer e .completed := by
  have same (outlines : outline w' = outline w) : statusOf w e = some .completed := by
    unfold statusOf at finished ⊢
    rwa [← outlines]
  have keep {e₀ : Symbol} {o o' : Outline} (stored : outline w e₀ = some o)
      (write : outline w' = Function.update (outline w) e₀ (some o')) (like : o'.status = o.status) :
      statusOf w e = some .completed := by
    rwa [← statusOf_keep stored write like]
  have write {e₀ : Symbol} {o : Outline}
      (write : outline w' = Function.update (outline w) e₀ (some o)) :
      statusOf w e = some .completed ∨ (e = e₀ ∧ o.status = .completed) := by
    rw [statusOf_write write] at finished
    obtain ⟨rfl, status⟩ | ⟨-, before⟩ := update_eq_some.mp finished
    · exact .inr ⟨rfl, status⟩
    · exact .inl before
  cases c with
  | initialise => exact .inl (same effect.1)
  | createEvent params =>
    obtain ⟨o, -, status, -, ⟨written, -⟩, -⟩ := effect
    refine (write written).imp_right fun ⟨_, completed⟩ => ?_
    rw [status] at completed
    cases completed
  | updateEventDetails params =>
    obtain ⟨o, terms, stored, -, -, -, ⟨written, -⟩, -⟩ := effect
    exact .inl (keep stored written rfl)
  | addTicketTier =>
    obtain ⟨o, stored, -, -, ⟨written, -⟩, -⟩ := effect
    exact .inl (keep stored written rfl)
  | updateTier =>
    obtain ⟨o, event, index, tier, maxSupply, -, -, stored, -, -, ⟨written, -⟩, -⟩ := effect
    exact .inl (keep stored written rfl)
  | updateEventStatus organizer e₀ newStatus =>
    obtain ⟨o, -, -, ⟨written, -⟩, -⟩ := effect
    exact (write written).imp_right fun ⟨here, completed⟩ =>
      ⟨organizer, congrArg₂ (Call.updateEventStatus organizer) here.symm completed⟩
  | cancelEvent =>
    obtain ⟨o, -, -, -, ⟨written, -⟩, -⟩ := effect
    exact (write written).imp_right nofun
  | postponeEvent =>
    obtain ⟨o, -, -, ⟨written, -⟩, -⟩ := effect
    exact (write written).imp_right nofun
  | finalizePostponement =>
    obtain ⟨o, terms, -, -, ⟨written, -⟩, -⟩ := effect
    exact (write written).imp_right nofun
  | _ => exact .inl (same effect.1.1)

theorem opened_tracks (links : Links) (setup : Setup) : Tracks (links.opened setup) :=
  fun _ => rfl

end Status

section Sales

variable {nonce : ℕ} {payer : Address} {price amount : ℤ} {emailHash : Option (BytesN 32)}
  {charge : List Message} {t : Tickets.Call}

/-- A registration is one payment, unless it is free, and then the minting. -/
theorem sale_delivered (charges : Charges env nonce payer e price amount emailHash charge)
    (sent : links.Delivered env s (charge ++ [.tickets t]) s') :
    ((price ≤ 0 ∧ s'.payments = s.payments) ∨ (0 < price ∧ ∃ token,
      Payments.Call.exec (Links.calling env links.payments) s.payments
        (.payForTicket nonce payer e amount emailHash token .standard none none) =
          .ok s'.payments)) ∧
      t.exec (Links.calling env links.tickets) s.tickets = .ok s'.tickets := by
  obtain ⟨next, paid, minted⟩ := Links.delivered_append.mp sent
  obtain ⟨tickets, called, rfl⟩ := Links.deliver_tickets.mp (Links.delivered_singleton.mp minted)
  obtain ⟨free, rfl⟩ | ⟨priced, -, token, rfl⟩ := charges
  · cases paid
    exact ⟨.inl ⟨free, rfl⟩, called⟩
  · obtain ⟨payments, taken, rfl⟩ := Links.deliver_payments.mp (Links.delivered_singleton.mp paid)
    exact ⟨.inr ⟨priced, token, taken⟩, called⟩

def registers : Call → Bool
  | .registerForEvent .. | .batchRegisterForEvent .. => true
  | _ => false

theorem Effect.unsold {ms : List Message} {c : Call} (effect : Effect env w w' ms c)
    (free : registers c = false) : ∀ m ∈ ms, m.sells = false := by
  cases c <;> simp only [Effect, registers, reduceCtorEq] at effect free <;>
    grind [Message.sells, Message.entries, Payments.Call.entries]

theorem effect_sold {ms : List Message} {c : Call} (kept : w.outside.payments.book.Kept)
    (effect : Effect env w w' ms c) (sent : links.Delivered env w.outside ms w'.outside) {id : ℕ}
    {p : Payments.PaymentRecord} (absent : w.outside.payments.book.payment id = none)
    (stored : w'.outside.payments.book.payment id = some p) :
    statusOf w p.eventId = some .active := by
  have sold {e : Symbol} {o : Outline} {price amount : ℤ} {nonce : ℕ} {payer : Address}
      {emailHash : Option (BytesN 32)} {charge : List Message} {t : Tickets.Call}
      (present : outline w e = some o) (active : o.status = .active)
      (charges : Charges env nonce payer e price amount emailHash charge)
      (sent : links.Delivered env w.outside (charge ++ [.tickets t]) w'.outside) :
      statusOf w p.eventId = some .active := by
    obtain ⟨⟨-, same⟩ | ⟨-, token, paid⟩, -⟩ := sale_delivered charges sent
    · rw [same, absent] at stored
      cases stored
    · obtain ⟨-, new⟩ := Payments.payForTicket_sold kept paid
      rw [new id absent p stored, statusOf, present, Option.map_some, active]
  have unsold (free : registers c = false) : statusOf w p.eventId = some .active := by
    rw [delivered_unsold kept (effect.unsold free) sent absent] at stored
    cases stored
  cases c with
  | registerForEvent nonce a e tierId emailHash =>
    obtain ⟨-, o, price, charge, present, active, -, charges, rfl⟩ := effect
    exact sold present active charges sent
  | batchRegisterForEvent nonce a e tierId count emailHash =>
    obtain ⟨-, o, price, amount, charge, present, active, -, -, charges, rfl⟩ := effect
    exact sold present active charges sent
  | _ => exact unsold rfl

end Sales

section Terms

variable {R : EventTerms → EventTerms → Prop}

/-- The payments contract has terms of every event, and they match the event's own. -/
def Matches (R : EventTerms → EventTerms → Prop) (w : World) : Prop :=
  ∀ e o, outline w e = some o →
    ∃ terms, w.outside.payments.book.terms e = some terms ∧ R terms o.terms

def UpToSupply (kept terms : EventTerms) : Prop :=
  { kept with maxSupply := terms.maxSupply } = terms

theorem Matches.keep (matches_ : Matches R w) (outlines : outline w' = outline w)
    (terms : w'.outside.payments.book.terms = w.outside.payments.book.terms) : Matches R w' := by
  intro e o stored
  rw [outlines] at stored
  rw [terms]
  exact matches_ e o stored

theorem Matches.write (matches_ : Matches R w) {o : Outline} {kept : EventTerms}
    (outlines : outline w' = Function.update (outline w) e (some o))
    (terms : w'.outside.payments.book.terms =
      Function.update w.outside.payments.book.terms e (some kept))
    (like : R kept o.terms) : Matches R w' := by
  intro e' o' stored
  rw [outlines] at stored
  rw [terms]
  obtain ⟨rfl, rfl⟩ | ⟨other, stored⟩ := update_eq_some.mp stored
  · exact ⟨kept, Function.update_self .., like⟩
  · rw [Function.update_of_ne other]
    exact matches_ e' o' stored

theorem Matches.edit (matches_ : Matches R w) {o o' : Outline} (stored : outline w e = some o)
    (outlines : outline w' = Function.update (outline w) e (some o'))
    (terms : w'.outside.payments.book.terms = w.outside.payments.book.terms)
    (like : ∀ kept, R kept o.terms → R kept o'.terms) : Matches R w' := by
  obtain ⟨kept, copied, same⟩ := matches_ e o stored
  refine matches_.write outlines ?_ (like kept same)
  rw [terms, ← copied, Function.update_eq_self]

/-- The supply changed and was not pushed: the terms agree no longer. -/
theorem Matches.drift (matches_ : Matches Eq w) {o : Outline} {maxSupply : ℕ}
    (stored : outline w e = some o)
    (outlines : outline w' = Function.update (outline w) e
      (some { o with terms := { o.terms with maxSupply } }))
    (terms : w'.outside.payments.book.terms = w.outside.payments.book.terms) :
    Matches Eq w' ↔ maxSupply = o.terms.maxSupply := by
  constructor
  · intro agree
    obtain ⟨kept, copied, rfl⟩ := matches_ e o stored
    obtain ⟨kept', copied', rfl⟩ := agree e _ (by rw [outlines, Function.update_self])
    rw [terms, copied] at copied'
    exact congrArg EventTerms.maxSupply (Option.some.inj copied').symm
  · rintro rfl
    exact matches_.edit stored outlines terms fun _ same => same

theorem synced_terms {contract : Address} {terms : EventTerms} {more : List Message}
    (kept : s.payments.book.Kept)
    (quiet : ∀ contract e terms, .payments (.syncEventConfig contract e terms) ∉ more)
    (sent : links.Delivered env s (.payments (.syncEventConfig contract e terms) :: more) s') :
    s'.payments.book.terms = Function.update s.payments.book.terms e (some terms) := by
  obtain ⟨next, synced, rest⟩ := sent
  obtain ⟨payments, called, rfl⟩ := Links.deliver_payments.mp synced
  obtain ⟨-, -, written, -⟩ := Payments.syncEventConfig_ok called
  exact (delivered_terms (Payments.exec_kept kept called) quiet rest).trans written

/-- A new event, its details and a new date are pushed; its tiers are not. -/
def pushesTerms : Call → Bool
  | .createEvent .. | .updateEventDetails .. | .finalizePostponement .. => true
  | _ => false

def editsTiers : Call → Bool
  | .addTicketTier .. | .updateTier .. => true
  | _ => false

theorem Effect.quiet {ms : List Message} {c : Call} (effect : Effect env w w' ms c)
    (silent : pushesTerms c = false) :
    ∀ contract e terms, .payments (.syncEventConfig contract e terms) ∉ ms := by
  have charges {nonce : ℕ} {payer : Address} {e : Symbol} {price amount : ℤ}
      {emailHash : Option (BytesN 32)} {charge : List Message}
      (h : Charges env nonce payer e price amount emailHash charge) :
      ∀ contract e terms, .payments (.syncEventConfig contract e terms) ∉ charge := by
    obtain ⟨-, rfl⟩ | ⟨-, -, token, rfl⟩ := h <;> simp
  cases c <;> simp only [Effect, pushesTerms, reduceCtorEq] at effect silent <;> grind

theorem effect_matches {ms : List Message} {c : Call} (kept : w.outside.payments.book.Kept)
    (refl : ∀ terms, R terms terms) (matches_ : Matches R w) (effect : Effect env w w' ms c)
    (sent : links.Delivered env w.outside ms w'.outside) (edits : editsTiers c = false) :
    Matches R w' := by
  have silent (silent : pushesTerms c = false) := delivered_terms kept (effect.quiet silent) sent
  cases c with
  | initialise => exact matches_.keep effect.1 (silent rfl)
  | createEvent params =>
    obtain ⟨o, -, -, -, ⟨write, -⟩, more, splits, rfl⟩ := effect
    refine matches_.write write (synced_terms kept ?_ sent) (refl _)
    obtain rfl | ⟨splits, rfl⟩ := splits <;> simp
  | updateEventDetails params =>
    obtain ⟨o, terms, -, -, -, -, ⟨write, -⟩, rfl⟩ := effect
    exact matches_.write write (synced_terms kept (by simp) sent) (refl _)
  | addTicketTier | updateTier => cases edits
  | updateEventStatus =>
    obtain ⟨o, stored, -, ⟨write, -⟩, -⟩ := effect
    exact matches_.edit stored write (silent rfl) fun _ same => same
  | cancelEvent =>
    obtain ⟨o, stored, -, -, ⟨write, -⟩, -⟩ := effect
    exact matches_.edit stored write (silent rfl) fun _ same => same
  | postponeEvent =>
    obtain ⟨o, stored, -, ⟨write, -⟩, -⟩ := effect
    exact matches_.edit stored write (silent rfl) fun _ same => same
  | finalizePostponement organizer e =>
    obtain ⟨o, terms, -, -, ⟨write, -⟩, rfl⟩ := effect
    exact matches_.write write (synced_terms kept (by simp) sent) (refl _)
  | _ => exact matches_.keep effect.1.1 (silent rfl)

def Step.editsTiers : Step → Bool
  | .events _ c => Linked.editsTiers c
  | _ => false

/-- Every step but an edit of the tiers keeps the terms as they match. -/
theorem next_matches {step : Step} (wired : Wired links w) (refl : ∀ terms, R terms terms)
    (matches_ : Matches R w)
    (edits : step.editsTiers = false) : Matches R (links.next w step) := by
  by_cases success : links.succeeds w step = true
  · by_cases calls : ∃ invocation c, step = .events invocation c
    · obtain ⟨invocation, c, rfl⟩ := calls
      obtain ⟨ms, effect, sent⟩ := wired.events success
      exact effect_matches wired.outside.book refl matches_ effect sent edits
    · have other : ∀ invocation c, step ≠ .events invocation c :=
        fun invocation c same => calls ⟨invocation, c, same⟩
      exact matches_.keep (next_outline other) (next_pushed wired other).1
  · rw [next_failed success]
    exact matches_

/-- In every state the payments contract has the terms of every event, up to the supply. -/
theorem next_copies {step : Step} (wired : Wired links w) (copies : Matches UpToSupply w) :
    Matches UpToSupply (links.next w step) := by
  have resized {kept terms : EventTerms} {maxSupply : ℕ} (same : UpToSupply kept terms) :
      UpToSupply kept { terms with maxSupply } := by
    have rewritten := congrArg (fun terms : EventTerms => { terms with maxSupply }) same
    exact rewritten
  have refl : ∀ terms, UpToSupply terms terms := fun _ => rfl
  cases step with
  | events invocation c =>
    by_cases success : links.succeeds w (.events invocation c) = true
    · obtain ⟨ms, effect, sent⟩ := wired.events success
      have silent (silent : pushesTerms c = false) :=
        delivered_terms wired.outside.book (effect.quiet silent) sent
      cases c with
      | addTicketTier =>
        obtain ⟨o, stored, -, -, ⟨write, -⟩, -⟩ := effect
        exact copies.edit stored write (silent rfl) fun _ => resized
      | updateTier =>
        obtain ⟨o, event, index, tier, maxSupply, -, -, stored, -, -, ⟨write, -⟩, -⟩ := effect
        exact copies.edit stored write (silent rfl) fun _ => resized
      | _ => exact next_matches wired refl copies rfl
    · rw [next_failed success]
      exact copies
  | _ => exact next_matches wired refl copies rfl

theorem opened_copies (links : Links) (setup : Setup) : Matches UpToSupply (links.opened setup) :=
  nofun

end Terms

end Zicket.Linked
