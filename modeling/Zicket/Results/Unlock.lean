import Zicket.Lifecycle.Steps
import Zicket.Linked.Agreement

/-! The ledger from which an event's revenue may be drawn: the end that the event contract
pushed, the delay it pushed and the extensions of the payments contract's admin. None of the
three operations that set them looks at the sum. -/

namespace Zicket.Payments

open Host Foundation

def EventConfig.unlockLedger (c : EventConfig) : ℕ :=
  c.eventEndLedger + c.withdrawalDelayLedgers + c.adminDelayExtensionLedgers

variable {env : Env} {w : World} {e : Symbol}

theorem withdrawableRatio_completed (completed : w.getEventStatus e = some .completed)
    (env : Env) (config : EventConfig) :
    withdrawableRatio env w e config =
      if config.unlockLedger ≤ u32Max then
        if config.unlockLedger ≤ env.sequence then .ok 10000 else fail .escrowNotExpired
      else .error .trap := by
  unfold withdrawableRatio
  rw [completed]
  unfold EventConfig.unlockLedger
  have largest : u32Max + 1 = 2 ^ 32 := rfl
  change (u32 (config.eventEndLedger + config.withdrawalDelayLedgers) >>= _) = _
  by_cases first : config.eventEndLedger + config.withdrawalDelayLedgers < 2 ^ 32
  · rw [u32, if_pos first]
    change (u32 (config.eventEndLedger + config.withdrawalDelayLedgers +
      config.adminDelayExtensionLedgers) >>= _) = _
    by_cases second : config.eventEndLedger + config.withdrawalDelayLedgers +
        config.adminDelayExtensionLedgers < 2 ^ 32
    · rw [u32, if_pos second, if_pos (by omega)]
      change (require (_ ≤ env.sequence) _ >>= _) = _
      unfold require ensure
      split <;> rfl
    · rw [u32, if_neg second, if_neg (by omega)]
      rfl
  · rw [u32, if_neg first, if_neg (by omega)]
    rfl

end Zicket.Payments

namespace Zicket.Linked

open Host Foundation Events

variable {links : Links} {env : Env} {w w' : World} {s s' : Outside} {e : Symbol} {step : Step}

section Due

/-- From when the event would be paid out, without an extension. -/
def due (w : World) (e : Symbol) : Option ℕ :=
  (outline w e).map fun o => o.terms.eventEndLedger + o.terms.withdrawalDelayLedgers

theorem due_of_event {event : Event} (stored : w.roster.event e = some event) :
    due w e = some (event.eventEndLedger + event.withdrawalDelayLedgers) := by
  rw [due, outline_of_event stored]
  rfl

theorem due_write {o : Outline} (write : outline w' = Function.update (outline w) e (some o)) :
    due w' = Function.update (due w) e
      (some (o.terms.eventEndLedger + o.terms.withdrawalDelayLedgers)) := by
  funext e'
  unfold due
  rw [write]
  by_cases same : e' = e
  · subst same
    simp
  · simp [same]

theorem due_keep {o o' : Outline} (stored : outline w e = some o)
    (write : outline w' = Function.update (outline w) e (some o'))
    (stop : o'.terms.eventEndLedger = o.terms.eventEndLedger)
    (delay : o'.terms.withdrawalDelayLedgers = o.terms.withdrawalDelayLedgers) : due w' = due w := by
  have before : due w e = some (o.terms.eventEndLedger + o.terms.withdrawalDelayLedgers) :=
    congrArg (Option.map _) stored
  rw [due_write write, stop, delay, ← before, Function.update_eq_self]

theorem Effect.due {ms : List Message} {c : Call} (effect : Effect env w w' ms c)
    (silent : pushesTerms c = false) : due w' = due w := by
  have same (outlines : outline w' = outline w) : Linked.due w' = Linked.due w := by
    unfold Linked.due
    rw [outlines]
  cases c with
  | createEvent | updateEventDetails | finalizePostponement => cases silent
  | initialise => exact same effect.1
  | addTicketTier =>
    obtain ⟨o, stored, -, -, ⟨write, -⟩, -⟩ := effect
    exact due_keep stored write rfl rfl
  | updateTier =>
    obtain ⟨o, event, index, tier, maxSupply, -, -, stored, -, -, ⟨write, -⟩, -⟩ := effect
    exact due_keep stored write rfl rfl
  | updateEventStatus =>
    obtain ⟨o, stored, -, ⟨write, -⟩, -⟩ := effect
    exact due_keep stored write rfl rfl
  | cancelEvent =>
    obtain ⟨o, stored, -, -, ⟨write, -⟩, -⟩ := effect
    exact due_keep stored write rfl rfl
  | postponeEvent =>
    obtain ⟨o, stored, -, ⟨write, -⟩, -⟩ := effect
    exact due_keep stored write rfl rfl
  | _ => exact same effect.1.1

theorem applyOption_keeps {α β : Type} {f : Event → β} {option : Option α}
    {check : α → Events.Attempt Unit} {change : Event → α → Event} {event edited : Event}
    (keeps : ∀ event value, f (change event value) = f event)
    (h : applyOption option check change event = .ok edited) : f edited = f event := by
  unfold applyOption at h
  cases option with
  | none =>
    cases h
    rfl
  | some value =>
    simp only [bind_eq_ok, pure_eq_ok] at h
    obtain ⟨-, -, rfl⟩ := h
    exact keeps event value

theorem editEvent_delay {params : UpdateEventParams} {event edited : Event}
    (h : editEvent env params event = .ok edited) :
    edited.withdrawalDelayLedgers = event.withdrawalDelayLedgers := by
  simp only [editEvent, bind_eq_ok] at h
  obtain ⟨_, h₁, _, h₂, _, h₃, _, h₄, _, h₅, _, h₆, _, h₇, _, h₈, _, h₉, h₁₀⟩ := h
  have keeps {first second : Event} {α : Type} {option : Option α} {check : α → Events.Attempt Unit}
      {change : Event → α → Event} (applied : applyOption option check change first = .ok second)
      (eq : ∀ (event : Event) value,
        (change event value).withdrawalDelayLedgers = event.withdrawalDelayLedgers) :
      second.withdrawalDelayLedgers = first.withdrawalDelayLedgers :=
    applyOption_keeps (f := (·.withdrawalDelayLedgers)) eq applied
  rw [keeps h₁₀, keeps h₉, keeps h₈, keeps h₇, keeps h₆, keeps h₅, keeps h₄, keeps h₃, keeps h₂,
    keeps h₁] <;> exact fun _ _ => rfl

theorem updateEventDetails_delay {params : UpdateEventParams} {event edited : Event}
    (stored : w.roster.event params.eventId = some event)
    (h : updateEventDetails links.network env params w = .ok (edited, w')) :
    edited.withdrawalDelayLedgers = event.withdrawalDelayLedgers := by
  simp only [updateEventDetails, bind_eq_ok, pure_eq_ok, ownEvent_ok] at h
  obtain ⟨-, -, event', ⟨stored', -⟩, -, -, _, edits, _, -, h⟩ := h
  cases h
  have same : some event' = some event := stored'.symm.trans stored
  cases same
  exact editEvent_delay edits

end Due

section Extension

variable {ms : List Message}

theorem delivered_extension (kept : s.payments.book.Kept)
    (unextended : ∀ admin e ledgers, .payments (.extendWithdrawalDelay admin e ledgers) ∉ ms)
    (sent : links.Delivered env s ms s') :
    s'.payments.book.extension = s.payments.book.extension := by
  refine delivered_book (I := fun b => b.extension = s.payments.book.extension) ?_ kept rfl sent
  intro c mem env w w' kept same called
  refine (Payments.exec_extension kept called fun admin e ledgers eq => ?_).trans same
  exact unextended admin e ledgers (eq ▸ mem)

theorem Effect.unextended {c : Call} (effect : Effect env w w' ms c) :
    ∀ admin e ledgers, .payments (.extendWithdrawalDelay admin e ledgers) ∉ ms := by
  have charges {nonce : ℕ} {payer : Address} {e : Symbol} {price amount : ℤ}
      {emailHash : Option (BytesN 32)} {charge : List Message}
      (h : Charges env nonce payer e price amount emailHash charge) :
      ∀ admin e ledgers, .payments (.extendWithdrawalDelay admin e ledgers) ∉ charge := by
    obtain ⟨-, rfl⟩ | ⟨-, -, token, rfl⟩ := h <;> simp
  cases c <;> simp only [Effect] at effect <;> grind

def extension (w : World) (e : Symbol) : ℕ := w.outside.payments.book.extension e

def unlock (w : World) (e : Symbol) : ℕ := (due w e).getD 0 + extension w e

theorem events_extension {invocation : Invocation} {c : Call} (wired : Wired links w)
    (success : links.succeeds w (.events invocation c) = true) :
    extension (links.next w (.events invocation c)) = extension w := by
  obtain ⟨ms, effect, sent⟩ := wired.events success
  exact delivered_extension wired.outside.book effect.unextended sent

theorem next_extension (wired : Wired links w)
    (unextended : ∀ invocation admin e ledgers,
      step ≠ .payments invocation (.extendWithdrawalDelay admin e ledgers)) :
    extension (links.next w step) = extension w := by
  by_cases success : links.succeeds w step = true
  · have token (step : Payments.Step) (token : ∀ invocation c, step ≠ .call invocation c) :
        (w.outside.payments.next links.paymentsAt step).book.extension =
          w.outside.payments.book.extension := by
      obtain ⟨-, same⟩ := token_book links.paymentsAt wired.outside.book step token
      have config := congrArg Payments.Terms.config same
      exact funext fun e => congrArg (fun stored : Option Payments.EventConfig =>
        stored.elim 0 (·.adminDelayExtensionLedgers)) (congrFun config e)
    cases step with
    | events invocation c => exact events_extension wired success
    | payments invocation c =>
      obtain ⟨payments, called, next⟩ := payments_next success
      rw [next]
      exact Payments.exec_extension wired.outside.book called
        fun admin e ledgers same => unextended invocation admin e ledgers (same ▸ rfl)
    | tickets => rfl
    | mint t dst amount => exact token (.mint t dst amount) nofun
    | pay t src dst amount => exact token (.pay t src dst amount) nofun
  · rw [next_failed success]

end Extension

section Announced

def Announced (w : World) : Prop :=
  ∀ e, outline w e = none → w.outside.payments.book.terms e = none

theorem Announced.write (announced : Announced w) {o : Outline} {kept : Payments.EventTerms}
    (outlines : outline w' = Function.update (outline w) e (some o))
    (terms : w'.outside.payments.book.terms =
      Function.update w.outside.payments.book.terms e (some kept)) : Announced w' := by
  intro e' absent
  rw [outlines] at absent
  rw [terms]
  by_cases same : e' = e
  · subst same
    rw [Function.update_self] at absent
    cases absent
  · rw [Function.update_of_ne same] at absent ⊢
    exact announced e' absent

theorem exec_outline {c : Call} (h : c.exec links.network env w = .ok w')
    (absent : outline w' e = none) : outline w e = none := by
  have gone : w'.roster.event e = none := Option.map_eq_none_iff.mp absent
  cases stored : w.roster.event e with
  | none => exact outline_eq_none stored
  | some event =>
    have present : (w.life e).stage = some event.stage := Roster.stage_of_event stored
    obtain ⟨stage, there, -⟩ := (exec_turn h e).present present
    have missing : (w'.life e).stage = none := congrArg (Option.map Event.stage) gone
    rw [missing] at there
    cases there

theorem next_announced (wired : Wired links w) (announced : Announced w) :
    Announced (links.next w step) := by
  by_cases success : links.succeeds w step = true
  · by_cases calls : ∃ invocation c, step = .events invocation c
    · obtain ⟨invocation, c, rfl⟩ := calls
      obtain ⟨ms, effect, sent⟩ := wired.events success
      obtain ⟨w', result⟩ := events_succeeds.mp success
      rw [next_events_ok result] at effect sent ⊢
      cases pushes : pushesTerms c with
      | false =>
        intro e absent
        rw [delivered_terms wired.outside.book (effect.quiet pushes) sent]
        exact announced e (exec_outline result absent)
      | true =>
        cases c with
        | createEvent params =>
          obtain ⟨o, -, -, -, ⟨write, -⟩, more, splits, rfl⟩ := effect
          refine announced.write write (synced_terms wired.outside.book ?_ sent)
          obtain rfl | ⟨splits, rfl⟩ := splits <;> simp
        | updateEventDetails params =>
          obtain ⟨o, terms, -, -, -, -, ⟨write, -⟩, rfl⟩ := effect
          exact announced.write write (synced_terms wired.outside.book (by simp) sent)
        | finalizePostponement =>
          obtain ⟨o, terms, -, -, ⟨write, -⟩, rfl⟩ := effect
          exact announced.write write (synced_terms wired.outside.book (by simp) sent)
        | _ => cases pushes
    · have other : ∀ invocation c, step ≠ .events invocation c :=
        fun invocation c same => calls ⟨invocation, c, same⟩
      intro e absent
      rw [next_outline other] at absent
      rw [(next_pushed wired other).1]
      exact announced e absent
  · rw [next_failed success]
    exact announced

theorem Announced.extension (announced : Announced w) (absent : outline w e = none) :
    extension w e = 0 := by
  have config : w.outside.payments.book.config e = none :=
    Option.map_eq_none_iff.mp (announced e absent)
  rw [Linked.extension, Payments.Book.extension, config]
  rfl

end Announced

section Steps

/-- What the event's payout waits for fits the ledger numbers: the timing check never aborts,
and some ledger passes it. -/
def Unlocks (w : World) (e : Symbol) : Prop :=
  ∀ event, w.get (.event e) = some event →
    ∃ config, w.outside.payments.getEventConfig e = some config ∧
      config.unlockLedger ≤ u32Max ∧
      (w.outside.payments.getEventStatus e = some .completed →
        (∀ env, Payments.withdrawableRatio env w.outside.payments e config ≠ .error .trap) ∧
        ∃ ledger ≤ u32Max, ∀ env : Env, ledger ≤ env.sequence →
          Payments.withdrawableRatio env w.outside.payments e config = .ok 10000)

/-- The three operations that move the ledger keep it in range. -/
def LedgersFit (links : Links) (w : World) (step : Step) : Prop :=
  links.succeeds w step = true → match step with
  | .events _ (.createEvent params) =>
    params.eventEndLedger + params.withdrawalDelayLedgers ≤ u32Max
  | .events _ (.finalizePostponement _ e) =>
    ∀ event ∈ w.get (.event e), ∀ info ∈ w.getPostponement e,
      ∀ config ∈ w.outside.payments.getEventConfig e,
        info.newDateLedger + (event.eventEndLedger - event.eventStartLedger) +
          event.withdrawalDelayLedgers + config.adminDelayExtensionLedgers ≤ u32Max
  | .payments _ (.extendWithdrawalDelay _ e additionalLedgers) =>
    ∀ config ∈ w.outside.payments.getEventConfig e,
      config.eventEndLedger + config.withdrawalDelayLedgers + config.adminDelayExtensionLedgers +
        additionalLedgers ≤ u32Max
  | _ => True

instance (w : World) (step : Step) : Decidable (LedgersFit links w step) := by
  unfold LedgersFit
  split <;> infer_instance

/-- No event's payout waits for a ledger that does not exist. -/
def Computable (w : World) : Prop := ∀ e, outline w e ≠ none → unlock w e ≤ u32Max

theorem config_unlock (copies : Matches UpToSupply w) {o : Outline} (stored : outline w e = some o) :
    ∃ config, w.outside.payments.getEventConfig e = some config ∧
      config.eventEndLedger = o.terms.eventEndLedger ∧
      config.withdrawalDelayLedgers = o.terms.withdrawalDelayLedgers ∧
      config.adminDelayExtensionLedgers = extension w e ∧ config.unlockLedger = unlock w e := by
  obtain ⟨terms, copied, same⟩ := copies e o stored
  obtain ⟨config, kept, rfl⟩ := Option.map_eq_some_iff.mp copied
  have stop : config.eventEndLedger = o.terms.eventEndLedger :=
    congrArg (fun terms : Payments.EventTerms => terms.eventEndLedger) same
  have delay : config.withdrawalDelayLedgers = o.terms.withdrawalDelayLedgers :=
    congrArg (fun terms : Payments.EventTerms => terms.withdrawalDelayLedgers) same
  have added : extension w e = config.adminDelayExtensionLedgers := by
    rw [extension, Payments.Book.extension, kept]
    rfl
  refine ⟨config, kept, stop, delay, added.symm, ?_⟩
  rw [unlock, due, stored, added, Payments.EventConfig.unlockLedger, stop, delay]
  rfl

theorem unlocks_iff (copies : Matches UpToSupply w) : (∀ e, Unlocks w e) ↔ Computable w := by
  constructor
  · intro unlocks e present
    obtain ⟨o, stored⟩ := Option.ne_none_iff_exists'.mp present
    obtain ⟨event, there, -⟩ := Option.map_eq_some_iff.mp stored
    obtain ⟨config, kept, fits, -⟩ := unlocks e event there
    obtain ⟨config', kept', -, -, -, sum⟩ := config_unlock copies stored
    rw [kept] at kept'
    cases kept'
    exact sum ▸ fits
  · intro fits e event there
    have stored : outline w e = some (outlineOf event) := outline_of_event there
    obtain ⟨config, kept, -, -, -, sum⟩ := config_unlock copies stored
    have small : config.unlockLedger ≤ u32Max := sum ▸ fits e (by simp [stored])
    refine ⟨config, kept, small, fun completed => ⟨fun env => ?_, config.unlockLedger, small,
      fun env late => ?_⟩⟩
    · rw [Payments.withdrawableRatio_completed completed, if_pos small]
      split <;> simp [Payments.fail]
    · rw [Payments.withdrawableRatio_completed completed, if_pos small, if_pos late]

theorem opened_computable (links : Links) (setup : Setup) : Computable (links.opened setup) :=
  fun _ present => absurd rfl present

theorem opened_announced (links : Links) (setup : Setup) : Announced (links.opened setup) :=
  fun _ _ => rfl

theorem Computable.write (computable : Computable w) {n : ℕ}
    (dues : due w' = Function.update (due w) e (some n)) (added : extension w' = extension w) :
    Computable w' ↔ n + extension w e ≤ u32Max := by
  have known (e : Symbol) : outline w e ≠ none ↔ due w e ≠ none := by simp [due]
  have known' (e : Symbol) : outline w' e ≠ none ↔ due w' e ≠ none := by simp [due]
  have here : unlock w' e = n + extension w e := by
    rw [unlock, dues, Function.update_self, added]
    rfl
  constructor
  · intro fits
    rw [← here]
    refine fits e ((known' e).mpr ?_)
    rw [dues, Function.update_self]
    nofun
  · intro fits e' present
    by_cases same : e' = e
    · rw [same, here]
      exact fits
    · have before := (known' e').mp present
      rw [dues, Function.update_of_ne same] at before
      have there : unlock w' e' = unlock w e' := by
        rw [unlock, unlock, dues, Function.update_of_ne same, added]
      rw [there]
      exact computable e' ((known e').mpr before)

theorem Computable.keep (computable : Computable w) (dues : due w' = due w)
    (added : extension w' = extension w) : Computable w' := by
  intro e present
  have known (w : World) : outline w e ≠ none ↔ due w e ≠ none := by simp [due]
  rw [unlock, dues, added]
  exact computable e ((known w).mpr (dues ▸ (known w').mp present))

theorem events_computable_iff {invocation : Invocation} {c : Call} (wired : Wired links w)
    (copies : Matches UpToSupply w) (announced : Announced w) (computable : Computable w)
    (success : links.succeeds w (.events invocation c) = true) :
    Computable (links.next w (.events invocation c)) ↔
      LedgersFit links w (.events invocation c) := by
  have added := events_extension wired success
  obtain ⟨ms, effect, -⟩ := wired.events success
  obtain ⟨w', result⟩ := events_succeeds.mp success
  rw [next_events_ok result] at effect added ⊢
  cases c with
  | createEvent params =>
    simp only [Call.exec, bind_eq_ok, pure_eq_ok] at result
    obtain ⟨⟨event, w₁⟩, created, rfl⟩ := result
    obtain ⟨tiers, maxSupply, -, rfl, absent, roster, -⟩ := createEvent_spec created
    have dues := due_write (becomes_write roster).1
    rw [computable.write dues added, announced.extension (outline_eq_none absent)]
    exact ⟨fun fits _ => fits, fun fits => fits success⟩
  | updateEventDetails params =>
    simp only [Call.exec, bind_eq_ok, pure_eq_ok] at result
    obtain ⟨⟨edited, w₁⟩, updated, rfl⟩ := result
    obtain ⟨event, stored, -, same, roster, -⟩ := updateEventDetails_spec updated
    refine iff_of_true (computable.keep ?_ added) fun _ => trivial
    have sum : edited.terms.eventEndLedger + edited.terms.withdrawalDelayLedgers =
        event.eventEndLedger + event.withdrawalDelayLedgers :=
      congrArg₂ (· + ·) same.eventEndLedger (updateEventDetails_delay stored updated)
    rw [due_write (becomes_write roster).1, outlineOf, sum, ← due_of_event stored,
      Function.update_eq_self]
  | finalizePostponement organizer e =>
    obtain ⟨-, event, info, stored, -, known, -, roster⟩ := finalizePostponement_amends result
    have dues := due_write (becomes_write roster).1
    obtain ⟨config, kept, -, -, extended, -⟩ := config_unlock copies (outline_of_event stored)
    have stored : w.get (.event e) = some event := stored
    have known : w.getPostponement e = some info := known
    rw [computable.write dues added]
    have condition : LedgersFit links w (.events invocation (.finalizePostponement organizer e)) ↔
        info.newDateLedger + (event.eventEndLedger - event.eventStartLedger) +
          event.withdrawalDelayLedgers + config.adminDelayExtensionLedgers ≤ u32Max := by
      simp only [LedgersFit, success, stored, known, kept, forall_const, Option.mem_some_iff,
        forall_eq']
    rw [condition, extended]
    rfl
  | _ => exact iff_of_true (computable.keep (effect.due rfl) added) fun _ => trivial

theorem extended_computable_iff {invocation : Invocation} {admin : Address} {ledgers : ℕ}
    (copies : Matches UpToSupply w) (announced : Announced w) (computable : Computable w)
    (success : links.succeeds w
      (.payments invocation (.extendWithdrawalDelay admin e ledgers)) = true) :
    Computable (links.next w (.payments invocation (.extendWithdrawalDelay admin e ledgers))) ↔
      LedgersFit links w (.payments invocation (.extendWithdrawalDelay admin e ledgers)) := by
  obtain ⟨payments, called, next⟩ := payments_next success
  obtain ⟨config, stored, -, added⟩ := Payments.extendWithdrawalDelay_ok called
  have stored : w.outside.payments.getEventConfig e = some config := stored
  have present : outline w e ≠ none := by
    intro absent
    have unknown : w.outside.payments.getEventConfig e = none :=
      Option.map_eq_none_iff.mp (announced e absent)
    rw [unknown] at stored
    cases stored
  obtain ⟨o, written⟩ := Option.ne_none_iff_exists'.mp present
  obtain ⟨config', kept, -, -, extended, sum⟩ := config_unlock copies written
  rw [stored] at kept
  cases kept
  have condition :
      LedgersFit links w (.payments invocation (.extendWithdrawalDelay admin e ledgers)) ↔
        config.unlockLedger + ledgers ≤ u32Max := by
    simp only [LedgersFit, success, stored, forall_const, Option.mem_some_iff, forall_eq']
    exact Iff.rfl
  have moved (e' : Symbol) : unlock
      (links.next w (.payments invocation (.extendWithdrawalDelay admin e ledgers))) e' =
        unlock w e' + if e' = e then ledgers else 0 := by
    have same : extension
        (links.next w (.payments invocation (.extendWithdrawalDelay admin e ledgers))) =
          Function.update (extension w) e (config.adminDelayExtensionLedgers + ledgers) := by
      rw [next]
      exact added
    unfold unlock
    rw [same, extended]
    change (due w e').getD 0 + _ = _
    by_cases here : e' = e
    · subst here
      rw [Function.update_self, if_pos rfl]
      omega
    · rw [Function.update_of_ne here, if_neg here]
      omega
  rw [condition, sum]
  constructor
  · intro fits
    have here := fits e present
    rwa [moved, if_pos rfl] at here
  · intro fits e' present'
    rw [moved]
    by_cases here : e' = e
    · rw [here, if_pos rfl]
      exact fits
    · rw [if_neg here]
      exact computable e' present'

theorem next_computable_iff (wired : Wired links w) (copies : Matches UpToSupply w)
    (announced : Announced w) (computable : Computable w) :
    Computable (links.next w step) ↔ LedgersFit links w step := by
  by_cases success : links.succeeds w step = true
  · by_cases calls : ∃ invocation c, step = .events invocation c
    · obtain ⟨invocation, c, rfl⟩ := calls
      exact events_computable_iff wired copies announced computable success
    · have other : ∀ invocation c, step ≠ .events invocation c :=
        fun invocation c same => calls ⟨invocation, c, same⟩
      have dues : due (links.next w step) = due w := by
        unfold due
        rw [next_outline other]
      by_cases extends_ : ∃ invocation admin e ledgers,
          step = .payments invocation (.extendWithdrawalDelay admin e ledgers)
      · obtain ⟨invocation, admin, e, ledgers, rfl⟩ := extends_
        exact extended_computable_iff copies announced computable success
      · refine iff_of_true (computable.keep dues (next_extension wired ?_)) fun _ => ?_
        · exact fun invocation admin e ledgers same => extends_ ⟨invocation, admin, e, ledgers, same⟩
        · split
          · exact absurd rfl (other _ _)
          · exact absurd rfl (other _ _)
          · exact absurd ⟨_, _, _, _, rfl⟩ extends_
          · trivial
  · rw [next_failed success]
    exact iff_of_true computable fun succeeds => absurd succeeds success

end Steps

/-- The unlock ledger of every event can be computed, in every state, exactly as long as each
creation, each finalized postponement and each extension keeps it in range. -/
theorem unlock_computable_iff (links : Links) (setup : Setup) (steps : List Step)
    (linked : LinkedRun links setup steps) :
    (∀ before, before <+: steps → ∀ e, Unlocks (run links.next (links.opened setup) before) e) ↔
      Along links.next (LedgersFit links) (links.opened setup) steps := by
  have inv : ∀ (w : World) (step : Step),
      Wired links w ∧ Matches UpToSupply w ∧ Announced w → KeepsLinks links w step →
      Wired links (links.next w step) ∧ Matches UpToSupply (links.next w step) ∧
        Announced (links.next w step) :=
    fun w step inv keeps => ⟨next_wired inv.1 keeps, next_copies inv.1 inv.2.1,
      next_announced inv.1 inv.2.2⟩
  have base : Wired links (links.opened setup) ∧ Matches UpToSupply (links.opened setup) ∧
      Announced (links.opened setup) :=
    ⟨opened_wired links setup, opened_copies links setup, opened_announced links setup⟩
  have step : ∀ (w : World) (step : Step),
      Wired links w ∧ Matches UpToSupply w ∧ Announced w → KeepsLinks links w step → Computable w →
      (Computable (links.next w step) ∧ True ↔ LedgersFit links w step) :=
    fun w step inv _ computable => (and_iff_left trivial).trans
      (next_computable_iff inv.1 inv.2.1 inv.2.2 computable)
  rw [← prefixes_and_along_iff (P := fun _ _ => True) inv step linked base
    (opened_computable links setup)]
  refine Iff.trans ?_ (and_iff_left (along_of_forall (fun _ _ => trivial) _ _)).symm
  refine forall_congr' fun before => forall_congr' fun le => ?_
  obtain ⟨rest, rfl⟩ := le
  exact unlocks_iff (run_invariant inv (along_append.mp linked).1 base).2.1

/-- The sale opens, and the admin delays the payout twice. -/
theorem unlock_computable_iff_delayed :
    let steps := Sample.onSale ++
      [Sample.payments 3 (.extendWithdrawalDelay Sample.admin Sample.concert 1000),
        Sample.payments 4 (.extendWithdrawalDelay Sample.admin Sample.concert 2000)]
    ∀ before, before <+: steps →
      ∀ e, Unlocks (run Sample.links.next (Sample.links.opened Sample.setup) before) e :=
  (unlock_computable_iff Sample.links Sample.setup _ (by decide)).mpr (by decide)

namespace Sample

def endless : List Step :=
  [events 1 (.createEvent { params with eventEndLedger := 2 ^ 32 - 1 }),
    payments 2 (.setEventStatus admin concert .completed)]

end Sample

/-- Whoever asks for its revenue, and whenever: the call aborts. -/
theorem unlock_overflows :
    let w := run Sample.links.next (Sample.links.opened Sample.setup) Sample.endless
    LinkedRun Sample.links Sample.setup Sample.endless ∧
      (∃ config, w.outside.payments.getEventConfig Sample.concert = some config ∧
        ∀ env, Payments.withdrawableRatio env w.outside.payments Sample.concert config =
          .error .trap) ∧
      ¬ Unlocks w Sample.concert := by
  intro w
  obtain ⟨config, stored, sum⟩ := Option.map_eq_some_iff.mp
    (show (w.outside.payments.getEventConfig Sample.concert).map (·.unlockLedger) =
      some (2 ^ 32 + 99) by decide)
  obtain ⟨event, present⟩ := Option.isSome_iff_exists.mp
    (show (w.get (.event Sample.concert)).isSome = true by decide)
  have completed : w.outside.payments.getEventStatus Sample.concert = some .completed := by decide
  have large : ¬ config.unlockLedger ≤ u32Max := by
    rw [sum]
    decide
  refine ⟨by decide, ⟨config, stored, fun env => ?_⟩, fun unlocks => ?_⟩
  · rw [Payments.withdrawableRatio_completed completed, if_neg large]
  · obtain ⟨config', stored', fits, -⟩ := unlocks event present
    rw [stored] at stored'
    cases stored'
    exact large fits

end Zicket.Linked
