import Zicket.Linked.Agreement

/-! What the payments contract knows of the events, over whole runs of the linked
contracts: when its statuses are the event contract's, and when its terms are. -/

namespace Zicket.Linked

open Host Foundation Events

variable {links : Links} {w : World} {e : Symbol} {step : Step}

section Status

/-- An event that is over, cancelled or postponed is so in the payments contract. -/
def StatusAgrees (w : World) (e : Symbol) : Prop :=
  ∀ event, w.get (.event e) = some event → match event.status with
    | .completed => w.outside.payments.getEventStatus e = some .completed
    | .cancelled => w.outside.payments.getEventStatus e = some .cancelled
    | .postponed => w.outside.payments.getEventStatus e = some .postponed
    | .upcoming | .active => True

/-- `pay_for_ticket` succeeds for the event, called directly or by the event contract. -/
def PaysFor (links : Links) (w : World) (e : Symbol) : Step → Prop
  | .payments invocation (.payForTicket nonce payer e' amount emailHash token level nullifier key) =>
    e' = e ∧ links.succeeds w (.payments invocation
      (.payForTicket nonce payer e' amount emailHash token level nullifier key)) = true
  | .events invocation c => ∃ id p, w.outside.payments.book.payment id = none ∧
    (links.next w (.events invocation c)).outside.payments.book.payment id = some p ∧ p.eventId = e
  | _ => False

/-- Whatever is paid for the event is paid while it is active. -/
def PaysWhileActive (links : Links) (e : Symbol) (w : World) (step : Step) : Prop :=
  PaysFor links w e step → ∃ event, w.get (.event e) = some event ∧ event.status = .active

/-- The event is not completed, and nobody buys its tickets from the payments contract before
it is on sale. -/
def SoldInSeason (links : Links) (e : Symbol) (w : World) (step : Step) : Prop :=
  links.succeeds w step = true → match step with
  | .events _ (.updateEventStatus _ e' newStatus) => e' = e → newStatus ≠ .completed
  | .payments _ (.payForTicket _ _ e' _ _ _ _ _ _) => e' = e →
    ∃ event, w.get (.event e) = some event ∧ event.status ≠ .upcoming
  | _ => True

theorem statusAgrees_iff (tracks : Tracks w) :
    StatusAgrees w e ↔ statusOf w e ≠ some .completed := by
  have followed := tracks e
  rw [statusOf_eq] at followed ⊢
  unfold StatusAgrees
  cases stored : w.get (.event e) with
  | none => simp
  | some event =>
    rw [stored, Option.map_some] at followed
    have kept : w.outside.payments.getEventStatus e = w.outside.payments.book.status e := rfl
    cases status : event.status <;> rw [status] at followed <;> simp [Followed] at followed <;>
      simp [status, kept] <;> grind

/-- A payment is taken for an active event, or for one whose sales have not been opened. -/
theorem sale_season (tracks : Tracks w) (agrees : statusOf w e ≠ some .completed)
    (open_ : Payments.saleOpen (w.outside.payments.book.status e) = true) :
    (∃ event, w.get (.event e) = some event ∧ event.status = .active) ↔
      ∃ event, w.get (.event e) = some event ∧ event.status ≠ .upcoming := by
  have followed := tracks e
  rw [statusOf_eq] at followed agrees
  cases stored : w.get (.event e) with
  | none => simp
  | some event =>
    rw [stored, Option.map_some] at followed agrees
    cases status : event.status with
    | upcoming => simp [status]
    | active => simp [status]
    | completed => exact absurd (congrArg some status) agrees
    | cancelled | postponed =>
      rw [status] at followed
      rw [show w.outside.payments.book.status e = _ from followed] at open_
      cases open_

theorem status_step (wired : Wired links w) (tracks : Tracks w) (steady : step.setsStatus = false)
    (agrees : StatusAgrees w e) :
    StatusAgrees (links.next w step) e ∧ PaysWhileActive links e w step ↔
      SoldInSeason links e w step := by
  rw [statusAgrees_iff (next_tracks wired tracks steady)]
  rw [statusAgrees_iff tracks] at agrees
  cases step with
  | events invocation c =>
    by_cases success : links.succeeds w (.events invocation c) = true
    · obtain ⟨ms, effect, sent⟩ := wired.events success
      have active : PaysWhileActive links e w (.events invocation c) := by
        rintro ⟨id, p, absent, stored, rfl⟩
        have status := effect_sold wired.outside.book effect sent absent stored
        rw [statusOf_eq] at status
        exact Option.map_eq_some_iff.mp status
      rw [and_iff_left active]
      constructor
      · intro unfinished _
        cases c with
        | updateEventStatus organizer e' newStatus =>
          rintro rfl rfl
          obtain ⟨o, -, -, ⟨write, -⟩, -⟩ := effect
          rw [statusOf_write write, Function.update_self] at unfinished
          exact unfinished rfl
        | _ => trivial
      · intro meets finished
        obtain before | ⟨organizer, rfl⟩ := effect.completes finished
        · exact agrees before
        · exact meets success rfl rfl
    · rw [next_failed success]
      refine iff_of_true ⟨agrees, ?_⟩ fun succeeds => absurd succeeds success
      rintro ⟨id, p, absent, stored, -⟩
      rw [next_failed success, absent] at stored
      cases stored
  | payments invocation c =>
    have same : statusOf (links.next w (.payments invocation c)) e = statusOf w e := rfl
    rw [same, and_iff_right agrees]
    cases c with
    | payForTicket nonce payer e' amount emailHash token level nullifier key =>
      have season (here : e' = e) (success : links.succeeds w (.payments invocation
          (.payForTicket nonce payer e' amount emailHash token level nullifier key)) = true) :
          (∃ event, w.get (.event e) = some event ∧ event.status = .active) ↔
            ∃ event, w.get (.event e) = some event ∧ event.status ≠ .upcoming := by
        obtain ⟨payments, called, -⟩ := payments_next success
        obtain ⟨open_, -⟩ := Payments.payForTicket_sold wired.outside.book called
        exact sale_season tracks agrees (here ▸ open_)
      constructor
      · exact fun active success here => (season here success).mp (active ⟨here, success⟩)
      · exact fun meets ⟨here, success⟩ => (season here success).mpr (meets success here)
    | _ => exact iff_of_true nofun fun _ => trivial
  | tickets | mint | pay => exact iff_of_true ⟨agrees, nofun⟩ fun _ => trivial

/-- The payments contract follows an event, and sells its tickets only while it is active,
exactly as long as the event is not completed and nobody buys before its sale. -/
theorem status_agrees_iff (links : Links) (setup : Setup) (e : Symbol) (steps : List Step)
    (linked : LinkedRun links setup steps) (steady : ∀ step ∈ steps, step.setsStatus = false) :
    (∀ before, before <+: steps → StatusAgrees (run links.next (links.opened setup) before) e) ∧
        Along links.next (PaysWhileActive links e) (links.opened setup) steps ↔
      Along links.next (SoldInSeason links e) (links.opened setup) steps := by
  have base : Wired links (links.opened setup) ∧ Tracks (links.opened setup) :=
    ⟨opened_wired links setup, opened_tracks links setup⟩
  have start : StatusAgrees (links.opened setup) e := nofun
  refine prefixes_and_along_iff (I := fun w => Wired links w ∧ Tracks w)
    (J := fun w => StatusAgrees w e) (fun w step inv meets => ?_) (fun w step inv meets agrees => ?_)
    (linked.and (along_of_mem (fun step mem _ => steady step mem) _)) base start
  · exact ⟨next_wired inv.1 meets.1, next_tracks inv.1 inv.2 meets.2⟩
  · exact status_step inv.1 inv.2 meets.2 agrees

theorem status_agrees_iff_sale :
    let steps := Sample.onSale ++ [Sample.buys 3 1 Sample.bob]
    (∀ before, before <+: steps →
        StatusAgrees (run Sample.links.next (Sample.links.opened Sample.setup) before) Sample.concert) ∧
      Along Sample.links.next (PaysWhileActive Sample.links Sample.concert)
        (Sample.links.opened Sample.setup) steps ↔
      Along Sample.links.next (SoldInSeason Sample.links Sample.concert)
        (Sample.links.opened Sample.setup) steps :=
  status_agrees_iff Sample.links Sample.setup Sample.concert _ (by decide) (by decide)

/-- A ticket is bought before the sale, and a concert that is over stays unknown as such. -/
theorem status_strays :
    let early := Sample.announced ++ [Sample.buys 2 1 Sample.bob]
    let runs := Sample.onSale ++
      [Sample.events 3 (.updateEventStatus Sample.organizer Sample.concert .completed)]
    (LinkedRun Sample.links Sample.setup early ∧ (∀ step ∈ early, step.setsStatus = false) ∧
        ¬ Along Sample.links.next (PaysWhileActive Sample.links Sample.concert)
          (Sample.links.opened Sample.setup) early) ∧
      LinkedRun Sample.links Sample.setup runs ∧ (∀ step ∈ runs, step.setsStatus = false) ∧
      ¬ StatusAgrees (run Sample.links.next (Sample.links.opened Sample.setup) runs)
        Sample.concert := by
  refine ⟨⟨by decide, by decide, fun active => ?_⟩, by decide, by decide,
    fun agrees => ?_⟩
  · have last := along_singleton.mp (along_append.mp active).2
    obtain ⟨event, stored, status⟩ := last ⟨rfl, by decide⟩
    have upcoming : ((run Sample.links.next (Sample.links.opened Sample.setup) Sample.announced).get
        (.event Sample.concert)).map (·.status) = some .upcoming := by decide
    rw [stored, Option.map_some, status] at upcoming
    cases upcoming
  · obtain ⟨event, stored, status⟩ := Option.map_eq_some_iff.mp
      (show ((run Sample.links.next (Sample.links.opened Sample.setup) (Sample.onSale ++
        [Sample.events 3 (.updateEventStatus Sample.organizer Sample.concert .completed)])).get
          (.event Sample.concert)).map (·.status) = some .completed by decide)
    have known := agrees event stored
    rw [status] at known
    revert known
    decide

end Status

section Terms

def Copied (config : Payments.EventConfig) (event : Event) : Prop :=
  config.organizer = event.organizer ∧ config.payoutToken = event.payoutToken ∧
    config.maxSupply = event.maxSupply ∧ config.maxTicketsPerUser = event.maxTicketsPerUser ∧
    config.eventStartLedger = event.eventStartLedger ∧
    config.eventEndLedger = event.eventEndLedger ∧
    config.withdrawalDelayLedgers = event.withdrawalDelayLedgers ∧
    config.resaleRoyaltyBps = event.resaleRoyaltyBps ∧
    config.maxResalePrice = event.maxResalePrice ∧
    config.allowFreeTicketTransfer = event.allowFreeTicketTransfer

def ConfigAgrees (w : World) : Prop :=
  ∀ e event, w.get (.event e) = some event →
    ∃ config, w.outside.payments.getEventConfig e = some config ∧ Copied config event

/-- No tier is added, and an updated tier keeps its capacity. -/
def KeepsSupply (links : Links) (w : World) (step : Step) : Prop :=
  links.succeeds w step = true → match step with
  | .events _ (.addTicketTier ..) => False
  | .events _ (.updateTier _ e tierId _ _ capacity) => ∀ event ∈ w.get (.event e),
    ∀ found ∈ (event.findTier tierId).toOption, capacity.getD found.2.capacity = found.2.capacity
  | _ => True

instance (w : World) (step : Step) : Decidable (KeepsSupply links w step) := by
  unfold KeepsSupply
  split <;> infer_instance

theorem configAgrees_iff (copies : Matches UpToSupply w) : ConfigAgrees w ↔ Matches Eq w := by
  constructor
  · intro agrees e o stored
    obtain ⟨terms, copied, same⟩ := copies e o stored
    obtain ⟨event, present, rfl⟩ := Option.map_eq_some_iff.mp stored
    obtain ⟨config, kept, -, -, supply, -⟩ := agrees e event present
    have known : w.outside.payments.book.terms e = some config.terms := congrArg (Option.map _) kept
    rw [known] at copied
    cases copied
    refine ⟨_, known, ?_⟩
    rw [← same]
    change config.terms = { config.terms with maxSupply := event.maxSupply }
    rw [← supply]
    rfl
  · intro agree e event stored
    obtain ⟨terms, copied, rfl⟩ := agree e _ (outline_of_event stored)
    obtain ⟨config, kept, same⟩ := Option.map_eq_some_iff.mp copied
    refine ⟨config, kept, ?_⟩
    have field {α : Type} (f : Payments.EventTerms → α) : f config.terms = f event.terms :=
      congrArg f same
    exact ⟨field (·.organizer), field (·.payoutToken), field (·.maxSupply),
      field (·.maxTicketsPerUser), field (·.eventStartLedger), field (·.eventEndLedger),
      field (·.withdrawalDelayLedgers), field (·.resaleRoyaltyBps), field (·.maxResalePrice),
      field (·.allowFreeTicketTransfer)⟩

theorem supply_step (wired : Wired links w) (agree : Matches Eq w) :
    Matches Eq (links.next w step) ↔ KeepsSupply links w step := by
  have others (edits : step.editsTiers = false) : Matches Eq (links.next w step) :=
    next_matches wired (fun _ => rfl) agree edits
  cases step with
  | events invocation c =>
    by_cases success : links.succeeds w (.events invocation c) = true
    · obtain ⟨ms, effect, sent⟩ := wired.events success
      have silent (silent : pushesTerms c = false) :=
        delivered_terms wired.outside.book (effect.quiet silent) sent
      cases c with
      | addTicketTier =>
        obtain ⟨o, stored, -, positive, ⟨write, -⟩, -⟩ := effect
        rw [agree.drift stored write (silent rfl)]
        refine iff_of_false (by omega) fun keeps => keeps success
      | updateTier organizer e tierId name price capacity =>
        obtain ⟨o, event, index, tier, maxSupply, present, found, stored, -, supply, ⟨write, -⟩, -⟩ :=
          effect
        rw [agree.drift stored write (silent rfl)]
        have present : w.get (.event e) = some event := present
        constructor
        · rintro rfl - event' present' found' mem
          rw [present] at present'
          cases present'
          rw [found] at mem
          cases mem
          exact (Nat.add_left_cancel supply).symm
        · intro keeps
          have same := keeps success event present (index, tier) (by rw [found]; rfl)
          exact Nat.add_right_cancel (supply.trans (congrArg (o.terms.maxSupply + ·) same))
      | _ => exact iff_of_true (others rfl) fun _ => trivial
    · rw [next_failed success]
      exact iff_of_true agree fun succeeds => absurd succeeds success
  | payments | tickets | mint | pay => exact iff_of_true (others rfl) fun _ => trivial

/-- The payments contract has every event's terms, in every state, exactly as long as no
event is given more or fewer seats after it was announced. -/
theorem config_agrees_iff (links : Links) (setup : Setup) (steps : List Step)
    (linked : LinkedRun links setup steps) :
    (∀ before, before <+: steps → ConfigAgrees (run links.next (links.opened setup) before)) ↔
      Along links.next (KeepsSupply links) (links.opened setup) steps := by
  have base : Wired links (links.opened setup) ∧ Matches UpToSupply (links.opened setup) :=
    ⟨opened_wired links setup, opened_copies links setup⟩
  have start : ConfigAgrees (links.opened setup) := nofun
  rw [← prefixes_and_along_iff (I := fun w => Wired links w ∧ Matches UpToSupply w)
    (J := ConfigAgrees) (P := fun _ _ => True) (fun w step inv keeps => ?_)
    (fun w step inv keeps agrees => ?_) linked base start]
  · exact (and_iff_left (along_of_forall (fun _ _ => trivial) _ _)).symm
  · exact ⟨next_wired inv.1 keeps, next_copies inv.1 inv.2⟩
  · rw [configAgrees_iff inv.2] at agrees
    rw [configAgrees_iff (next_copies inv.1 inv.2), and_true]
    exact supply_step inv.1 agrees

theorem config_agrees_iff_postponed :
    let steps := Sample.onSale ++
      [Sample.events 3 (.postponeEvent Sample.organizer Sample.concert 70000 51840)]
    (∀ before, before <+: steps →
        ConfigAgrees (run Sample.links.next (Sample.links.opened Sample.setup) before)) ↔
      Along Sample.links.next (KeepsSupply Sample.links) (Sample.links.opened Sample.setup) steps :=
  config_agrees_iff Sample.links Sample.setup _ (by decide)

/-- Five more seats are announced, and the payments contract goes on to sell eleven. -/
theorem config_drifts :
    let steps := Sample.announced ++
      [Sample.events 2 (.addTicketTier Sample.organizer Sample.concert "balcony" 50 5)]
    LinkedRun Sample.links Sample.setup steps ∧
      ¬ ConfigAgrees (run Sample.links.next (Sample.links.opened Sample.setup) steps) := by
  refine ⟨by decide, fun agrees => ?_⟩
  obtain ⟨event, stored, supply⟩ := Option.map_eq_some_iff.mp
    (show ((run Sample.links.next (Sample.links.opened Sample.setup) (Sample.announced ++
      [Sample.events 2 (.addTicketTier Sample.organizer Sample.concert "balcony" 50 5)])).get
        (.event Sample.concert)).map (·.maxSupply) = some 16 by decide)
  obtain ⟨config, kept, -, -, same, -⟩ := agrees Sample.concert event stored
  have copied : ((run Sample.links.next (Sample.links.opened Sample.setup) (Sample.announced ++
      [Sample.events 2 (.addTicketTier Sample.organizer Sample.concert "balcony" 50 5)])
        ).outside.payments.getEventConfig Sample.concert).map (·.maxSupply) = some 11 := by
    decide
  rw [kept, Option.map_some, same, supply] at copied
  cases copied

end Terms

end Zicket.Linked
