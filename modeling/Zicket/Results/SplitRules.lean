import Zicket.Linked.Agreement

/-! The two validators of a revenue split: the one of the event contract and the one of the
payments contract. They accept the same lists, so a split that passes the first is stored. -/

namespace Zicket.Payments

open Host Foundation Common Book

variable {env : Env} {w w' : World} {e : Symbol}

def splitRecord (entry : Address × ℕ) : RevenueSplit :=
  { recipient := entry.1, basisPoints := entry.2 }

/-- The two loops in step: the records so far are the earlier recipients of the other loop. -/
theorem normalizeSplits_eq_ok {pairs : List (Address × ℕ)} {before after : List RevenueSplit}
    {total sum : ℕ} :
    normalizeSplits pairs before total = .ok (after, sum) ↔
      after = before ++ pairs.map splitRecord ∧
        checkSplits pairs (before.map (·.recipient)) total = .ok sum := by
  induction pairs generalizing before total with
  | nil =>
    simp only [normalizeSplits, checkSplits, pure_eq_ok, Prod.mk.injEq, List.map_nil,
      List.append_nil, eq_comm (a := after)]
  | cons entry rest ih =>
    obtain ⟨recipient, bps⟩ := entry
    simp only [normalizeSplits, checkSplits, bind_eq_ok, require_eq_ok, ensure_eq_ok, ih,
      List.map_append, List.map_cons, List.map_nil, List.append_assoc, List.singleton_append]
    constructor
    · rintro ⟨u, nonzero, v, fits, x, fresh, same, checked⟩
      exact ⟨same, u, nonzero, v, fits, x, fresh, checked⟩
    · rintro ⟨same, u, nonzero, v, fits, x, fresh, checked⟩
      exact ⟨u, nonzero, v, fits, x, fresh, same, checked⟩

theorem validateRevenueSplits_eq_ok {splits : List (Address × ℕ)} {organizer : Address}
    (given : splits ≠ []) {u : Unit} :
    validateRevenueSplits splits organizer = .ok u ↔
      splits.length ≤ 5 ∧ splits.head?.map (·.1) = some organizer ∧
        checkSplits splits [] 0 = .ok 10000 := by
  cases splits with
  | nil => exact absurd rfl given
  | cons entry rest =>
    simp only [validateRevenueSplits, bind_eq_ok, ensure_eq_ok]
    simp only [maxRevenueSplitRecipients, totalBasisPoints, exists_const, List.head?_cons,
      Option.map_some, Option.some.injEq]
    constructor
    · rintro ⟨short, own, total, checked, rfl⟩
      exact ⟨short, own, checked⟩
    · rintro ⟨short, own, checked⟩
      exact ⟨short, own, _, checked, rfl⟩

/-- `sync_revenue_splits` stores what the validation accepts, as it is. -/
theorem syncRevenueSplits_eq_ok {contract : Address} {config : EventConfig}
    {splits : List (Address × ℕ)} (given : splits ≠ []) (running : w.isPaused = false)
    (linked : w.get .eventContract = some contract) (signed : env.authorized contract = true)
    (stored : w.getEventConfig e = some config) (new : w.hasSplits e = false) :
    syncRevenueSplits env contract e splits w = .ok w' ↔
      w' = w.setSplits e (splits.map splitRecord) ∧
        validateRevenueSplits splits config.organizer = .ok () := by
  have positive : 0 < splits.length := List.length_pos_iff.mpr given
  rw [validateRevenueSplits_eq_ok given]
  simp only [syncRevenueSplits, requireNotPaused, World.getEventContract, bind_eq_ok, pure_eq_ok,
    require_eq_ok, requireAuth_eq_ok, okOr_eq_ok, running, linked, signed, stored, new, positive,
    true_and, exists_const, Option.some.injEq, exists_eq_left']
  constructor
  · rintro ⟨short, own, ⟨records, total⟩, normalized, rfl, rfl⟩
    obtain ⟨rfl, checked⟩ := normalizeSplits_eq_ok.mp normalized
    exact ⟨rfl, short, own, checked⟩
  · rintro ⟨rfl, short, own, checked⟩
    exact ⟨short, own, (_, 10000), normalizeSplits_eq_ok.mpr ⟨rfl, checked⟩, rfl, rfl⟩


@[simp] theorem splitPairs_records (splits : List (Address × ℕ)) :
    splitPairs (splits.map splitRecord) = splits := by
  rw [splitPairs, List.map_map]
  exact List.map_id splits

structure Splittable (env : Env) (w : World) (e : Symbol) (contract organizer : Address) : Prop where
  running : w.isPaused = false
  linked : w.get .eventContract = some contract
  signed : env.authorized contract = true
  configured : (w.getEventConfig e).map (·.organizer) = some organizer
  new : w.hasSplits e = false

theorem Splittable.accepts_iff {contract organizer : Address} {splits : List (Address × ℕ)}
    (splittable : Splittable env w e contract organizer) (given : splits ≠ []) :
    syncRevenueSplits env contract e splits w = .ok w' ↔
      w' = w.setSplits e (splits.map splitRecord) ∧
        validateRevenueSplits splits organizer = .ok () := by
  obtain ⟨config, stored, rfl⟩ := Option.map_eq_some_iff.mp splittable.configured
  exact syncRevenueSplits_eq_ok given splittable.running splittable.linked splittable.signed stored
    splittable.new

section Stored

variable {c : Call}

theorem post_splits {self : Address} {b : Book} {posting : Posting}
    (quiet : posting.entry ≠ .setSplits) : (b.post self posting).splits = b.splits := by
  cases posting with
  | setSplits => exact absurd rfl quiet
  | resale => exact congrArg Terms.splits (recordResale_frame ..).2.1
  | _ => rfl

theorem exec_splits (kept : w.book.Kept) (h : c.exec env w = .ok w')
    (quiet : ∀ contract e splits, c ≠ .syncRevenueSplits contract e splits) :
    w'.book.splits = w.book.splits := by
  have silent : .setSplits ∉ c.entries := by
    cases c with
    | syncRevenueSplits contract e splits => exact absurd rfl (quiet contract e splits)
    | _ => simp [Call.entries]
  obtain ⟨ps, posts, -, effect⟩ := exec_written kept h
  have step : ∀ (b : Book) posting, b.splits = w.book.splits → posting ∈ ps →
      (b.post env.currentContract posting).splits = w.book.splits :=
    fun b posting same mem =>
      (post_splits fun eq => silent (eq ▸ posts.entries mem)).trans same
  rw [← effect]
  exact run_invariant step (along_of_mem (fun _ mem _ => mem) w.book) rfl

theorem syncRevenueSplits_ok {contract : Address} {splits : List (Address × ℕ)}
    (h : syncRevenueSplits env contract e splits w = .ok w') :
    w.book.eventContract = some contract ∧ env.authorized contract = true ∧
      ∀ e', e' ≠ e → w'.book.splits e' = w.book.splits e' := by
  simp only [syncRevenueSplits, bind_eq_ok, pure_eq_ok, require_eq_ok, requireAuth_eq_ok,
    World.getEventContract, okOr_eq_ok] at h
  obtain ⟨-, -, _, known, -, rfl, -, signed, -, -, -, -, -, -, -, -, records, -, -, -, rfl⟩ := h
  refine ⟨known, signed, fun e' other => ?_⟩
  rw [World.setSplits, World.book_set_eventSplits]
  exact Function.update_of_ne other ..

theorem syncEventConfig_ready {contract : Address} {terms : EventTerms}
    (h : syncEventConfig env contract e terms w = .ok w') :
    w'.isPaused = false ∧ w'.get .eventContract = some contract ∧
      (∃ config, w'.getEventConfig e = some config ∧ config.organizer = terms.organizer) ∧
      w'.hasSplits e = w.hasSplits e := by
  simp only [syncEventConfig, requireNotPaused, bind_eq_ok, require_eq_ok] at h
  obtain ⟨-, running, u, contract_ok, token, -, -, -, h⟩ := h
  obtain ⟨known, -⟩ := requireEventContract_ok contract_ok
  have ready (config : EventConfig) (same : config.organizer = terms.organizer) :
      let next := w.setEventConfig e config
      next.isPaused = false ∧ next.get .eventContract = some contract ∧
        (∃ config, next.getEventConfig e = some config ∧ config.organizer = terms.organizer) ∧
        next.hasSplits e = w.hasSplits e :=
    ⟨running, known, ⟨config, Store.get_set_self .., same⟩, rfl⟩
  split at h
  · cases h
    exact ready _ rfl
  · simp only [bind_eq_ok, pure_eq_ok] at h
    obtain ⟨-, -, -, -, rfl⟩ := h
    exact ready _ rfl

end Stored

end Zicket.Payments

namespace Zicket.Linked

open Host Foundation Events Common

variable {links : Links} {env : Env} {w w' : World} {e : Symbol}

/-- Only a created event has a split in the payments contract. -/
def SplitsFollow (w : World) : Prop :=
  ∀ e, outline w e = none → w.outside.payments.book.splits e = none

theorem Effect.lasting {ms : List Message} {c : Call} (effect : Effect env w w' ms c)
    (gone : outline w' e = none) : outline w e = none := by
  have same (outlines : outline w' = outline w) : outline w e = none := by
    rwa [← outlines]
  have write {e' : Symbol} {o : Outline}
      (written : outline w' = Function.update (outline w) e' (some o)) : outline w e = none := by
    rw [written, Function.update_apply] at gone
    split at gone
    · cases gone
    · exact gone
  cases c <;> simp only [Effect, Becomes] at effect <;> grind

theorem Effect.unsplit {ms : List Message} {c : Call} (effect : Effect env w w' ms c)
    (gone : outline w' e = none) {contract : Address} {splits : List (Address × ℕ)} :
    .payments (.syncRevenueSplits contract e splits) ∉ ms := by
  have charges {nonce : ℕ} {payer : Address} {e' : Symbol} {price amount : ℤ}
      {emailHash : Option (BytesN 32)} {charge : List Message}
      (h : Charges env nonce payer e' price amount emailHash charge) :
      .payments (.syncRevenueSplits contract e splits) ∉ charge := by
    obtain ⟨-, rfl⟩ | ⟨-, -, token, rfl⟩ := h <;> simp
  cases c with
  | createEvent params =>
    obtain ⟨o, -, -, -, ⟨write, -⟩, more, told, rfl⟩ := effect
    have other : e ≠ params.eventId := by
      rintro rfl
      rw [write, Function.update_self] at gone
      cases gone
    obtain rfl | ⟨splits', rfl⟩ := told <;> simp [other]
  | _ =>
    simp only [Effect] at effect
    grind

theorem next_splitsFollow {step : Step} (wired : Wired links w) (follow : SplitsFollow w) :
    SplitsFollow (links.next w step) := by
  intro e gone
  by_cases success : links.succeeds w step = true
  · cases step with
    | events invocation c =>
      obtain ⟨ms, effect, sent⟩ := wired.events success
      refine delivered_book (I := fun b => b.splits e = none) ?_ wired.outside.book
        (follow e (effect.lasting gone)) sent
      intro c mem env v v' kept absent called
      by_cases splits : ∃ contract e' splits, c = .syncRevenueSplits contract e' splits
      · obtain ⟨contract, e', splits, rfl⟩ := splits
        obtain ⟨-, -, others⟩ := Payments.syncRevenueSplits_ok called
        have other : e ≠ e' := by
          rintro rfl
          exact effect.unsplit gone mem
        exact (others e other).trans absent
      · have same := Payments.exec_splits kept called
          fun contract e' list eq => splits ⟨contract, e', list, eq⟩
        exact (congrFun same e).trans absent
    | payments invocation c =>
      obtain ⟨payments, called, next⟩ := payments_next success
      have same := Payments.exec_splits wired.outside.book called (by
        rintro contract e' splits rfl
        obtain ⟨known, signed, -⟩ := Payments.syncRevenueSplits_ok called
        exact direct_refused wired known signed)
      rw [next] at gone ⊢
      exact (congrFun same e).trans (follow e gone)
    | tickets => exact follow e gone
    | mint t dst amount =>
      have same := (token_book links.paymentsAt wired.outside.book (.mint t dst amount) nofun).2
      exact (congrFun (congrArg Payments.Terms.splits same) e).trans (follow e gone)
    | pay t src dst amount =>
      have same := (token_book links.paymentsAt wired.outside.book (.pay t src dst amount) nofun).2
      exact (congrFun (congrArg Payments.Terms.splits same) e).trans (follow e gone)
  · rw [next_failed success] at gone ⊢
    exact follow e gone

section Create

theorem syncConfig_linked {σ : Type} {net : Network σ} {event : Event} {p : Address}
    {more : Address → Events.World σ → Attempt (Events.World σ)} {w w' : Events.World σ}
    (linked : w.hasLinkedContracts = true) (stored : w.get .paymentsContract = some p) :
    syncConfig net env e event more w = .ok w' ↔
      ∃ outside, net.syncEventConfig env p env.currentContract e event.terms w.outside =
          some outside ∧ more p { w with outside } = .ok w' := by
  simp only [syncConfig, linked, if_true, bind_eq_ok, World.getPaymentsContract, stored,
    okOr_eq_ok, Option.some.injEq, exists_eq_left', World.tell_eq_ok]
  constructor
  · rintro ⟨_, ⟨outside, told, rfl⟩, rest⟩
    exact ⟨outside, told, rest⟩
  · rintro ⟨outside, told, rest⟩
    exact ⟨_, ⟨outside, told, rfl⟩, rest⟩

theorem syncSplits_accepted {params : CreateEventParams} {event : Event} {s outside : Outside}
    (own : event.organizer = params.organizer)
    (new : s.payments.book.splits params.eventId = none)
    (valid : validateRevenueSplits params.revenueSplits params.organizer = .ok ())
    (told : links.network.syncEventConfig env links.payments env.currentContract params.eventId
      event.terms s = some outside) (w : World) :
    ∃ w', syncSplits links.network env params.eventId params.revenueSplits links.payments
      { w with outside } = .ok w' := by
  unfold syncSplits
  split
  · exact ⟨_, rfl⟩
  · rename_i given
    have given : params.revenueSplits ≠ [] := by simpa using given
    obtain ⟨payments, synced, rfl⟩ := Links.deliver_payments.mp
      (show links.deliver env s
        (.payments (.syncEventConfig env.currentContract params.eventId event.terms)) = _ from told)
    obtain ⟨running, known, ⟨config, stored, organizer⟩, splits⟩ :=
      Payments.syncEventConfig_ready synced
    have splittable : Payments.Splittable (Links.calling env links.payments) payments params.eventId
        env.currentContract params.organizer :=
      { running
        linked := known
        signed := by simp [Links.calling]
        configured := by rw [stored, Option.map_some, organizer]; exact congrArg some own
        new := splits.trans (congrArg Option.isSome new) }
    have accepted := (splittable.accepts_iff given).mpr ⟨rfl, valid⟩
    exact ⟨_, World.tell_eq_ok.mpr ⟨_, Links.deliver_payments.mpr ⟨_, accepted, rfl⟩, rfl⟩⟩

variable {params : CreateEventParams}

theorem checkPayoutToken_same {token : Address}
    (h : checkPayoutToken links.network env token w = .ok w') : w' = w := by
  unfold checkPayoutToken at h
  split at h
  · simp only [bind_eq_ok, World.ask_eq_ok, pure_eq_ok] at h
    obtain ⟨p, -, ⟨answer, _⟩, ⟨outside, asked, rfl⟩, -, -, rfl⟩ := h
    obtain ⟨-, rfl⟩ := Links.askPayments_same asked
    rfl
  · cases h
    rfl

/-- A split that passes the validation of `create_event` never makes it fail. -/
theorem createEvent_split (wired : Wired links w) (follow : SplitsFollow w)
    (valid : validateRevenueSplits params.revenueSplits params.organizer = .ok ()) :
    (∃ r, createEvent links.network env params w = .ok r) ↔
      ∃ r, createEvent links.network env { params with revenueSplits := [] } w = .ok r := by
  have linked : w.hasLinkedContracts = true := by
    obtain ⟨tickets, payments⟩ := Prod.ext_iff.mp wired.ends
    have tickets : w.roster.ticketContract = some links.tickets := tickets
    have payments : w.roster.paymentsContract = some links.payments := payments
    refine hasLinkedContracts_iff.mpr ⟨?_, ?_⟩
    · rw [tickets]
      rfl
    · rw [payments]
      rfl
  have stored : w.get .paymentsContract = some links.payments := (Prod.ext_iff.mp wired.ends).2
  have saved (event : Event) :
      let next := (w.saveEvent params.eventId event).setEventPrivacy params.eventId
        params.privacyLevel
      next.hasLinkedContracts = true ∧ next.get .paymentsContract = some links.payments :=
    ⟨linked, stored⟩
  have passes : (validateRevenueSplits params.revenueSplits params.organizer).isOk = true := by
    rw [valid]
    rfl
  simp only [createEvent, bind_eq_ok, pure_eq_ok, require_eq_ok]
  constructor
  · rintro ⟨r, u₁, signed, u₂, name, u₃, venue, date, dated, u₄, late, u₅, order, u₆, delay, u₇,
      royalty, u₈, tiered, u₉, -, built, tiers, u₁₀, new, w₁, asked, w₂, synced, rfl⟩
    obtain rfl := checkPayoutToken_same asked
    obtain ⟨outside, told, -⟩ := (syncConfig_linked (saved _).1 (saved _).2).mp synced
    exact ⟨_, u₁, signed, u₂, name, u₃, venue, date, dated, u₄, late, u₅, order, u₆, delay, u₇,
      royalty, u₈, tiered, u₉, rfl, built, tiers, u₁₀, new, _, asked, _,
      (syncConfig_linked (saved _).1 (saved _).2).mpr ⟨outside, told, rfl⟩, rfl⟩
  · rintro ⟨r, u₁, signed, u₂, name, u₃, venue, date, dated, u₄, late, u₅, order, u₆, delay, u₇,
      royalty, u₈, tiered, u₉, -, built, tiers, u₁₀, new, w₁, asked, w₂, synced, rfl⟩
    obtain rfl := checkPayoutToken_same asked
    obtain ⟨outside, told, -⟩ := (syncConfig_linked (saved _).1 (saved _).2).mp synced
    have absent : w₁.roster.event params.eventId = none := by
      change w₁.get _ = none
      simpa [World.has, Store.has, World.get] using new
    obtain ⟨w₂, sent⟩ := syncSplits_accepted rfl (follow _ (outline_eq_none absent)) valid told
      ((w₁.saveEvent params.eventId (params.toEvent built.1 built.2 env.timestamp)).setEventPrivacy
        params.eventId params.privacyLevel)
    exact ⟨_, u₁, signed, u₂, name, u₃, venue, date, dated, u₄, late, u₅, order, u₆, delay, u₇,
      royalty, u₈, tiered, u₉, passes, built, tiers, u₁₀, new, _, asked, _,
      (syncConfig_linked (saved _).1 (saved _).2).mpr ⟨outside, told, sent⟩, rfl⟩

theorem opened_splitsFollow (links : Links) (setup : Setup) :
    SplitsFollow (links.opened setup) :=
  fun _ _ => rfl

theorem run_splitsFollow {setup : Setup} {steps : List Step}
    (linked : LinkedRun links setup steps) :
    Wired links (run links.next (links.opened setup) steps) ∧
      SplitsFollow (run links.next (links.opened setup) steps) := by
  refine run_invariant (I := fun w => Wired links w ∧ SplitsFollow w) ?_ linked
    ⟨opened_wired links setup, opened_splitsFollow links setup⟩
  exact fun w step inv keeps => ⟨next_wired inv.1 keeps, next_splitsFollow inv.1 inv.2⟩

theorem createEvent_succeeds_iff {invocation : Invocation} :
    links.succeeds w (.events invocation (.createEvent params)) = true ↔
      ∃ r, createEvent links.network ⟨links.eventsAt, links.signed invocation⟩ params w = .ok r := by
  rw [events_succeeds]
  simp only [Call.exec, bind_eq_ok, pure_eq_ok]
  constructor
  · rintro ⟨-, r, created, -⟩
    exact ⟨r, created⟩
  · rintro ⟨r, created⟩
    exact ⟨_, r, created, rfl⟩

end Create

/-- The two contracts accept the same splits, and store them as they are; so in any run of the
linked contracts a split that passes the first validation does not make `create_event` fail. -/
theorem split_validators_agree (organizer : Address) (splits : List (Address × ℕ))
    (given : splits ≠ []) :
    (∀ env w e contract, Payments.Splittable env w e contract organizer →
      (validateRevenueSplits splits organizer = .ok () ↔
        ∃ w', Payments.syncRevenueSplits env contract e splits w = .ok w') ∧
      ∀ w', Payments.syncRevenueSplits env contract e splits w = .ok w' →
        Payments.splitPairs (w'.getSplits e) = splits) ∧
    ∀ links setup steps invocation (params : CreateEventParams), LinkedRun links setup steps →
      params.organizer = organizer → params.revenueSplits = splits →
      validateRevenueSplits splits organizer = .ok () →
      let w := run links.next (links.opened setup) steps
      links.succeeds w (.events invocation (.createEvent params)) =
        links.succeeds w (.events invocation (.createEvent { params with revenueSplits := [] })) := by
  refine ⟨fun env w e contract splittable => ⟨?_, fun w' synced => ?_⟩, ?_⟩
  · constructor
    · exact fun valid => ⟨_, (splittable.accepts_iff given).mpr ⟨rfl, valid⟩⟩
    · exact fun ⟨_, synced⟩ => ((splittable.accepts_iff given).mp synced).2
  · obtain ⟨rfl, -⟩ := (splittable.accepts_iff given).mp synced
    have stored : (w.setSplits e (splits.map Payments.splitRecord)).getSplits e =
        splits.map Payments.splitRecord :=
      congrArg (fun stored => Option.getD stored []) (Store.get_set_self w.storage (.eventSplits e) _)
    rw [stored, Payments.splitPairs_records]
  · rintro links setup steps invocation params linked rfl rfl valid
    obtain ⟨wired, follow⟩ := run_splitsFollow linked
    rw [Bool.eq_iff_iff, createEvent_succeeds_iff, createEvent_succeeds_iff]
    exact createEvent_split wired follow valid

theorem split_validators_agree_cohost :
    let w := run (Payments.World.next Payments.Sample.deployment)
      (Payments.deployed Payments.Sample.noBalances) Payments.Sample.opening
    let splits := [(Sample.organizer, 6000), (Sample.bob, 4000)]
    ∃ w', Payments.syncRevenueSplits ⟨Payments.Sample.deployment, Sample.invocation 2⟩
        Payments.Sample.eventContract Sample.concert splits w = .ok w' ∧
      Payments.splitPairs (w'.getSplits Sample.concert) = splits := by
  intro w splits
  have agree := (split_validators_agree Sample.organizer splits (by decide)).1
    ⟨Payments.Sample.deployment, Sample.invocation 2⟩ w Sample.concert Payments.Sample.eventContract
    { running := by decide
      linked := by decide
      signed := rfl
      configured := by decide
      new := by decide }
  obtain ⟨w', synced⟩ := agree.1.mp (by decide)
  exact ⟨w', synced, agree.2 w' synced⟩

end Zicket.Linked
