import Zicket.Escrow.Repayments
import Zicket.Refinement.Calls

/-! An event's status and its terms, as the event contract pushes them: which calls of the
payments contract write them, and what. -/

namespace Zicket.Payments

open Host Foundation Book

def EventConfig.terms (c : EventConfig) : EventTerms :=
  { organizer := c.organizer, payoutToken := c.payoutToken, allowAnonymous := c.allowAnonymous,
    requiresVerification := c.requiresVerification, maxTicketsPerUser := c.maxTicketsPerUser,
    maxSupply := c.maxSupply, eventStartLedger := c.eventStartLedger,
    eventEndLedger := c.eventEndLedger, withdrawalDelayLedgers := c.withdrawalDelayLedgers,
    resaleRoyaltyBps := c.resaleRoyaltyBps, maxResalePrice := c.maxResalePrice,
    allowFreeTicketTransfer := c.allowFreeTicketTransfer }

def Book.terms (b : Book) (e : Symbol) : Option EventTerms := (b.config e).map (·.terms)

def Book.extension (b : Book) (e : Symbol) : ℕ :=
  (b.config e).elim 0 (·.adminDelayExtensionLedgers)

def Book.setting {β : Type} (f : EventConfig → β) (b : Book) (e : Symbol) : Option β :=
  (b.config e).map f

def Lasting {β : Type} (f : EventConfig → β) : Prop :=
  ∀ (c : EventConfig) (sold : ℕ) (cancelLedger ratio : Option ℕ) (latch : Bool),
    f { c with
      soldCount := sold
      cancelLedger := cancelLedger
      withdrawableRatioBps := ratio
      organizerWithdrawn := latch } = f c

theorem lasting_terms : Lasting (·.terms) := fun _ _ _ _ _ => rfl

theorem lasting_extension : Lasting (·.adminDelayExtensionLedgers) := fun _ _ _ _ _ => rfl

theorem extension_eq (b : Book) (e : Symbol) :
    b.extension e = (b.setting (·.adminDelayExtensionLedgers) e).getD 0 := by
  unfold Book.extension Book.setting
  cases b.config e <;> rfl

variable {self : Address} {b : Book} {posting : Posting} {e : Symbol} {env : Env}
  {w w' : World} {c : Call} {β : Type} {f : EventConfig → β}

section Postings

theorem setting_configure {config : EventConfig} :
    (b.post self (.configure e config)).setting f =
      Function.update (b.setting f) e (some (f config)) := by
  funext e'
  change (Function.update b.config e (some config) e').map _ = _
  by_cases same : e' = e
  · subst same
    simp
  · simp [same, Book.setting]

theorem post_status (quiet : posting.entry ≠ .setStatus ∧ posting.entry ≠ .cancel) :
    (b.post self posting).status = b.status := by
  cases posting with
  | setStatus => exact absurd rfl quiet.1
  | cancel => exact absurd rfl quiet.2
  | resale =>
    exact congrArg Terms.status (recordResale_frame ..).2.1
  | _ => rfl

theorem post_setting (lasting : Lasting f) (sound : Sound self b posting)
    (quiet : posting.entry ≠ .configure) : (b.post self posting).setting f = b.setting f := by
  cases posting with
  | configure => exact absurd rfl quiet
  | sale p ticket payer =>
    funext e'
    change (b.sold p.eventId e').map _ = _
    unfold sold
    by_cases same : e' = p.eventId
    · subst same
      have counted (c : EventConfig) : f { c with soldCount := c.soldCount + 1 } = f c :=
        lasting c ..
      rw [Function.update_self, Option.map_map]
      exact congrArg (fun g => Option.map g _) (funext counted)
    · rw [Function.update_of_ne same]
      rfl
  | cancel e config =>
    -- a cancellation writes its ledger and its ratio only
    obtain ⟨⟨old, stored, kept⟩, -⟩ := sound
    have same : f config = f old := by
      rw [kept]
      exact lasting old ..
    have before : b.setting f e = some (f old) := congrArg (Option.map f) stored
    have written : (b.post self (.cancel e config)).setting f =
        Function.update (b.setting f) e (some (f config)) := @setting_configure self b e _ f config
    rw [written, same, ← before, Function.update_eq_self]
  | resale =>
    exact congrArg (fun terms : Terms => fun e => (terms.config e).map f)
      (recordResale_frame ..).2.1
  | _ => rfl

theorem run_setting {ps : List Posting} (lasting : Lasting f)
    (sound : Along (post self) (Sound self) b ps)
    (quiet : ∀ posting ∈ ps, posting.entry ≠ .configure) :
    (run (post self) b ps).setting f = b.setting f := by
  have step : ∀ (b' : Book) posting, b'.setting f = b.setting f →
      Sound self b' posting ∧ posting.entry ≠ .configure →
      (b'.post self posting).setting f = b.setting f :=
    fun _ _ same meets => (post_setting lasting meets.1 meets.2).trans same
  exact run_invariant step (sound.and (along_of_mem (fun posting mem _ => quiet posting mem) b)) rfl

theorem resale_records {ticket : Ticket} {t : Address} {price fee royalty : ℤ}
    {buyer seller : Address} :
    (b.post self (.resale ticket t price fee royalty buyer seller)).toRecords = b.toRecords :=
  (recordResale_frame self b ticket t price (price - fee - royalty) buyer seller).1

theorem post_unsold (sound : Sound self b posting) (quiet : posting.entry ≠ .sale) {id : ℕ}
    (absent : b.payment id = none) : (b.post self posting).payment id = none := by
  cases stored : (b.post self posting).payment id with
  | none => rfl
  | some q =>
    obtain ⟨p, before, -⟩ := post_payment_old sound quiet stored
    rw [absent] at before
    cases before

theorem post_unissued (sound : Sound self b posting) (quiet : posting.entry ≠ .sale) :
    (b.post self posting).tickets = b.tickets ∧
      ∀ id, b.ticket id = none → (b.post self posting).ticket id = none := by
  cases posting with
  | sale => exact absurd rfl quiet
  | handover ticket buyer =>
    refine ⟨rfl, fun id absent => ?_⟩
    change Function.update b.ticket ticket.ticketId _ id = none
    rw [Function.update_of_ne, absent]
    rintro rfl
    cases sound.1.symm.trans absent
  | resale ticket t price fee royalty buyer seller =>
    exact ⟨congrArg Records.tickets resale_records,
      fun id => (congrFun (congrArg Records.ticket resale_records) id).trans⟩
  | _ => exact ⟨rfl, fun _ absent => absent⟩

end Postings

section Calls

theorem exec_kept (kept : w.book.Kept) (h : c.exec env w = .ok w') : w'.book.Kept := by
  obtain ⟨ps, -, sound, effect⟩ := exec_written kept h
  rw [← effect]
  exact run_kept sound kept

theorem exec_unsold (kept : w.book.Kept) (h : c.exec env w = .ok w') (quiet : .sale ∉ c.entries)
    {id : ℕ} (absent : w.book.payment id = none) : w'.book.payment id = none := by
  obtain ⟨ps, posts, sound, effect⟩ := exec_written kept h
  have step : ∀ (b : Book) posting, b.payment id = none →
      Sound env.currentContract b posting ∧ posting ∈ ps →
      (b.post env.currentContract posting).payment id = none :=
    fun b posting absent meets => post_unsold meets.1
      (fun eq => quiet (eq ▸ posts.entries meets.2)) absent
  rw [← effect]
  exact run_invariant step (sound.and (along_of_mem (fun _ mem _ => mem) w.book)) absent

theorem exec_unissued (kept : w.book.Kept) (h : c.exec env w = .ok w') (quiet : .sale ∉ c.entries) :
    w'.book.tickets = w.book.tickets ∧ ∀ id, w.book.ticket id = none → w'.book.ticket id = none := by
  obtain ⟨ps, posts, sound, effect⟩ := exec_written kept h
  have step : ∀ (b : Book) posting, b.tickets = w.book.tickets ∧
      (∀ id, w.book.ticket id = none → b.ticket id = none) →
      Sound env.currentContract b posting ∧ posting ∈ ps →
      (b.post env.currentContract posting).tickets = w.book.tickets ∧
        ∀ id, w.book.ticket id = none → (b.post env.currentContract posting).ticket id = none := by
    intro b posting inv meets
    obtain ⟨count, absent⟩ := post_unissued meets.1 fun eq => quiet (eq ▸ posts.entries meets.2)
    exact ⟨count.trans inv.1, fun id unissued => absent id (inv.2 id unissued)⟩
  rw [← effect]
  exact run_invariant step (sound.and (along_of_mem (fun _ mem _ => mem) w.book))
    ⟨rfl, fun _ absent => absent⟩

section Sale

variable {nonce : ℕ} {payer : Address} {amount : ℤ} {emailHash : Option (BytesN 32)}
  {token : Address} {level : PaymentPrivacy} {nullifier stealthKey : Option (BytesN 32)}
  (kept : w.book.Kept) (h : Call.exec env w
    (.payForTicket nonce payer e amount emailHash token level nullifier stealthKey) = .ok w')

include kept h

theorem payForTicket_sold : saleOpen (w.book.status e) = true ∧
    ∀ id, w.book.payment id = none → ∀ p, w'.book.payment id = some p → p.eventId = e := by
  obtain ⟨ps, ⟨p, ticket, event, -, -, rfl⟩, sound, effect⟩ := exec_written kept h
  have sale : SaleSound w.book p ticket payer := sound.1
  rw [← effect]
  refine ⟨event ▸ sale.sellable, fun id absent p' stored => ?_⟩
  obtain ⟨-, rfl⟩ | ⟨-, stored⟩ := update_eq_some.mp stored
  · exact event
  · cases absent.symm.trans stored

theorem payForTicket_issued : w'.book.tickets = w.book.tickets + 1 ∧
    ∀ id, w.book.ticket id = none → w'.book.ticket id ≠ none → id = w.book.tickets + 1 := by
  obtain ⟨ps, ⟨p, ticket, event, -, -, rfl⟩, sound, effect⟩ := exec_written kept h
  have sale : SaleSound w.book p ticket payer := sound.1
  have number : ticket.ticketId = w.book.tickets + 1 := by
    rw [sale.ticket]
    rfl
  rw [← effect]
  refine ⟨number, fun id absent issued => ?_⟩
  rw [← number]
  by_contra other
  exact issued ((Function.update_of_ne other _ _).trans absent)

end Sale

theorem exec_status (kept : w.book.Kept) (h : c.exec env w = .ok w')
    (quiet : .setStatus ∉ c.entries ∧ .cancel ∉ c.entries) : w'.book.status = w.book.status := by
  obtain ⟨ps, posts, -, effect⟩ := exec_written kept h
  have step : ∀ (b : Book) posting, b.status = w.book.status → posting ∈ ps →
      (b.post env.currentContract posting).status = w.book.status := by
    intro b posting same mem
    have entry := posts.entries mem
    refine (post_status ⟨?_, ?_⟩).trans same
    · exact fun eq => quiet.1 (eq ▸ entry)
    · exact fun eq => quiet.2 (eq ▸ entry)
  rw [← effect]
  exact run_invariant step (along_of_mem (fun _ mem _ => mem) w.book) rfl

theorem latched_setting {ps : List Posting} {config latched : EventConfig} (lasting : Lasting f)
    (stored : w.book.config e = some config) (same : f latched = f config)
    (sound : Along (post self) (Sound self) w.book ps)
    (quiet : ∀ posting ∈ ps, posting.entry ≠ .configure) :
    (run (post self) w.book (ps ++ [.configure e latched])).setting f = w.book.setting f := by
  have before : w.book.setting f e = some (f config) := congrArg (Option.map f) stored
  rw [run_append, run_cons, run_nil, setting_configure, run_setting lasting sound quiet, same,
    ← before, Function.update_eq_self]

theorem withdraw_setting {organizer : Address} (lasting : Lasting f) (kept : w.book.Kept)
    (h : Call.exec env w (.withdraw organizer e) = .ok w') :
    w'.book.setting f = w.book.setting f := by
  obtain ⟨ps, ⟨sweep, config, total, net, left, sweeps, stored, -, rfl⟩, sound, effect⟩ :=
    exec_written kept h
  rw [List.append_cons] at sound effect
  rw [← effect]
  refine latched_setting lasting stored (lasting config ..) (along_append.mp sound).1
    fun posting mem => ?_
  obtain mem | mem := List.mem_append.mp mem
  · rw [sweeps.entries mem]
    decide
  · simp [List.mem_singleton.mp mem, Posting.entry]

theorem withdrawRevenue_setting {recipient : Address} (lasting : Lasting f) (kept : w.book.Kept)
    (h : Call.exec env w (.withdrawRevenue e recipient) = .ok w') :
    w'.book.setting f = w.book.setting f := by
  obtain ⟨ps, ⟨sweep, t, total, net, sweeps, -, -, rfl⟩, sound, effect⟩ := exec_written kept h
  rw [List.append_cons] at sound effect
  have quiet : ∀ posting ∈ sweep ++ [.payout e t none total net 0 recipient env.timestamp],
      posting.entry ≠ .configure := by
    intro posting mem
    obtain mem | mem := List.mem_append.mp mem
    · rw [sweeps.entries mem]
      decide
    · simp [List.mem_singleton.mp mem, Posting.entry]
  rw [← effect]
  cases stored : w.book.config e with
  | none =>
    rw [stored] at sound
    rw [latchPostings, Option.map_none, Option.toList_none, List.append_nil]
    exact run_setting lasting (along_append.mp sound).1 quiet
  | some config =>
    exact latched_setting lasting stored (lasting config ..) (along_append.mp sound).1 quiet

theorem exec_setting (lasting : Lasting f) (kept : w.book.Kept) (h : c.exec env w = .ok w')
    (quiet : ∀ contract e terms, c ≠ .syncEventConfig contract e terms)
    (unextended : ∀ admin e ledgers, c ≠ .extendWithdrawalDelay admin e ledgers) :
    w'.book.setting f = w.book.setting f := by
  by_cases configures : .configure ∈ c.entries
  · cases c with
    | syncEventConfig contract e terms => exact absurd rfl (quiet contract e terms)
    | extendWithdrawalDelay admin e ledgers => exact absurd rfl (unextended admin e ledgers)
    | withdraw => exact withdraw_setting lasting kept h
    | withdrawRevenue => exact withdrawRevenue_setting lasting kept h
    | _ => simp [Call.entries] at configures
  · obtain ⟨ps, posts, sound, effect⟩ := exec_written kept h
    rw [← effect]
    exact run_setting lasting sound fun posting mem eq => configures (eq ▸ posts.entries mem)

theorem extendWithdrawalDelay_ok {admin : Address} {ledgers : ℕ}
    (h : extendWithdrawalDelay env admin e ledgers w = .ok w') :
    ∃ config, w.book.config e = some config ∧ w'.book.terms = w.book.terms ∧
      w'.book.extension = Function.update w.book.extension e
        (config.adminDelayExtensionLedgers + ledgers) := by
  simp only [extendWithdrawalDelay, bind_eq_ok, pure_eq_ok, okOr_eq_ok, u32_eq_ok] at h
  obtain ⟨-, -, config, stored, _, ⟨-, rfl⟩, rfl⟩ := h
  let extended : EventConfig :=
    { config with adminDelayExtensionLedgers := config.adminDelayExtensionLedgers + ledgers }
  have effect : (w.setEventConfig e extended).book =
      w.book.post env.currentContract (.configure e extended) := World.book_set_eventConfig w e _
  have before : w.book.setting (·.terms) e = some extended.terms := congrArg (Option.map _) stored
  refine ⟨config, stored, ?_, ?_⟩
  · change (w.setEventConfig e extended).book.setting (·.terms) = w.book.setting (·.terms)
    rw [effect, setting_configure, ← before, Function.update_eq_self]
  · funext e'
    rw [extension_eq, effect, setting_configure]
    by_cases same : e' = e
    · subst same
      simp [extended]
    · simp [same, extension_eq]

theorem exec_terms (kept : w.book.Kept) (h : c.exec env w = .ok w')
    (quiet : ∀ contract e terms, c ≠ .syncEventConfig contract e terms) :
    w'.book.terms = w.book.terms := by
  by_cases extends_ : ∃ admin e ledgers, c = .extendWithdrawalDelay admin e ledgers
  · obtain ⟨admin, e, ledgers, rfl⟩ := extends_
    obtain ⟨-, -, same, -⟩ := extendWithdrawalDelay_ok h
    exact same
  · exact exec_setting lasting_terms kept h quiet
      fun admin e ledgers same => extends_ ⟨admin, e, ledgers, same⟩

theorem requireEventContract_ok {contract : Address} {u : Unit}
    (h : requireEventContract env w contract = .ok u) :
    w.book.eventContract = some contract ∧ env.authorized contract = true := by
  simp only [requireEventContract, bind_eq_ok, require_eq_ok, requireAuth_eq_ok,
    World.getEventContract, okOr_eq_ok] at h
  obtain ⟨stored, known, -, rfl, signed⟩ := h
  exact ⟨known, signed⟩

theorem syncEventConfig_ok {contract : Address} {terms : EventTerms}
    (h : syncEventConfig env contract e terms w = .ok w') :
    w.book.eventContract = some contract ∧ env.authorized contract = true ∧
      w'.book.terms = Function.update w.book.terms e (some terms) ∧
      w'.book.status = w.book.status := by
  simp only [syncEventConfig, bind_eq_ok] at h
  obtain ⟨-, -, u, contract_ok, token, -, -, -, h⟩ := h
  obtain ⟨known, signed⟩ := requireEventContract_ok contract_ok
  have stores (config : EventConfig) (same : config.terms = terms) :
      (w.setEventConfig e config).book.terms = Function.update w.book.terms e (some terms) := by
    have effect : (w.setEventConfig e config).book =
        w.book.post env.currentContract (.configure e config) := World.book_set_eventConfig w e _
    rw [← same]
    exact (congrArg (Book.setting _) effect).trans setting_configure
  split at h
  · cases h
    exact ⟨known, signed, stores _ rfl, rfl⟩
  · simp only [bind_eq_ok, pure_eq_ok] at h
    obtain ⟨-, -, -, -, rfl⟩ := h
    exact ⟨known, signed, stores _ rfl, rfl⟩

theorem syncEventConfig_extension {contract : Address} {terms : EventTerms}
    (h : syncEventConfig env contract e terms w = .ok w') :
    w'.book.extension = w.book.extension := by
  have stores (config : EventConfig) (same : config.adminDelayExtensionLedgers = w.book.extension e) :
      (w.setEventConfig e config).book.extension = w.book.extension := by
    have effect : (w.setEventConfig e config).book =
        w.book.post env.currentContract (.configure e config) := World.book_set_eventConfig w e _
    funext e'
    rw [extension_eq, effect, setting_configure, same, extension_eq, extension_eq]
    by_cases same : e' = e
    · subst same
      simp
    · simp [same]
  simp only [syncEventConfig, bind_eq_ok] at h
  obtain ⟨-, -, -, -, token, -, -, -, h⟩ := h
  have known : w.book.config e = w.getEventConfig e := rfl
  split at h <;> rename_i stored
  · cases h
    refine stores _ ?_
    rw [Book.extension, known, stored]
    rfl
  · simp only [bind_eq_ok, pure_eq_ok] at h
    obtain ⟨-, -, -, -, rfl⟩ := h
    refine stores _ ?_
    rw [Book.extension, known, stored]
    rfl

theorem exec_extension (kept : w.book.Kept) (h : c.exec env w = .ok w')
    (unextended : ∀ admin e ledgers, c ≠ .extendWithdrawalDelay admin e ledgers) :
    w'.book.extension = w.book.extension := by
  by_cases syncs : ∃ contract e terms, c = .syncEventConfig contract e terms
  · obtain ⟨contract, e, terms, rfl⟩ := syncs
    exact syncEventConfig_extension h
  · funext e
    rw [extension_eq, extension_eq, exec_setting lasting_extension kept h
      (fun contract e terms same => syncs ⟨contract, e, terms, same⟩) unextended]

theorem organizedConfig_ok {organizer : Address} {config : EventConfig}
    (h : organizedConfig env w e organizer = .ok config) :
    w.book.config e = some config ∧ config.organizer = organizer ∧
      ∃ contract, w.book.eventContract = some contract ∧ env.authorized contract = true := by
  simp only [organizedConfig, bind_eq_ok, pure_eq_ok, okOr_eq_ok, require_eq_ok, requireAuth_eq_ok,
    World.getEventContract] at h
  obtain ⟨contract, known, -, signed, _, stored, -, own, rfl⟩ := h
  exact ⟨stored, own, contract, known, signed⟩

theorem cancelEvent_ok {organizer : Address} (h : cancelEvent env e organizer w = .ok w') :
    ∃ config contract, w.book.config e = some config ∧ w.book.eventContract = some contract ∧
      env.authorized contract = true ∧
      w'.book.status = Function.update w.book.status e (some .cancelled) ∧
      w'.book.config = Function.update w.book.config e (some { config with
        cancelLedger := some env.sequence
        withdrawableRatioBps := some (cancellationRatio config env.sequence) }) ∧
      w'.book.payment = w.book.payment := by
  simp only [cancelEvent, bind_eq_ok, pure_eq_ok] at h
  obtain ⟨config, organized, rfl⟩ := h
  obtain ⟨stored, -, contract, known, signed⟩ := organizedConfig_ok organized
  refine ⟨config, contract, stored, known, signed, ?_⟩
  rw [World.setEventStatus, World.book_set_eventStatus, World.setEventConfig,
    World.book_set_eventConfig]
  exact ⟨rfl, rfl, rfl⟩

theorem postponeEvent_ok {organizer : Address} {deadline : ℕ}
    (h : postponeEvent env e organizer deadline w = .ok w') :
    ∃ contract, w.book.eventContract = some contract ∧ env.authorized contract = true ∧
      w'.book.status = Function.update w.book.status e (some .postponed) := by
  simp only [postponeEvent, bind_eq_ok, pure_eq_ok] at h
  obtain ⟨-, -, config, organized, rfl⟩ := h
  obtain ⟨-, -, contract, known, signed⟩ := organizedConfig_ok organized
  exact ⟨contract, known, signed, congrArg (fun b : Book => b.status) (World.book_set_eventStatus w e .postponed)⟩

theorem resumeEvent_ok {organizer : Address} (h : resumeEvent env e organizer w = .ok w') :
    ∃ contract, w.book.eventContract = some contract ∧ env.authorized contract = true ∧
      w'.book.status = Function.update w.book.status e (some .active) := by
  simp only [resumeEvent, bind_eq_ok, pure_eq_ok] at h
  obtain ⟨-, -, config, organized, -, -, rfl⟩ := h
  obtain ⟨-, -, contract, known, signed⟩ := organizedConfig_ok organized
  exact ⟨contract, known, signed, congrArg (fun b : Book => b.status) (World.book_set_eventStatus w e .active)⟩

end Calls

end Zicket.Payments
