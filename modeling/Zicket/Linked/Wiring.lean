import Zicket.Linked.Effects
import Zicket.Refinement.Calls
import Zicket.Registry.Calls

/-! What holds of the linked contracts whatever they are asked: they know each other's
addresses, the payments contract keeps its book and the ticket contract its registry. -/

namespace Zicket.Linked

open Host Foundation

variable {links : Links} {env : Env} {w w' : World} {s s' : Outside}

/-- The linked contracts answer to the event contract, and their records are in order. -/
structure Outside.Kept (links : Links) (s : Outside) : Prop where
  eventContract : s.payments.book.eventContract = some links.events
  book : s.payments.book.Kept
  minter : s.tickets.get .eventContract = some links.events
  registry : s.tickets.registry.Kept

structure Wired (links : Links) (w : World) : Prop where
  ends : ends w = (some links.tickets, some links.payments)
  outside : w.outside.Kept links

def KeepsLinks (links : Links) (w : World) (step : Step) : Prop :=
  links.succeeds w step = true → match step with
  | .events _ (.initialise _ ticketContract paymentsContract) =>
    ticketContract = links.tickets ∧ paymentsContract = links.payments
  | .tickets _ (.setEventContract _ eventContract) => eventContract = links.events
  | _ => True

instance (w : World) (step : Step) : Decidable (KeepsLinks links w step) := by
  unfold KeepsLinks
  split <;> infer_instance

section Payments

open Payments Payments.Book

theorem post_eventContract {self : Address} {b : Book} {posting : Posting} {a : Address}
    (known : b.eventContract = some a) (sound : Sound self b posting) :
    (b.post self posting).eventContract = some a := by
  cases posting with
  | start admin token eventContract feeBps =>
    obtain ⟨-, -, unknown, -⟩ := sound
    rw [known] at unknown
    cases unknown
  | resale ticket t price fee royalty buyer seller =>
    change (recordResale self b ticket t price (price - fee - royalty) buyer seller).eventContract = _
    unfold recordResale
    dsimp only
    split
    · exact known
    · exact known
  | _ => exact known

theorem exec_book {w w' : Payments.World} {c : Payments.Call} {a : Address}
    (kept : w.book.Kept) (known : w.book.eventContract = some a) (h : c.exec env w = .ok w') :
    w'.book.Kept ∧ w'.book.eventContract = some a := by
  obtain ⟨ps, -, sound, effect⟩ := exec_written kept h
  rw [← effect]
  have step : ∀ (b : Book) posting, b.eventContract = some a → Sound env.currentContract b posting →
      (b.post env.currentContract posting).eventContract = some a :=
    fun _ _ => post_eventContract
  exact ⟨run_kept sound kept, run_invariant step sound known⟩

end Payments

section Tickets

open Tickets

variable {w w' : Tickets.World}

/-! Only `set_event_contract` writes who may mint. -/

theorem exec_minter {c : Tickets.Call} {a : Address} (known : w.get .eventContract = some a)
    (same : ∀ admin contract, c = .setEventContract admin contract → contract = a)
    (h : c.exec env w = .ok w') : w'.get .eventContract = some a := by
  cases c with
  | mintTicket =>
    simp only [Call.exec, mintTicket, bind_eq_ok, pure_eq_ok] at h
    obtain ⟨_, ⟨-, -, w₁, issued, _, -, rfl⟩, rfl⟩ := h
    exact (World.issueTicket_annex issued).2.trans known
  | batchMintTicket =>
    simp only [Call.exec, batchMintTicket, bind_eq_ok, pure_eq_ok] at h
    obtain ⟨_, ⟨-, -, -, -, ⟨_, _, w₁⟩, issued, rfl⟩, rfl⟩ := h
    exact (issueTickets_annex issued).2.trans known
  | transferTicket =>
    simp only [Call.exec, transferTicket, bind_eq_ok, pure_eq_ok] at h
    obtain ⟨-, -, -, -, _, -, -, -, -, -, -, -, -, -, w₁, owned, rfl⟩ := h
    have same := (World.addOwnerTicket_annex owned).trans (World.removeOwnerTicket_annex ..)
    exact (congrArg World.Annex.eventContract same).trans known
  | adminTransferTicket =>
    simp only [Call.exec, adminTransferTicket, bind_eq_ok, pure_eq_ok] at h
    obtain ⟨-, -, _, -, -, -, _, -, -, -, -, -, w₁, owned, rfl⟩ := h
    have same := (World.addOwnerTicket_annex owned).trans (World.removeOwnerTicket_annex ..)
    exact (congrArg World.Annex.eventContract same).trans known
  | recoverTicket =>
    simp only [Call.exec, recoverTicket, bind_eq_ok, pure_eq_ok] at h
    obtain ⟨_, -, -, -, _, -, -, -, w₁, owned, rfl⟩ := h
    have same := (World.addOwnerTicket_annex owned).trans (World.removeOwnerTicket_annex ..)
    exact (congrArg World.Annex.eventContract same).trans known
  | useTicket =>
    simp only [Call.exec, useTicket, bind_eq_ok, pure_eq_ok] at h
    obtain ⟨-, -, -, -, _, -, -, -, -, -, -, -, -, -, -, -, rfl⟩ := h
    exact known
  | cancelTicket =>
    simp only [Call.exec, cancelTicket, bind_eq_ok, pure_eq_ok] at h
    obtain ⟨-, -, _, -, -, -, -, -, -, -, rfl⟩ := h
    exact known
  | setRecoveryKey =>
    simp only [Call.exec, setRecoveryKey, bind_eq_ok, pure_eq_ok] at h
    obtain ⟨-, -, _, -, -, -, -, -, rfl⟩ := h
    exact known
  | initialise =>
    simp only [Call.exec, initializeContract, bind_eq_ok, pure_eq_ok] at h
    obtain ⟨-, -, -, -, rfl⟩ := h
    exact known
  | setPaymentsContract =>
    simp only [Call.exec, setPaymentsContract, bind_eq_ok, pure_eq_ok] at h
    obtain ⟨-, -, rfl⟩ := h
    exact known
  | setEventContract admin contract =>
    simp only [Call.exec, setEventContract, bind_eq_ok, pure_eq_ok] at h
    obtain ⟨-, -, rfl⟩ := h
    exact congrArg some (same admin contract rfl)
  | migrate =>
    simp only [Call.exec, migrate, bind_eq_ok, pure_eq_ok] at h
    obtain ⟨_, ⟨-, -, -, -, rfl⟩, rfl⟩ := h
    exact known

theorem exec_registry {c : Tickets.Call} (kept : w.registry.Kept) (h : c.exec env w = .ok w') :
    w'.registry.Kept := by
  obtain ⟨cs, -, sound, effect⟩ := exec_made kept h
  rw [← effect]
  exact Registry.run_kept sound kept

end Tickets

section Next

theorem deliver_kept {m : Message} (kept : s.Kept links)
    (same : ∀ admin contract, m = .tickets (.setEventContract admin contract) →
      contract = links.events)
    (h : links.deliver env s m = some s') : s'.Kept links := by
  cases m with
  | payments c =>
    obtain ⟨payments, called, rfl⟩ := Links.deliver_payments.mp h
    obtain ⟨book, eventContract⟩ := exec_book kept.book kept.eventContract called
    exact { kept with book, eventContract }
  | tickets c =>
    obtain ⟨tickets, called, rfl⟩ := Links.deliver_tickets.mp h
    have minter := exec_minter kept.minter (fun admin contract eq => same admin contract (eq ▸ rfl)) called
    exact { kept with minter, registry := exec_registry kept.registry called }

theorem delivered_kept {ms : List Message} (kept : s.Kept links)
    (same : ∀ admin contract, .tickets (.setEventContract admin contract) ∈ ms →
      contract = links.events)
    (h : links.Delivered env s ms s') : s'.Kept links := by
  induction ms generalizing s with
  | nil =>
    cases h
    exact kept
  | cons m ms ih =>
    obtain ⟨next, first, rest⟩ := h
    refine ih (deliver_kept kept ?_ first) (fun admin contract mem => ?_) rest
    · rintro admin contract rfl
      exact same admin contract (List.mem_cons_self ..)
    · exact same admin contract (List.mem_cons_of_mem _ mem)

theorem Effect.names_itself {ms : List Message} {c : Events.Call} (effect : Effect env w w' ms c)
    {admin contract : Address} (mem : .tickets (.setEventContract admin contract) ∈ ms) :
    contract = env.currentContract := by
  have charges {nonce : ℕ} {payer : Address} {e : Symbol} {price amount : ℤ}
      {emailHash : Option (BytesN 32)} {charge : List Message}
      (h : Charges env nonce payer e price amount emailHash charge) :
      .tickets (.setEventContract admin contract) ∉ charge := by
    obtain ⟨-, rfl⟩ | ⟨-, -, token, rfl⟩ := h <;> simp
  cases c <;> simp only [Effect] at effect <;> grind

theorem Effect.ends {ms : List Message} {c : Events.Call} (effect : Effect env w w' ms c)
    (relinks : ∀ admin t p, c ≠ .initialise admin t p) : ends w' = ends w := by
  cases c <;> simp only [Effect, Becomes] at effect <;> grind

theorem events_succeeds {invocation : Invocation} {c : Events.Call} :
    links.succeeds w (.events invocation c) = true ↔
      ∃ w', c.exec links.network ⟨links.eventsAt, links.signed invocation⟩ w = .ok w' := by
  change Except.isOk _ = true ↔ _
  cases c.exec links.network ⟨links.eventsAt, links.signed invocation⟩ w <;>
    simp [Except.isOk, Except.toBool]

theorem next_payments_ok {invocation : Invocation} {c : Payments.Call} {payments : Payments.World}
    (result : c.exec ⟨links.paymentsAt, links.toPayments invocation w.outside.tickets⟩
      w.outside.payments = .ok payments) :
    links.next w (.payments invocation c) =
      { w with outside := { payments, tickets := links.transferred invocation c w.outside } } := by
  have accepted : links.nextOutside w.outside (.payments invocation c) =
      { payments, tickets := links.transferred invocation c w.outside } := by
    rw [Links.nextOutside]
    refine (if_pos (Payments.succeeds_iff.mpr ⟨payments, result⟩)).trans ?_
    rw [Payments.World.next, result, commit_ok]
  exact congrArg (fun outside => { w with outside }) accepted

theorem next_tickets_ok {invocation : Invocation} {c : Tickets.Call} {tickets : Tickets.World}
    (result : c.exec ⟨links.ticketsAt, links.signed invocation⟩ w.outside.tickets = .ok tickets) :
    links.next w (.tickets invocation c) =
      { w with outside := { w.outside with tickets } } := by
  change { w with outside := { w.outside with
    tickets := commit w.outside.tickets (c.exec _ w.outside.tickets) } } = _
  rw [result, commit_ok]

theorem next_events_ok {invocation : Invocation} {c : Events.Call}
    (result : c.exec links.network ⟨links.eventsAt, links.signed invocation⟩ w = .ok w') :
    links.next w (.events invocation c) = w' := by
  rw [Links.next, Events.World.next, result, commit_ok]

theorem Wired.events {invocation : Invocation} {c : Events.Call} (wired : Wired links w)
    (success : links.succeeds w (.events invocation c) = true) :
    ∃ ms, Effect ⟨links.eventsAt, links.signed invocation⟩ w (links.next w (.events invocation c))
        ms c ∧
      links.Delivered ⟨links.eventsAt, links.signed invocation⟩ w.outside ms
        (links.next w (.events invocation c)).outside := by
  obtain ⟨w', result⟩ := events_succeeds.mp success
  rw [next_events_ok result]
  exact exec_effect wired.ends result

theorem next_failed {step : Step} (failed : ¬ links.succeeds w step = true) :
    links.next w step = w := by
  cases step with
  | events invocation c =>
    rw [Links.next, Events.World.next]
    cases result : c.exec links.network ⟨links.eventsAt, links.signed invocation⟩ w with
    | error error => rfl
    | ok w' => exact absurd (events_succeeds.mpr ⟨w', result⟩) failed
  | payments invocation c =>
    have refused : links.nextOutside w.outside (.payments invocation c) = w.outside := if_neg failed
    exact congrArg (fun outside => { w with outside }) refused
  | tickets invocation c =>
    have refused : w.outside.tickets.next links.ticketsAt ⟨links.signed invocation, c⟩ =
        w.outside.tickets := Tickets.next_failed failed
    exact congrArg (fun tickets => { w with outside := { w.outside with tickets } }) refused
  | mint => exact absurd rfl failed
  | pay => exact absurd rfl failed

theorem payments_next {invocation : Invocation} {c : Payments.Call}
    (success : links.succeeds w (.payments invocation c) = true) :
    ∃ payments, c.exec ⟨links.paymentsAt, links.toPayments invocation w.outside.tickets⟩
        w.outside.payments = .ok payments ∧
      links.next w (.payments invocation c) =
        { w with outside :=
          { payments, tickets := links.transferred invocation c w.outside } } := by
  obtain ⟨payments, result⟩ := Payments.succeeds_iff.mp success
  exact ⟨payments, result, next_payments_ok result⟩

theorem transferred_kept (invocation : Invocation) (c : Payments.Call) (kept : s.Kept links) :
    (links.transferred invocation c s).get .eventContract = some links.events ∧
      (links.transferred invocation c s).registry.Kept := by
  unfold Links.transferred
  split
  · rename_i transfer found
    refine commit_induction (P := fun t : Tickets.World =>
      t.get .eventContract = some links.events ∧ t.registry.Kept) ⟨kept.minter, kept.registry⟩ fun tickets moved => ⟨?_, ?_⟩
    · refine exec_minter kept.minter (fun admin contract eq => ?_) moved
      subst eq
      unfold Links.transferOf at found
      split at found
      · simp at found
      · cases found
    · exact exec_registry kept.registry moved
  · exact ⟨kept.minter, kept.registry⟩

theorem token_kept (kept : s.Kept links) (step : Payments.Step) :
    Outside.Kept links { s with payments := s.payments.next links.paymentsAt step } := by
  obtain ⟨ps, -, sound, effect⟩ := Payments.next_wrote kept.book step
  have keeps : ∀ (b : Payments.Book) posting, b.eventContract = some links.events →
      Payments.Book.Sound links.paymentsAt.currentContract b posting →
      (b.post links.paymentsAt.currentContract posting).eventContract = some links.events :=
    fun _ _ => post_eventContract
  have known := run_invariant keeps sound kept.eventContract
  exact
    { kept with
      eventContract := effect ▸ known
      book := Payments.next_kept _ step kept.book }

theorem next_wired {step : Step} (wired : Wired links w) (keeps : KeepsLinks links w step) :
    Wired links (links.next w step) := by
  by_cases success : links.succeeds w step = true
  · cases step with
    | events invocation c =>
      obtain ⟨ms, effect, sent⟩ := wired.events success
      refine ⟨?_, delivered_kept wired.outside (fun admin contract mem => effect.names_itself mem) sent⟩
      by_cases relinks : ∃ admin t p, c = .initialise admin t p
      · obtain ⟨admin, t, p, rfl⟩ := relinks
        obtain ⟨rfl, rfl⟩ := keeps success
        exact effect.2.1
      · rw [effect.ends fun admin t p same => relinks ⟨admin, t, p, same⟩]
        exact wired.ends
    | payments invocation c =>
      obtain ⟨payments, called, next⟩ := payments_next success
      obtain ⟨book, eventContract⟩ := exec_book wired.outside.book wired.outside.eventContract called
      obtain ⟨minter, registry⟩ := transferred_kept invocation c wired.outside
      rw [next]
      exact ⟨wired.ends, ⟨eventContract, book, minter, registry⟩⟩
    | tickets invocation c =>
      obtain ⟨tickets, called⟩ := Tickets.succeeds_iff.mp success
      have minter := exec_minter wired.outside.minter
        (fun admin contract eq => by subst eq; exact keeps success) called
      have registry := exec_registry wired.outside.registry called
      rw [next_tickets_ok called]
      exact ⟨wired.ends, { wired.outside with minter, registry }⟩
    | mint token dst amount => exact ⟨wired.ends, token_kept wired.outside _⟩
    | pay token src dst amount => exact ⟨wired.ends, token_kept wired.outside _⟩
  · rw [next_failed success]
    exact wired

def LinkedRun (links : Links) (setup : Setup) (steps : List Step) : Prop :=
  Along links.next (KeepsLinks links) (links.opened setup) steps

instance (setup : Setup) (steps : List Step) : Decidable (LinkedRun links setup steps) :=
  decidableAlong ..

theorem opened_wired (links : Links) (setup : Setup) : Wired links (links.opened setup) := by
  have sound : Payments.Book.Sound links.payments (Payments.deployed setup.balances).book
      (.start setup.admin setup.token links.events setup.feeBps) :=
    ⟨rfl, rfl, rfl, setup.feeBps_le⟩
  exact
    { ends := rfl
      outside :=
        { eventContract := rfl
          book := Payments.Book.post_kept (Payments.deployed_kept setup.balances) sound
          minter := rfl
          registry := Tickets.deployed_kept } }

theorem run_wired {steps : List Step} (along : Along links.next (KeepsLinks links) w steps)
    (wired : Wired links w) : Wired links (run links.next w steps) :=
  run_invariant (fun _ _ => next_wired) along wired

theorem linking_opens (links : Links) (setup : Setup) (invocation : Invocation)
    (signs : (links.signed invocation).authorized setup.admin = true) :
    run links.next setup.deployed (links.linking setup invocation) = links.opened setup := by
  have auth {E : Type} (d : Deployment) :
      (requireAuth ⟨d, links.signed invocation⟩ setup.admin : Except (Failure E) Unit) = .ok () :=
    requireAuth_eq_ok.mpr signs
  let payments₁ := (((((Payments.deployed setup.balances).setAdmin setup.admin).setAcceptedToken
    setup.token).setPlatformFeeBps setup.feeBps).setPlatformWallet setup.wallet).setEventContract
      links.events
  let tickets₁ := (Tickets.deployed.set .admin setup.admin).set .paymentsContract links.payments
  have first : Payments.initializeContract setup.admin setup.token setup.feeBps setup.wallet
      links.events (Payments.deployed setup.balances) = .ok payments₁ := by
    refine (if_neg Bool.false_ne_true).trans ?_
    exact bind_eq_ok.mpr ⟨(), Payments.require_eq_ok.mpr setup.feeBps_le, rfl⟩
  have second : Payments.setTicketContract ⟨links.paymentsAt, links.toPayments invocation
      Tickets.deployed⟩ setup.admin links.tickets payments₁ = .ok (payments₁.setTicketContract links.tickets) := by
    refine bind_eq_ok.mpr ⟨(), bind_eq_ok.mpr ⟨setup.admin, rfl, ?_⟩, rfl⟩
    exact bind_eq_ok.mpr ⟨(), Payments.require_eq_ok.mpr rfl, requireAuth_eq_ok.mpr signs⟩
  have third : Tickets.initializeContract ⟨links.ticketsAt, links.signed invocation⟩ setup.admin
      links.payments Tickets.deployed = .ok tickets₁ :=
    bind_eq_ok.mpr ⟨(), Tickets.require_eq_ok.mpr rfl, bind_eq_ok.mpr ⟨(), auth _, rfl⟩⟩
  have fourth : Tickets.setEventContract (Links.calling ⟨links.eventsAt, links.signed invocation⟩
      links.tickets) setup.admin links.events tickets₁ =
        .ok (tickets₁.set .eventContract links.events) := by
    refine bind_eq_ok.mpr ⟨(), bind_eq_ok.mpr ⟨(), requireAuth_eq_ok.mpr ?_, ?_⟩, rfl⟩
    · exact Bool.or_eq_true_iff.mpr (.inl signs)
    · exact bind_eq_ok.mpr ⟨setup.admin, rfl, Tickets.require_eq_ok.mpr rfl⟩
  let outside₃ : Outside :=
    { payments := payments₁.setTicketContract links.tickets, tickets := tickets₁ }
  have last : links.callTickets ⟨links.eventsAt, links.signed invocation⟩ links.tickets
      (.setEventContract setup.admin links.events) outside₃ = some (links.opened setup).outside :=
    Links.deliver_tickets.mpr ⟨_, fourth, rfl⟩
  have linked : Events.initializeContract links.network ⟨links.eventsAt, links.signed invocation⟩
      setup.admin links.tickets links.payments (Events.deployed outside₃) = .ok (links.opened setup) := by
    refine bind_eq_ok.mpr ⟨(), auth _, congrArg Except.ok ?_⟩
    exact congrArg (fun outside => { links.opened setup with outside }) (congrArg (·.getD outside₃) last)
  have step₁ : links.next setup.deployed (.payments invocation (.initialise setup.admin setup.token
      setup.feeBps setup.wallet links.events)) =
        Events.deployed { payments := payments₁, tickets := Tickets.deployed } :=
    next_payments_ok first
  have step₂ : links.next (Events.deployed { payments := payments₁, tickets := Tickets.deployed })
      (.payments invocation (.setTicketContract setup.admin links.tickets)) = Events.deployed
        { payments := payments₁.setTicketContract links.tickets, tickets := Tickets.deployed } :=
    next_payments_ok second
  have step₃ : links.next (Events.deployed { payments := payments₁.setTicketContract links.tickets, tickets := Tickets.deployed })
      (.tickets invocation (.initialise setup.admin links.payments)) = Events.deployed outside₃ :=
    next_tickets_ok third
  rw [Links.linking, run_cons, step₁, run_cons, step₂, run_cons, step₃, run_cons, run_nil]
  exact next_events_ok linked

end Next

end Zicket.Linked
