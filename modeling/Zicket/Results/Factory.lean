import Zicket.Attendance.Footprint
import Zicket.Factory.Contract
import Zicket.Linked.Effects
import Zicket.Refinement.Terms

/-! Event contracts that the factory deploys: all are linked with the factory's payments contract,
which takes the calls of one event contract only. -/

namespace Zicket.Factory

open Host Foundation Linked

variable {σ : Type} {derive : Derivation} {net : Events.Network σ} {d : Deployment} {env : Env}
  {w w' : World σ} {t p a : Address} {e : Symbol}

def DataKey.IsLink : DataKey → Bool
  | .admin | .eventWasm | .ticketContract | .paymentsContract => true
  | _ => false

structure World.Linked (w : World σ) (t p : Address) : Prop where
  initialized : w.isInitialized = true
  tickets : w.get .ticketContract = some t
  payments : w.get .paymentsContract = some p

structure Instance.Linked (i : Instance) (t p : Address) : Prop where
  tickets : i.storage.get .ticketContract = some t
  payments : i.storage.get .paymentsContract = some p

/-- The deployed contract accepts the event, with what it is linked with in this state. -/
def Accepts (links : Links) (deployed : Address × Instance) (s : Outside) (invocation : Invocation)
    (params : Events.CreateEventParams) : Prop :=
  (Events.Call.createEvent params).succeeds links.network
    ⟨⟨deployed.1, links.crypto⟩, links.signed invocation⟩ (deployed.2.enter s) = true

instance (links : Links) (deployed : Address × Instance) (s : Outside) (invocation : Invocation)
    (params : Events.CreateEventParams) : Decidable (Accepts links deployed s invocation params) :=
  inferInstanceAs (Decidable (_ = true))

section Deployment

theorem World.Linked.congr (linked : w.Linked t p)
    (same : ∀ k : DataKey, k.IsLink = true → w'.get k = w.get k) : w'.Linked t p := by
  have has (k : DataKey) (link : k.IsLink = true) : w'.has k = w.has k :=
    congrArg Option.isSome (same k link)
  refine ⟨?_, (same _ rfl).trans linked.tickets, (same _ rfl).trans linked.payments⟩
  rw [← linked.initialized]
  simp only [World.isInitialized, has .admin rfl, has .eventWasm rfl, has .ticketContract rfl,
    has .paymentsContract rfl]

theorem saveDeployedEvent_frame {event : DeployedEvent}
    (h : w.saveDeployedEvent event = .ok w') :
    w'.instances = w.instances ∧ ∀ k : DataKey, k.IsLink = true → w'.get k = w.get k := by
  simp only [World.saveDeployedEvent, bind_eq_ok, pure_eq_ok] at h
  obtain ⟨-, -, rfl⟩ := h
  refine ⟨rfl, fun k link => ?_⟩
  have aside {k' : DataKey} (other : k'.IsLink = false) : k ≠ k' := by
    rintro rfl
    rw [link] at other
    cases other
  refine (Store.get_set_of_ne _ _ (aside rfl)).trans ?_
  exact (Store.get_set_of_ne _ _ (aside rfl)).trans (Store.get_set_of_ne _ _ (aside rfl))

theorem callInitialize_ok {organizer : Address}
    (h : callInitialize net env a organizer t p w = .ok w') :
    w'.storage = w.storage ∧
      ∃ i : Instance, i.Linked t p ∧ w'.instances = Function.update w.instances a (some i) := by
  simp only [callInitialize, bind_eq_ok, orFail_eq_ok, pure_eq_ok] at h
  obtain ⟨i, -, w₁, answered, rfl⟩ := h
  cases initialized : Events.initializeContract net (Links.calling env a) organizer t p
      (i.enter w.outside) with
  | error failure =>
    rw [initialized] at answered
    cases answered
  | ok w₂ =>
    rw [initialized] at answered
    obtain rfl : w₂ = w₁ := Option.some.inj answered
    simp only [Events.initializeContract, bind_eq_ok, pure_eq_ok] at initialized
    obtain ⟨-, -, rfl⟩ := initialized
    refine ⟨rfl, _, ⟨?_, Store.get_set_self _ _ _⟩, rfl⟩
    exact (Store.get_set_of_ne _ _ (by simp)).trans (Store.get_set_self _ _ _)

/-- A deployment takes a free address and leaves an event contract with the factory's links. -/
theorem deployEvent_ok {organizer : Address} {salt : BytesN 32} (linked : w.Linked t p)
    (h : deployEvent derive net env organizer e salt w = .ok (a, w')) :
    w.instances a = none ∧ w'.Linked t p ∧
      ∃ i : Instance, i.Linked t p ∧ w'.instances = Function.update w.instances a (some i) := by
  simp only [deployEvent, deployInstance, deployV2, bind_eq_ok, pure_eq_ok, ensure_eq_ok,
    World.getTicketContract, World.getPaymentsContract, okOr_eq_ok, Option.isNone_iff_eq_none] at h
  obtain ⟨-, -, -, -, -, -, _, tickets, _, payments, ⟨address, w₁⟩, ⟨_, ⟨-, free, rfl⟩, w₂, called,
    same⟩, w₃, saved, result⟩ := h
  cases same
  cases result
  obtain rfl := Option.some.inj (linked.tickets.symm.trans tickets)
  obtain rfl := Option.some.inj (linked.payments.symm.trans payments)
  obtain ⟨storage, i, links, instances⟩ := callInitialize_ok called
  obtain ⟨kept, frame⟩ := saveDeployedEvent_frame saved
  refine ⟨free, linked.congr fun k link => (frame k link).trans (congrArg (Store.get · k) storage),
    i, links, kept.trans (instances.trans (Function.update_idem ..))⟩

end Deployment

section Runs

variable {past : List (Address × Instance)}

theorem there_update {f : Address → Option Instance} (b : Address) (i : Instance)
    (there : (f a).isSome) : (Function.update f b (some i) a).isSome := by
  rw [Function.update_apply]
  split
  · rfl
  · exact there

theorem exec_linked {c : Call} (linked : w.Linked t p) (h : c.exec derive net env w = .ok w') :
    w'.Linked t p ∧ ∀ a, (w.instances a).isSome → (w'.instances a).isSome := by
  cases c with
  | initialise admin eventWasmHash ticketContract paymentsContract =>
    simp only [Call.exec, initializeContract, linked.initialized, if_true, pure_eq_ok] at h
    exact ⟨h ▸ linked, fun a => h ▸ id⟩
  | deployEvent organizer e salt =>
    simp only [Call.exec, bind_eq_ok, pure_eq_ok] at h
    obtain ⟨⟨address, _⟩, deployed, rfl⟩ := h
    obtain ⟨-, linked', i, -, instances⟩ := deployEvent_ok linked deployed
    refine ⟨linked', fun a there => ?_⟩
    rw [instances]
    exact there_update address i there
  | migrate admin =>
    simp only [Call.exec, migrate, bind_eq_ok, pure_eq_ok] at h
    obtain ⟨⟨version, _⟩, ⟨-, -, -, -, -, -, _, -, -, -, same⟩, rfl⟩ := h
    cases same
    refine ⟨linked.congr fun k link => Store.get_set_of_ne _ _ ?_, fun a there => there⟩
    rintro rfl
    cases link

theorem next_linked (derive : Derivation) (net : Events.Network σ) (d : Deployment)
    (linked : w.Linked t p) (step : Step σ) :
    (w.next derive net d step).Linked t p ∧
      ∀ a, (w.instances a).isSome → ((w.next derive net d step).instances a).isSome := by
  cases step with
  | factory invocation c =>
    exact commit_induction ⟨linked, fun _ there => there⟩ fun w' h => exec_linked linked h
  | event address invocation c =>
    rw [World.next]
    split
    · exact ⟨linked, fun _ there => there⟩
    · exact ⟨linked.congr fun _ _ => rfl, fun a there => there_update address _ there⟩
  | elsewhere outside => exact ⟨linked.congr fun _ _ => rfl, fun _ there => there⟩

theorem deploys_linked {step : Step σ} {i : Instance} (linked : w.Linked t p)
    (h : deploys derive net d w step = some (a, i)) :
    w.instances a = none ∧ ((w.next derive net d step).instances a).isSome ∧ i.Linked t p := by
  unfold deploys at h
  split at h
  · rename_i invocation organizer e salt
    split at h
    · rename_i address w₁ deployed
      obtain ⟨free, -, i', links, instances⟩ := deployEvent_ok linked deployed
      rw [instances, Function.update_self] at h
      cases h
      have next : w.next derive net d (.factory invocation (.deployEvent organizer e salt)) = w₁ := by
        rw [World.next, Call.exec, deployed]
        rfl
      rw [next, instances, Function.update_self]
      exact ⟨free, rfl, links⟩
    · cases h
  · cases h

/-- The deployments so far, last first: at different addresses, each linked as the factory is. -/
structure World.Deployed (w : World σ) (t p : Address) (past : List (Address × Instance)) :
    Prop where
  linked : w.Linked t p
  distinct : past.Pairwise fun later earlier => later.1 ≠ earlier.1
  there : ∀ x ∈ past, (w.instances x.1).isSome ∧ x.2.Linked t p

theorem next_deployed (h : w.Deployed t p past) (step : Step σ) :
    (w.next derive net d step).Deployed t p ((deploys derive net d w step).toList ++ past) := by
  obtain ⟨linked, stay⟩ := next_linked derive net d h.linked step
  have there : ∀ x ∈ past, ((w.next derive net d step).instances x.1).isSome ∧ x.2.Linked t p :=
    fun x mem => ⟨stay _ (h.there x mem).1, (h.there x mem).2⟩
  cases deployed : deploys derive net d w step with
  | none => exact ⟨linked, h.distinct, there⟩
  | some x =>
    obtain ⟨free, now, links⟩ := deploys_linked h.linked deployed
    refine ⟨linked, .cons (fun y mem same => ?_) h.distinct, fun y mem => ?_⟩
    · have before := (h.there y mem).1
      rw [← same, free] at before
      cases before
    · obtain rfl | mem := List.mem_cons.mp mem
      · exact ⟨now, links⟩
      · exact there y mem

theorem accepts_known {links : Links} {deployed : Address × Instance} {s : Outside}
    {invocation : Invocation} {params : Events.CreateEventParams}
    (linked : deployed.2.Linked links.tickets links.payments)
    (accepted : Accepts links deployed s invocation params) :
    s.payments.book.eventContract = some deployed.1 := by
  obtain ⟨w', result⟩ := Events.succeeds_iff.mp accepted
  simp only [Events.Call.exec, bind_eq_ok, pure_eq_ok] at result
  obtain ⟨⟨event, w₁⟩, created, rfl⟩ := result
  have wired : ends (deployed.2.enter s) = (some links.tickets, some links.payments) :=
    Prod.ext linked.tickets linked.payments
  obtain ⟨ms, ⟨o, -, -, -, -, more, -, rfl⟩, next, synced, -⟩ := createEvent_effect wired created
  obtain ⟨payments, result, -⟩ := Links.deliver_payments.mp synced
  exact (Payments.syncEventConfig_ok result).1

end Runs

/-- Of two event contracts that a linked factory deploys, not both accept an event in the same
state of the payments contract. -/
theorem deployed_events_exclude (derive : Derivation) (links : Links) (d : Deployment)
    (w : World Outside) (steps : List (Step Outside))
    (linked : w.Linked links.tickets links.payments) :
    (told (World.next derive links.network d) (deploys derive links.network d) w steps).Pairwise
      fun later earlier => ∀ s invocation invocation' params params',
        ¬ (Accepts links later s invocation params ∧
          Accepts links earlier s invocation' params') := by
  have always : Along (World.next derive links.network d) (fun _ _ => True) w steps :=
    along_of_forall (fun _ _ => trivial) w steps
  have run := told_invariant
    (I := fun past (w : World Outside) => w.Deployed links.tickets links.payments past)
    (fun past w step h _ => next_deployed h step) always ⟨linked, .nil, nofun⟩
  rw [List.append_nil] at run
  refine run.distinct.imp_of_mem fun {later earlier} last first differ => ?_
  rintro s invocation invocation' params params' ⟨accepted, accepted'⟩
  have known := accepts_known (run.there later last).2 accepted
  have known' := accepts_known (run.there earlier first).2 accepted'
  exact differ (Option.some.inj (known.symm.trans known'))

namespace Sample

export Linked.Sample (links setup params organizer concert festival invocation)

def zeros : BytesN 32 := Vector.replicate 32 0

def ones : BytesN 32 := Vector.replicate 32 1

def derivation : Derivation := fun _ salt => if salt = zeros then links.events else ⟨14⟩

def deployment : Deployment := { currentContract := ⟨20⟩, crypto := links.crypto }

def linked : Outside := (links.opened setup).outside

def factory : World Outside :=
  World.next derivation links.network deployment
    { storage := .empty, instances := fun _ => none, outside := linked, events := [] }
    (.factory (invocation 1) (.initialise setup.admin ones links.tickets links.payments))

def deployments : List (Step Outside) :=
  [.factory (invocation 2) (.deployEvent organizer concert zeros),
    .factory (invocation 3) (.deployEvent organizer festival ones)]

def deployed : List (Address × Instance) :=
  told (World.next derivation links.network deployment) (deploys derivation links.network deployment)
    factory deployments

end Sample

theorem deployed_events_exclude_sample :
    Sample.deployed.Pairwise fun later earlier => ∀ s invocation invocation' params params',
      ¬ (Accepts Sample.links later s invocation params ∧
        Accepts Sample.links earlier s invocation' params') :=
  deployed_events_exclude Sample.derivation Sample.links Sample.deployment Sample.factory
    Sample.deployments ⟨by decide, rfl, rfl⟩

/-- The payments contract is set up and not paused, and pays out the token of the event. The event
contract that is deployed first announces the event, the second cannot. -/
theorem second_deployed_event_refused :
    Sample.linked.payments.isInitialized = true ∧ Sample.linked.payments.isPaused = false ∧
      Sample.linked.payments.get .acceptedToken = some Sample.params.payoutToken ∧
      (Sample.deployed.map fun deployed => decide
        (Accepts Sample.links deployed Sample.linked (Sample.invocation 4) Sample.params)) =
          [false, true] := by
  decide

end Zicket.Factory
