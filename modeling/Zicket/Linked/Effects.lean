import Zicket.Inventory.Calls
import Zicket.Linked.Messages

/-! What each operation of the event contract does to an event's outline, the part of it that
the payments contract keeps a copy of, and which messages it sends. -/

namespace Zicket.Linked

open Host Foundation Events
open Payments (EventTerms)

variable {links : Links} {env : Env} {w w' : World} {s s' : Outside} {e : Symbol} {a : Address}

structure Outline where
  eventId : Symbol
  status : EventStatus
  terms : EventTerms

def outlineOf (event : Event) : Outline :=
  { eventId := event.eventId, status := event.status, terms := event.terms }

def outline (w : World) (e : Symbol) : Option Outline := (w.roster.event e).map outlineOf

def ends (w : World) : Option Address × Option Address :=
  (w.roster.ticketContract, w.roster.paymentsContract)

def Becomes (w w' : World) (outlines : Symbol → Option Outline) : Prop :=
  outline w' = outlines ∧ ends w' = ends w

def Charges (env : Env) (nonce : ℕ) (payer : Address) (e : Symbol) (price amount : ℤ)
    (emailHash : Option (BytesN 32)) (ms : List Message) : Prop :=
  (price ≤ 0 ∧ ms = []) ∨ (0 < price ∧ payer ≠ env.currentContract ∧ ∃ token,
    ms = [.payments (.payForTicket nonce payer e amount emailHash token .standard none none)])

def PricedAt (w : World) (e : Symbol) (tierId : ℕ) (price : ℤ) : Prop := ∃ event index tier,
  w.roster.event e = some event ∧ event.findTier tierId = .ok (index, tier) ∧ tier.price = price

/-- What a successful call checked, wrote and sent. -/
def Effect (env : Env) (w w' : World) (ms : List Message) : Call → Prop
  | .initialise admin ticketContract paymentsContract =>
    outline w' = outline w ∧ ends w' = (some ticketContract, some paymentsContract) ∧
      (ms = [] ∨ ms = [.tickets (.setEventContract admin env.currentContract)])
  | .createEvent params => ∃ o, outline w params.eventId = none ∧ o.status = .upcoming ∧
    o.eventId = params.eventId ∧
    Becomes w w' (Function.update (outline w) params.eventId (some o)) ∧ ∃ more,
      (more = [] ∨ ∃ splits, more =
        [.payments (.syncRevenueSplits env.currentContract params.eventId splits)]) ∧
      ms = .payments (.syncEventConfig env.currentContract params.eventId o.terms) :: more
  | .updateEventDetails params => ∃ o terms, outline w params.eventId = some o ∧
    o.status = .upcoming ∧ terms.eventStartLedger = o.terms.eventStartLedger ∧
    terms.eventEndLedger = o.terms.eventEndLedger ∧
    Becomes w w' (Function.update (outline w) params.eventId (some { o with terms })) ∧
    ms = [.payments (.syncEventConfig env.currentContract params.eventId terms)]
  | .addTicketTier _ e _ _ capacity => ∃ o, outline w e = some o ∧ o.status = .upcoming ∧
    0 < capacity ∧ Becomes w w' (Function.update (outline w) e
      (some { o with terms := { o.terms with maxSupply := o.terms.maxSupply + capacity } })) ∧
    ms = []
  | .updateTier _ e tierId _ _ capacity => ∃ o event index tier maxSupply,
    w.roster.event e = some event ∧ event.findTier tierId = .ok (index, tier) ∧
    outline w e = some o ∧ o.status = .upcoming ∧
    maxSupply + tier.capacity = o.terms.maxSupply + capacity.getD tier.capacity ∧
    Becomes w w' (Function.update (outline w) e
      (some { o with terms := { o.terms with maxSupply } })) ∧
    ms = []
  | .updateEventStatus _ e newStatus => ∃ o, outline w e = some o ∧
    (o.status = .upcoming ∧ newStatus = .active ∨ o.status = .active ∧ newStatus = .completed) ∧
    Becomes w w' (Function.update (outline w) e (some { o with status := newStatus })) ∧ ms = []
  | .cancelEvent organizer e => ∃ o, outline w e = some o ∧ o.status ≠ .completed ∧
    o.status ≠ .cancelled ∧
    Becomes w w' (Function.update (outline w) e (some { o with status := .cancelled })) ∧
    ms = [.payments (.cancelEvent e organizer)]
  | .postponeEvent organizer e _ choiceWindowLedgers => ∃ o, outline w e = some o ∧
    o.status = .active ∧
    Becomes w w' (Function.update (outline w) e (some { o with status := .postponed })) ∧
    ms = [.payments (.postponeEvent e organizer (env.sequence + choiceWindowLedgers))]
  | .finalizePostponement organizer e => ∃ o terms, outline w e = some o ∧
    o.status = .postponed ∧
    Becomes w w' (Function.update (outline w) e (some { o with status := .active, terms })) ∧
    ms = [.payments (.syncEventConfig env.currentContract e terms),
      .payments (.resumeEvent e organizer)]
  | .requestPostponementRefund attendee ticketId => Becomes w w' (outline w) ∧
    ∃ ticket o revocable, w.outside.payments.getTicket ticketId = .ok ticket ∧
      outline w ticket.eventId = some o ∧ o.status = .postponed ∧
      firstRevocableOf w.outside.tickets attendee ticket.eventId = some revocable ∧
      ms = [.payments (.requestPostponementRefund attendee ticketId),
        .tickets (.cancelTicket revocable attendee)]
  | .registerForEvent nonce attendee e tierId emailHash => Becomes w w' (outline w) ∧
    ∃ o price charge, outline w e = some o ∧ o.status = .active ∧ PricedAt w e tierId price ∧
      Charges env nonce attendee e price price emailHash charge ∧
      ms = charge ++ [.tickets (.mintTicket o.eventId o.terms.organizer attendee)]
  | .batchRegisterForEvent nonce attendee e tierId count emailHash => Becomes w w' (outline w) ∧
    ∃ o price amount charge, outline w e = some o ∧ o.status = .active ∧
      PricedAt w e tierId price ∧ 0 < count ∧
      Charges env nonce attendee e price amount emailHash charge ∧
      ms = charge ++ [.tickets (.batchMintTicket o.eventId o.terms.organizer attendee count)]
  | .verifyAndAttend e _ _ => Becomes w w' (outline w) ∧ (ms = [] ∨
    ∃ o, outline w e = some o ∧ o.status = .active ∧
      ms = [.tickets (.mintTicket o.eventId o.terms.organizer env.currentContract)])
  | .withdrawRevenue organizer e => Becomes w w' (outline w) ∧
    ms = [.payments (.withdrawRevenue e organizer)]
  | .withdrawSplit recipient e => Becomes w w' (outline w) ∧
    ms = [.payments (.withdrawSplit recipient e)]
  | .flagCohost primary e recipient => Becomes w w' (outline w) ∧
    ms = [.payments (.flagCohost primary e recipient)]
  | .reserveTicket .. | .releaseExpiredReservation .. | .claimAnonymousTicket ..
  | .setEventPrivacy .. | .setClaimSettings .. | .setAnonymousClaimVerifier ..
  | .setAnonClaimSettings .. | .setZkConfig .. | .migrate .. => Becomes w w' (outline w) ∧ ms = []

section Becomes

theorem becomes_same (same : w'.roster = w.roster) : Becomes w w' (outline w) := by
  unfold Becomes outline ends
  rw [same]
  exact ⟨rfl, rfl⟩

theorem outline_of_event {event : Event} (stored : w.roster.event e = some event) :
    outline w e = some (outlineOf event) := by
  rw [outline, stored]
  rfl

theorem outline_eq_none (absent : w.roster.event e = none) : outline w e = none := by
  rw [outline, absent]
  rfl

theorem becomes_write {event : Event} {held : Symbol → Address → Option ℕ}
    (h : w'.roster = { w.roster.putEvent e event with held }) :
    Becomes w w' (Function.update (outline w) e (some (outlineOf event))) := by
  unfold Becomes ends
  refine ⟨?_, by rw [h]; rfl⟩
  funext e'
  unfold outline
  rw [h, Roster.putEvent]
  by_cases same : e' = e
  · subst same
    simp
  · simp [same]

theorem becomes_reseated {event : Event} (edited : Event) (held : Symbol → Address → Option ℕ)
    (stored : w.roster.event e = some event) (like : outlineOf edited = outlineOf event)
    (h : w'.roster = { w.roster.putEvent e edited with held }) : Becomes w w' (outline w) := by
  have write := becomes_write h
  rw [like, ← outline_of_event stored, Function.update_eq_self] at write
  exact write

end Becomes

section Sent

variable {call : Address → Outside → Option Outside} {outside : Outside}

theorem payments_end (wired : ends w = (some links.tickets, some links.payments)) {p : Address}
    (payments : w.roster.paymentsContract = some p) : p = links.payments :=
  Option.some.inj (payments.symm.trans (Prod.ext_iff.mp wired).2)

theorem tickets_end (wired : ends w = (some links.tickets, some links.payments)) {t : Address}
    (tickets : w.roster.ticketContract = some t) : t = links.tickets :=
  Option.some.inj (tickets.symm.trans (Prod.ext_iff.mp wired).1)

theorem told_linked (wired : ends w = (some links.tickets, some links.payments))
    (told : w.Told call outside) : call links.payments w.outside = some outside := by
  obtain ⟨tickets, payments⟩ := Prod.ext_iff.mp wired
  have tickets : w.roster.ticketContract = some links.tickets := tickets
  have payments : w.roster.paymentsContract = some links.payments := payments
  have linked : w.roster.Linked := by
    unfold Roster.Linked
    rw [tickets, payments]
    exact ⟨rfl, rfl⟩
  obtain ⟨p, stored, call⟩ := told.1 linked
  obtain rfl := payments_end wired stored
  exact call

theorem syncThen_sent {event : Event} {more : List Message}
    {rest : Address → Outside → Option Outside}
    (sends : ∀ s s', rest links.payments s = some s' → links.Delivered env s more s')
    {s : Outside} (h : syncThen links.network env e event rest links.payments s = some outside) :
    links.Delivered env s
      (.payments (.syncEventConfig env.currentContract e event.terms) :: more) outside := by
  obtain ⟨next, synced, rest⟩ := Option.bind_eq_some_iff.mp h
  exact ⟨next, synced, sends _ _ rest⟩

theorem charge_sent {nonce : ℕ} {payer : Address} {price amount : ℤ}
    {emailHash : Option (BytesN 32)} {s : Outside}
    (h : charge links.network env nonce payer e price amount emailHash links.payments s = some s') :
    ∃ ms, Charges env nonce payer e price amount emailHash ms ∧ links.Delivered env s ms s' := by
  unfold charge at h
  split at h
  · rename_i priced
    obtain ⟨⟨token, next⟩, asked, paid⟩ := Option.bind_eq_some_iff.mp h
    have asked : links.askPayments links.payments (·.getAcceptedToken) s = some (token, next) := asked
    obtain ⟨-, rfl⟩ := Links.askPayments_same asked
    simp only [Links.network] at paid
    split at paid
    · cases paid
    · rename_i other
      exact ⟨_, .inr ⟨priced, other, token, rfl⟩, Links.delivered_singleton.mpr paid⟩
  · rename_i free
    cases h
    exact ⟨[], .inl ⟨not_lt.mp free, rfl⟩, rfl⟩

end Sent

section Exec

theorem sale_outline {tierId count : ℕ} (sale : Sale w.roster w'.roster e a tierId count) :
    Becomes w w' (outline w) ∧ outline w e = some (outlineOf sale.event) :=
  ⟨becomes_reseated (sale.event.sell sale.index (sale.tier.offered sale.hasRes) count)
    (put w.roster.held e a none) sale.stored rfl sale.roster, outline_of_event sale.stored⟩

theorem quiet_effect {c : Call} (same : w'.roster = w.roster) (outside : w'.outside = w.outside)
    (quiet : Becomes w w' (outline w) ∧ ([] : List Message) = [] → Effect env w w' [] c) :
    ∃ ms, Effect env w w' ms c ∧ links.Delivered env w.outside ms w'.outside :=
  ⟨[], quiet ⟨becomes_same same, rfl⟩, outside⟩

theorem initialise_effect {admin t p : Address}
    (h : initializeContract links.network env admin t p w = .ok w') :
    ∃ ms, Effect env w w' ms (.initialise admin t p) ∧
      links.Delivered env w.outside ms w'.outside := by
  simp only [initializeContract, bind_eq_ok, pure_eq_ok] at h
  obtain ⟨-, -, rfl⟩ := h
  change ∃ ms, (_ ∧ _ ∧ _) ∧ links.Delivered env w.outside ms
    ((links.callTickets env t (.setEventContract admin env.currentContract) w.outside).getD w.outside)
  cases told : links.callTickets env t (.setEventContract admin env.currentContract) w.outside with
  | none => exact ⟨[], ⟨rfl, rfl, .inl rfl⟩, rfl⟩
  | some outside =>
    have here : t = links.tickets := by
      by_contra elsewhere
      rw [Links.callTickets, if_neg elsewhere] at told
      cases told
    subst here
    exact ⟨_, ⟨rfl, rfl, .inr rfl⟩, Links.delivered_singleton.mpr told⟩

variable (wired : ends w = (some links.tickets, some links.payments))

include wired

theorem createEvent_effect {params : CreateEventParams} {event : Event}
    (h : createEvent links.network env params w = .ok (event, w')) :
    ∃ ms, Effect env w w' ms (.createEvent params) ∧ links.Delivered env w.outside ms w'.outside := by
  obtain ⟨tiers, maxSupply, -, rfl, absent, roster, told⟩ := createEvent_spec h
  have announced := told_linked wired told
  obtain ⟨next, asked, synced⟩ := Option.bind_eq_some_iff.mp announced
  have same : next = w.outside := by
    obtain ⟨⟨token, next'⟩, told, rfl⟩ := Option.map_eq_some_iff.mp asked
    have told : links.askPayments links.payments (·.getAcceptedToken) w.outside =
      some (token, next') := told
    exact (Links.askPayments_same told).2
  subst same
  have splits : ∀ s s', tellSplits links.network env params.eventId params.revenueSplits
      links.payments s = some s' → links.Delivered env s (if params.revenueSplits.isEmpty then [] else
        [.payments (.syncRevenueSplits env.currentContract params.eventId params.revenueSplits)]) s' := by
    intro s s' h
    unfold tellSplits at h
    split at h
    · rename_i empty
      cases h
      rw [if_pos empty]
      exact rfl
    · rename_i given
      rw [if_neg given, Links.delivered_singleton]
      exact h
  refine ⟨_, ⟨outlineOf _, outline_eq_none absent, rfl, rfl, becomes_write roster, _, ?_, rfl⟩,
    syncThen_sent splits synced⟩
  split
  · exact .inl rfl
  · exact .inr ⟨_, rfl⟩

theorem updateEventDetails_effect {params : UpdateEventParams} {edited : Event}
    (h : updateEventDetails links.network env params w = .ok (edited, w')) :
    ∃ ms, Effect env w w' ms (.updateEventDetails params) ∧
      links.Delivered env w.outside ms w'.outside := by
  obtain ⟨event, stored, upcoming, same, roster, told⟩ := updateEventDetails_spec h
  have silent : ∀ s s', (some s : Option Outside) = some s' → links.Delivered env s [] s' := by
    intro s s' h
    cases h
    exact rfl
  have renamed : outlineOf edited = { outlineOf event with terms := edited.terms } := by
    unfold outlineOf
    rw [same.eventId, same.status]
  have write : Becomes w w' (Function.update (outline w) params.eventId (some (outlineOf edited))) :=
    becomes_write roster
  rw [renamed] at write
  exact ⟨_, ⟨outlineOf event, edited.terms, outline_of_event stored, upcoming, same.eventStartLedger,
    same.eventEndLedger, write, rfl⟩, syncThen_sent silent (told_linked wired told)⟩

theorem finalizePostponement_effect {organizer : Address}
    (h : finalizePostponement links.network env organizer e w = .ok w') :
    ∃ ms, Effect env w w' ms (.finalizePostponement organizer e) ∧
      links.Delivered env w.outside ms w'.outside := by
  obtain ⟨event, start, stop, stored, -, postponed, roster, told⟩ := finalizePostponement_spec h
  have resumes : ∀ s s', links.network.resumeEvent env links.payments e organizer s = some s' →
      links.Delivered env s [.payments (.resumeEvent e organizer)] s' :=
    fun s s' sent => Links.delivered_singleton.mpr
      (show links.deliver env s (.payments (.resumeEvent e organizer)) = some s' from sent)
  exact ⟨_, ⟨outlineOf event, _, outline_of_event stored, postponed, becomes_write roster, rfl⟩,
    syncThen_sent resumes (told_linked wired told)⟩

section Sales

variable {nonce tierId count : ℕ} {emailHash : Option (BytesN 32)}

theorem registerForEvent_effect
    (h : registerForEvent links.network env nonce a e tierId emailHash w = .ok w') :
    ∃ ms, Effect env w w' ms (.registerForEvent nonce a e tierId emailHash) ∧
      links.Delivered env w.outside ms w'.outside := by
  obtain ⟨sale, p, t, payments, tickets, sold⟩ := registerForEvent_spec h
  obtain rfl := tickets_end wired tickets
  obtain rfl := payments_end wired payments
  obtain ⟨next, charged, minted⟩ := Option.bind_eq_some_iff.mp sold
  obtain ⟨ms, charges, sent⟩ := charge_sent charged
  obtain ⟨becomes, stored⟩ := sale_outline sale
  have priced : PricedAt w e tierId sale.tier.price := ⟨_, _, _, sale.stored, sale.found, rfl⟩
  exact ⟨_, ⟨becomes, _, _, ms, stored, sale.active, priced, charges, rfl⟩,
    Links.delivered_append.mpr ⟨next, sent, Links.delivered_singleton.mpr minted⟩⟩

theorem batchRegisterForEvent_effect
    (h : batchRegisterForEvent links.network env nonce a e tierId count emailHash w = .ok w') :
    ∃ ms, Effect env w w' ms (.batchRegisterForEvent nonce a e tierId count emailHash) ∧
      links.Delivered env w.outside ms w'.outside := by
  obtain ⟨positive, sale, p, t, amount, queried, payments, tickets, looked, sold⟩ :=
    batchRegisterForEvent_spec h
  obtain rfl := tickets_end wired tickets
  obtain rfl := payments_end wired payments
  obtain rfl := queried_same looked
  obtain ⟨next, charged, minted⟩ := Option.bind_eq_some_iff.mp sold
  obtain ⟨ms, charges, sent⟩ := charge_sent charged
  obtain ⟨becomes, stored⟩ := sale_outline sale
  have priced : PricedAt w e tierId sale.tier.price := ⟨_, _, _, sale.stored, sale.found, rfl⟩
  exact ⟨_, ⟨becomes, _, _, _, ms, stored, sale.active, priced, positive, charges, rfl⟩,
    Links.delivered_append.mpr ⟨next, sent, Links.delivered_singleton.mpr minted⟩⟩

theorem verifyAndAttend_effect {claim : ZkPassportClaim}
    (h : verifyAndAttend links.network env e tierId claim w = .ok w') :
    ∃ ms, Effect env w w' ms (.verifyAndAttend e tierId claim) ∧
      links.Delivered env w.outside ms w'.outside := by
  obtain ⟨event, index, tier, stored, active, -, roster, outside⟩ := verifyAndAttend_spec h
  have becomes : Becomes w w' (outline w) :=
    becomes_reseated (event.sell index tier 1) w.roster.held stored rfl roster
  obtain same | ⟨p, t, payments, tickets, attended⟩ := outside
  · exact ⟨[], ⟨becomes, .inl rfl⟩, same⟩
  · obtain rfl := tickets_end wired tickets
    obtain rfl := payments_end wired payments
    obtain ⟨next, charged, minted⟩ := Option.bind_eq_some_iff.mp attended
    obtain ⟨ms, charges, sent⟩ := charge_sent charged
    -- the event contract cannot pay for the ticket
    obtain ⟨-, rfl⟩ | ⟨-, other, -⟩ := charges
    · cases sent
      exact ⟨_, ⟨becomes, .inr ⟨_, outline_of_event stored, active, rfl⟩⟩,
        Links.delivered_singleton.mpr minted⟩
    · exact absurd rfl other

theorem requestPostponementRefund_effect {ticketId : ℕ}
    (h : requestPostponementRefund links.network env a ticketId w = .ok w') :
    ∃ ms, Effect env w w' ms (.requestPostponementRefund a ticketId) ∧
      links.Delivered env w.outside ms w'.outside := by
  obtain ⟨same, p, t, ticket, event, s₁, w₂, first, s₃, s₄, payments, tickets, asked, stored,
    postponed, scan, refunded, revoked, looked⟩ := requestPostponementRefund_spec h
  obtain rfl := tickets_end wired tickets
  obtain rfl := payments_end wired payments
  have asked : links.askPayments links.payments (·.getTicket ticketId) w.outside =
    some (ticket, s₁) := asked
  obtain ⟨held, rfl⟩ := Links.askPayments_same asked
  obtain ⟨rfl, found⟩ := firstRevocable_same scan
  have settled := queried_same looked
  refine ⟨_, ⟨becomes_same same, ticket, _, first, held, outline_of_event stored, postponed,
    found.symm, rfl⟩, s₃, refunded, ?_⟩
  rw [Links.delivered_singleton, settled]
  exact revoked

end Sales

/-- Every successful call of the event contract has its effect and sends its messages. -/
theorem exec_effect {c : Call} (h : c.exec links.network env w = .ok w') :
    ∃ ms, Effect env w w' ms c ∧ links.Delivered env w.outside ms w'.outside := by
  cases c with
  | initialise => exact initialise_effect h
  | createEvent params =>
    simp only [Call.exec, bind_eq_ok, pure_eq_ok] at h
    obtain ⟨⟨event, w₁⟩, created, rfl⟩ := h
    exact createEvent_effect wired created
  | updateEventDetails params =>
    simp only [Call.exec, bind_eq_ok, pure_eq_ok] at h
    obtain ⟨⟨edited, w₁⟩, updated, rfl⟩ := h
    exact updateEventDetails_effect wired updated
  | addTicketTier organizer e name price capacity =>
    simp only [Call.exec, bind_eq_ok, pure_eq_ok] at h
    obtain ⟨⟨tier, w₁⟩, added, rfl⟩ := h
    obtain ⟨event, stored, upcoming, -, rfl, positive, -, rfl⟩ := addTicketTier_spec added
    exact ⟨[], ⟨outlineOf event, outline_of_event stored, upcoming, positive,
      becomes_write (World.roster_saveEvent ..), rfl⟩, rfl⟩
  | updateTier organizer e tierId name price capacity =>
    obtain ⟨event, index, tier, edited, maxSupply, stored, upcoming, found, same, supply, rfl⟩ :=
      updateTier_spec h
    have resized : edited.capacity = capacity.getD tier.capacity := by rw [same]
    rw [resized] at supply
    exact ⟨[], ⟨outlineOf event, event, index, tier, maxSupply, stored, found,
      outline_of_event stored, upcoming, supply, becomes_write (World.roster_saveEvent ..), rfl⟩, rfl⟩
  | updateEventStatus organizer e newStatus =>
    obtain ⟨event, stored, transition, roster, outside⟩ := updateEventStatus_spec h
    exact ⟨[], ⟨outlineOf event, outline_of_event stored, transition, becomes_write roster, rfl⟩,
      outside⟩
  | cancelEvent organizer e =>
    obtain ⟨event, stored, -, unfinished, open_, roster, told⟩ := cancelEvent_spec h
    exact ⟨_, ⟨outlineOf event, outline_of_event stored, unfinished, open_, becomes_write roster,
      rfl⟩, Links.delivered_singleton.mpr (told_linked wired told)⟩
  | postponeEvent organizer e newDateLedger choiceWindowLedgers =>
    obtain ⟨event, stored, -, active, roster, told⟩ := postponeEvent_spec h
    exact ⟨_, ⟨outlineOf event, outline_of_event stored, active, becomes_write roster, rfl⟩,
      Links.delivered_singleton.mpr (told_linked wired told)⟩
  | finalizePostponement organizer e => exact finalizePostponement_effect wired h
  | requestPostponementRefund attendee ticketId =>
    exact requestPostponementRefund_effect wired h
  | reserveTicket attendee e tierId =>
    obtain ⟨outside, rfl | ⟨event, stored, -, tiers, -, -, roster⟩⟩ := reserveTicket_spec h
    · exact quiet_effect rfl rfl id
    · exact ⟨[], ⟨becomes_reseated { event with tiers } (put w.roster.held e attendee (some tierId)) stored rfl
        roster, rfl⟩, outside⟩
  | releaseExpiredReservation e attendee =>
    obtain ⟨outside, event, stored, tiers, -, -, -, roster⟩ := releaseExpiredReservation_spec h
    exact ⟨[], ⟨becomes_reseated { event with tiers } (put w.roster.held e attendee none) stored rfl
      roster, rfl⟩, outside⟩
  | registerForEvent => exact registerForEvent_effect wired h
  | batchRegisterForEvent => exact batchRegisterForEvent_effect wired h
  | withdrawRevenue organizer e =>
    simp only [Call.exec, withdrawRevenue, bind_eq_ok, World.tell_eq_ok] at h
    obtain ⟨-, -, -, -, -, -, p, payments, _, told, rfl⟩ := h
    obtain rfl := payments_end wired (okOr_eq_ok.mp payments)
    exact ⟨_, ⟨becomes_same rfl, rfl⟩, Links.delivered_singleton.mpr told⟩
  | setEventPrivacy =>
    obtain ⟨roster, outside⟩ := storeSetting_roster (fun _ => rfl) h
    exact quiet_effect roster outside id
  | setClaimSettings =>
    obtain ⟨roster, outside⟩ := storeSetting_roster (fun _ => rfl) h
    exact quiet_effect roster outside id
  | setAnonymousClaimVerifier =>
    simp only [Call.exec, setAnonymousClaimVerifier, bind_eq_ok, pure_eq_ok] at h
    obtain ⟨-, -, -, -, rfl⟩ := h
    exact quiet_effect rfl rfl id
  | claimAnonymousTicket e tierId claim =>
    obtain rfl | ⟨event, index, tier, verifier, inputs, stored, -, roster, outside⟩ :=
      claimAnonymousTicket_spec h
    · exact quiet_effect rfl rfl id
    · exact ⟨[], ⟨becomes_reseated (event.sell index tier 1) w.roster.held stored rfl roster, rfl⟩, outside⟩
  | setAnonClaimSettings =>
    obtain ⟨roster, outside⟩ := storeSetting_roster (fun _ => rfl) h
    exact quiet_effect roster outside id
  | verifyAndAttend => exact verifyAndAttend_effect wired h
  | setZkConfig =>
    obtain ⟨roster, outside⟩ := storeSetting_roster (fun _ => rfl) h
    exact quiet_effect roster outside id
  | migrate =>
    simp only [Call.exec, migrate, bind_eq_ok, pure_eq_ok] at h
    obtain ⟨_, ⟨-, -, -, -, rfl⟩, rfl⟩ := h
    exact quiet_effect rfl rfl id
  | withdrawSplit recipient e =>
    simp only [Call.exec, withdrawSplit, bind_eq_ok, World.tell_eq_ok] at h
    obtain ⟨-, -, -, -, p, payments, _, told, rfl⟩ := h
    obtain rfl := payments_end wired (okOr_eq_ok.mp payments)
    exact ⟨_, ⟨becomes_same rfl, rfl⟩, Links.delivered_singleton.mpr told⟩
  | flagCohost primary e recipient =>
    simp only [Call.exec, flagCohost, bind_eq_ok, World.tell_eq_ok] at h
    obtain ⟨-, -, -, -, p, payments, _, told, rfl⟩ := h
    obtain rfl := payments_end wired (okOr_eq_ok.mp payments)
    exact ⟨_, ⟨becomes_same rfl, rfl⟩, Links.delivered_singleton.mpr told⟩

end Exec

end Zicket.Linked
