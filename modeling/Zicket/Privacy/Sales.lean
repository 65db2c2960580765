import Zicket.Privacy.Footprint

/-! What a purchase writes aside: the commitment it spends, its nonce, and the index entries of
a Standard payer. A resale moves index entries. -/

namespace Zicket.Payments

open Host Foundation

def Call.params : Call → Option PaymentParams
  | .payForTicket nonce payer eventId amount emailHash tokenAddress privacyLevel
      nullifierCommitment stealthDeliveryKey =>
    some { nonce, payer, eventId, amount, tokenAddress, isAnonymous := false, isVerified := false,
           privacyLevel, emailHash, zkEmailCommitment := none, nullifierCommitment,
           stealthDeliveryKey }
  | .payForTicketWithCommitment nonce payer eventId amount emailHash tokenAddress privacyLevel
      zkEmailCommitment =>
    some { nonce, payer, eventId, amount, tokenAddress, isAnonymous := false, isVerified := false,
           privacyLevel, emailHash, zkEmailCommitment, nullifierCommitment := none,
           stealthDeliveryKey := none }
  | .payForTicketWithOptions nonce payer eventId amount tokenAddress isAnonymous isVerified =>
    some { nonce, payer, eventId, amount, tokenAddress, isAnonymous, isVerified,
           privacyLevel := .standard, emailHash := none, zkEmailCommitment := none,
           nullifierCommitment := none, stealthDeliveryKey := none }
  | _ => none

def DataKey.IsTicket : DataKey → Bool
  | .ticket _ => true
  | _ => false

def DataKey.IsPayerEntry : DataKey → Bool
  | .payerPayment _ _ | .payerPaymentIndex _ _ | .payerPaymentsCount _ => true
  | _ => false

def DataKey.IsOwnerEntry : DataKey → Bool
  | .ownerTicket _ _ | .ownerTicketIndex _ _ | .ownerTicketsCount _ => true
  | _ => false

def DataKey.IsFinal (k : DataKey) : Bool := k.IsAside || k.IsTicket

/-- A successful purchase, as the entries aside and the ticket see it. -/
structure Sells (env : Env) (params : PaymentParams) (w w' : World) (id : ℕ) where
  p : PaymentRecord
  ticketId : ℕ
  (paid spent counted indexed ticketed owned : World)
  unpaused : w.isPaused = false
  unused : nonceUsed env w params = false
  allowed : validatePaymentPrivacy w params.eventId params.isAnonymous params.isVerified = .ok ()
  built : buildPaymentRecord env params id env.timestamp = .ok p
  pays : w.Leaves DataKey.IsAside paid
  spends : spendNullifier paid p = .ok spent
  counts : spent.Leaves DataKey.IsAside counted
  indexes : indexPayer counted params p = .ok indexed
  tickets : (recordNonce env indexed params p).Leaves DataKey.IsAside ticketed
  ticket : ticketed.get (.ticket ticketId) = some (buildTicket p ticketId)
  owns : indexOwner ticketed params p ticketId = .ok owned
  ends : owned.Leaves DataKey.IsFinal w'

variable {env : Env} {params : PaymentParams} {w w' : World}

theorem exec_params {c : Call} (pays : c.params = some params) :
    c.exec env w = (do
      let (_, w) ← createPayment env params w
      return w) := by
  cases c with
  | payForTicket | payForTicketWithCommitment | payForTicketWithOptions =>
    cases pays
    rfl
  | _ => cases pays

section Steps

variable {P : DataKey → Bool} (w)

theorem tryTransfer_leaves (tr : Transfer) : Yields (tryTransfer w tr) (w.Leaves P) := by
  unfold tryTransfer
  split
  · rename_i w' sent
    exact .pure (transfer_leaves w w' sent)
  · exact .error _

theorem emitReceipt_leaves (id : ℕ) : w.Leaves P (emitReceipt env w params id) := by
  unfold emitReceipt
  split
  · exact .refl _ w
  · exact .refl _ w

section Marks

variable (other : ∀ k : DataKey, k.IsReplay = true → P k = false)

include other

theorem spendNullifier_leaves (p : PaymentRecord) : Yields (spendNullifier w p) (w.Leaves P) := by
  unfold spendNullifier
  split
  · exact .pure (.refl _ w)
  · exact .skip fun _ => .pure (.set _ (other _ rfl))

theorem recordNonce_leaves (p : PaymentRecord) : w.Leaves P (recordNonce env w params p) := by
  unfold recordNonce
  split
  · exact .set _ (other _ rfl)
  · exact .set _ (other _ rfl)
  · split
    · exact .set _ (other _ rfl)
    · exact .refl _ w

end Marks

theorem indexPayer_leaves (other : ∀ k : DataKey, k.IsPayerEntry = true → P k = false)
    (p : PaymentRecord) : Yields (indexPayer w params p) (w.Leaves P) := by
  unfold indexPayer
  split
  · exact .after ((World.Leaves.set _ (other _ rfl)).trans (.set _ (other _ rfl)))
      (written_leaves (other _ rfl))
  · exact .pure (.refl _ w)

section Owners

variable (other : ∀ k : DataKey, k.IsOwnerEntry = true → P k = false)

include other

theorem addOwnerTicketMap_leaves (o : Address) (id : ℕ) :
    Yields (w.addOwnerTicketMap o id) (w.Leaves P) :=
  .after ((World.Leaves.set _ (other _ rfl)).trans (.set _ (other _ rfl)))
    (written_leaves (other _ rfl))

theorem removeOwnerTicketMap_leaves (o : Address) (id : ℕ) :
    w.Leaves P (w.removeOwnerTicketMap o id) := by
  have removed : w.Leaves P (w.remove (.ownerTicket o id)) := .remove (other _ rfl)
  have closed (w : World) (last : ℕ) : w.Leaves P
      ((w.remove (.ownerTicketIndex o last)).set (.ownerTicketsCount o) last) :=
    .trans (.remove (other _ rfl)) (.set _ (other _ rfl))
  unfold World.removeOwnerTicketMap
  dsimp only
  split
  · exact removed
  · split
    · exact removed
    · refine removed.trans (.trans ?_ (closed _ _))
      split
      · split
        · exact (World.Leaves.set _ (other _ rfl)).trans (.set _ (other _ rfl))
        · exact .refl _ _
      · exact .refl _ _

theorem indexOwner_leaves (p : PaymentRecord) (id : ℕ) :
    Yields (indexOwner w params p id) (w.Leaves P) := by
  unfold indexOwner
  split
  · exact addOwnerTicketMap_leaves w other _ _
  · exact .pure (.refl _ w)

end Owners

variable (free : ∀ k : DataKey, k.IsRoutine = true → P k = false)

include free

theorem countUserTicket_leaves : Yields (countUserTicket env w params) (w.Leaves P) := by
  unfold countUserTicket
  split
  · exact written_leaves (free _ rfl)
  · exact written_leaves (free _ rfl)
  · exact .pure (.refl _ w)

theorem countSale_leaves (e : Symbol) : Yields (countSale w e) (w.Leaves P) := by
  unfold countSale
  split
  · exact .skip fun _ => .skip fun _ => .pure (.set _ (free _ rfl))
  · exact .pure (.refl _ w)

end Steps

theorem final_free (k : DataKey) (routine : k.IsRoutine = true) : k.IsFinal = false := by
  cases k <;> first | rfl | cases routine

theorem saveTicket_ok {ticket : Ticket} (h : w.saveTicket ticket = .ok w') :
    w.Leaves DataKey.IsAside w' ∧ w'.get (.ticket ticket.ticketId) = some ticket := by
  simp only [World.saveTicket, bind_eq_ok, pure_eq_ok] at h
  obtain ⟨-, -, rfl⟩ := h
  exact ⟨.set _ rfl, Store.get_set_self ..⟩

theorem createPayment_sells {id : ℕ} (h : createPayment env params w = .ok (id, w')) :
    Nonempty (Sells env params w w' id) := by
  simp only [createPayment, bind_eq_ok, pure_eq_ok] at h
  obtain ⟨-, -, _, unpaused, -, -, _, unused, -, -, _, allowed, -, -, -, -, -, -, w₁, h₁, ⟨id', w₂⟩,
    h₂, p, hp, w₃, h₃, w₄, h₄, w₅, h₅, w₆, h₆, w₇, h₇, w₈, h₈, w₉, h₉, w₁₀, h₁₀, w₁₁, h₁₁, ⟨ticketId, w₁₂⟩,
    h₁₂, w₁₃, h₁₃, w₁₄, h₁₄, w₁₅, h₁₅, w₁₆, h₁₆, h₁₇⟩ := h
  cases h₁₇
  have unpaused : w.isPaused = false := by simpa [requireNotPaused] using unpaused
  have unused : nonceUsed env w params = false := by simpa using unused
  have allowed : validatePaymentPrivacy w params.eventId params.isAnonymous params.isVerified =
    .ok () := allowed
  have pays := (tryTransfer_leaves w _ _ h₁).trans
    (getNextPaymentId_leaves w₁ aside_free _ h₂)
  have counts : w₃.Leaves DataKey.IsAside w₅ :=
    .trans (written_leaves rfl w₄ h₄) (addEventPayment_leaves w₄ aside_free w₅ h₅)
  have totals : (recordNonce env w₆ params p).Leaves DataKey.IsAside w₁₁ :=
    .trans (addEventRevenue_leaves _ aside_free w₇ h₇) <| .trans (written_leaves rfl w₈ h₈) <|
      .trans (addEventToken_leaves w₈ aside_of_token w₉ h₉) <| .trans (written_leaves rfl w₁₀ h₁₀)
        (written_leaves rfl w₁₁ h₁₁)
  have receipt : w₁₁.Leaves DataKey.IsAside w₁₂ :=
    (emitReceipt_leaves (w₁₁.emitPaymentReceived p) id').trans
      (getNextTicketId_leaves _ aside_free _ h₁₂)
  obtain ⟨saved, ticket⟩ := saveTicket_ok h₁₃
  exact ⟨
    { p, ticketId, paid := w₂, spent := w₃, counted := w₅, indexed := w₆, ticketed := w₁₃
      owned := w₁₄, unpaused, unused, allowed, pays, counts, ticket
      built := hp
      spends := h₃
      indexes := h₆
      tickets := totals.trans (receipt.trans saved)
      owns := h₁₄
      ends := (countUserTicket_leaves w₁₄ final_free w₁₅ h₁₅).trans
        (countSale_leaves w₁₅ final_free _ w₁₆ h₁₆) }⟩

section Phases

variable {P : DataKey → Bool} (free : ∀ k : DataKey, k.IsRoutine = true → P k = false)

include free

/-- A purchase as the entries in `P` see it, which keep neither nonces nor a payer's index: a
token is enlisted, a ticket is stored and its owner is indexed. -/
theorem createPayment_phases {id : ℕ} (replay : ∀ k : DataKey, k.IsReplay = true → P k = false)
    (payer : ∀ k : DataKey, k.IsPayerEntry = true → P k = false)
    (h : createPayment env params w = .ok (id, w')) :
    ∃ (p : PaymentRecord) (ticketId : ℕ) (paid listed before owned : World),
      buildPaymentRecord env params id env.timestamp = .ok p ∧
      w.Leaves P paid ∧ paid.addEventToken params.eventId params.tokenAddress = .ok listed ∧
      listed.Leaves P before ∧ before.get (.ticket ticketId) = none ∧
      indexOwner (before.set (.ticket ticketId) (buildTicket p ticketId)) params p ticketId =
        .ok owned ∧
      owned.Leaves P w' := by
  simp only [createPayment, bind_eq_ok, pure_eq_ok] at h
  obtain ⟨-, -, -, -, -, -, -, -, -, -, -, -, -, -, -, -, -, -, w₁, h₁, ⟨id', w₂⟩, h₂, p, hp, w₃, h₃,
    w₄, h₄, w₅, h₅, w₆, h₆, w₇, h₇, w₈, h₈, w₉, h₉, w₁₀, h₁₀, w₁₁, h₁₁, ⟨ticketId, w₁₂⟩, h₁₂, w₁₃, h₁₃,
    w₁₄, h₁₄, w₁₅, h₁₅, w₁₆, h₁₆, h₁₇⟩ := h
  cases h₁₇
  simp only [World.saveTicket, bind_eq_ok, pure_eq_ok, require_eq_ok] at h₁₃
  obtain ⟨-, absent, rfl⟩ := h₁₃
  have new : w₁₂.get (.ticket ticketId) = none :=
    Option.isNone_iff_eq_none.mp (Option.isSome_eq_false_iff.mp absent)
  have paid := (tryTransfer_leaves w _ _ h₁).trans (getNextPaymentId_leaves w₁ free _ h₂)
  have spent := spendNullifier_leaves w₂ replay p w₃ h₃
  have counted : w₃.Leaves P w₅ :=
    .trans (written_leaves (free _ rfl) w₄ h₄) (addEventPayment_leaves w₄ free w₅ h₅)
  have indexed := indexPayer_leaves w₅ payer p w₆ h₆
  have noted : w₆.Leaves P (recordNonce env w₆ params p) := recordNonce_leaves w₆ replay p
  have credited : (recordNonce env w₆ params p).Leaves P w₈ :=
    (addEventRevenue_leaves _ free w₇ h₇).trans (written_leaves (free _ rfl) w₈ h₈)
  have totals : w₉.Leaves P w₁₁ :=
    .trans (written_leaves (free _ rfl) w₁₀ h₁₀) (written_leaves (free _ rfl) w₁₁ h₁₁)
  have receipt : w₁₁.Leaves P w₁₂ :=
    (emitReceipt_leaves (w₁₁.emitPaymentReceived p) id').trans
      (getNextTicketId_leaves _ free _ h₁₂)
  have ends := (countUserTicket_leaves w₁₄ free w₁₅ h₁₅).trans
    (countSale_leaves w₁₅ free _ w₁₆ h₁₆)
  exact ⟨p, ticketId, w₈, w₉, w₁₂, w₁₄, hp,
    paid.trans (spent.trans (counted.trans (indexed.trans (noted.trans credited)))), h₉,
    totals.trans receipt, new, h₁₄, ends⟩

end Phases

theorem Sells.stored {id : ℕ} (s : Sells env params w w' id) :
    w'.get (.ticket s.ticketId) = some (buildTicket s.p s.ticketId) := by
  have owns : s.ticketed.Leaves DataKey.IsTicket s.owned := by
    have owns := s.owns
    unfold indexOwner at owns
    split at owns
    · exact Yields.after ((World.Leaves.set _ rfl).trans (.set _ rfl)) (written_leaves rfl) _ owns
    · rw [← pure_eq_ok.mp owns]
      exact .refl _ _
  rw [s.ends _ rfl, owns _ rfl]
  exact s.ticket

theorem buyResaleTicket_ok {P : DataKey → Bool} {buyer : Address} {id : ℕ}
    (free : ∀ k : DataKey, k.IsRoutine = true → P k = false)
    (h : buyResaleTicket env buyer id w = .ok w') :
    ∃ (ticket : Ticket) (seller : Address) (paid moved : World),
      w.get (.ticket id) = some ticket ∧ ticket.owner = some seller ∧ w.Leaves P paid ∧
      ((paid.set (.ticket id) { ticket with owner := some buyer }).removeOwnerTicketMap seller
        id).addOwnerTicketMap buyer id = .ok moved ∧
      w' = moved.removeResaleListing id := by
  simp only [buyResaleTicket, bind_eq_ok, pure_eq_ok, require_eq_ok, okOr_eq_ok] at h
  obtain ⟨-, -, -, -, listing, -, ticket, hticket, -, owner, _, -, paid, pays, _, -, -, -, moved,
    moves, rfl⟩ := h
  exact ⟨ticket, listing.seller, paid, moved, okOr_eq_ok.mp hticket, owner,
    settleResale_leaves w free _ pays, moves, rfl⟩

end Zicket.Payments
