import Zicket.Refinement.Postings

/-! What a purchase writes: one sale, whose record carries the identity fields of its
privacy level and whose ticket has the same number as the payment. -/

namespace Zicket.Payments

open Host Foundation Book

variable {env : Env} {w w' : World} {params : PaymentParams}

structure Builds (params : PaymentParams) (paymentId : ℕ) (p : PaymentRecord) : Prop where
  id : p.paymentId = paymentId
  event : p.eventId = params.eventId
  amount : p.amount = params.amount
  token : p.token = params.tokenAddress
  held : p.status = .held
  unrefunded : p.refundedAmount = 0
  identified : p.Identified
  payer : p.privacyLevel = .standard → p.payer = some params.payer

theorem buildPaymentRecord_builds {paymentId paidAt : ℕ} {p : PaymentRecord}
    (h : buildPaymentRecord env params paymentId paidAt = .ok p) : Builds params paymentId p := by
  unfold buildPaymentRecord at h
  dsimp only at h
  split at h <;> rename_i level
  all_goals
    simp only [bind_eq_ok, pure_eq_ok, require_eq_ok, okOr_eq_ok] at h
  · obtain ⟨-, -, commitment, -, rfl⟩ := h
    exact ⟨rfl, rfl, rfl, rfl, rfl, rfl, by simp [PaymentRecord.Identified, level],
      fun standard => by simp [level] at standard⟩
  · obtain ⟨-, -, stealthKey, -, rfl⟩ := h
    exact ⟨rfl, rfl, rfl, rfl, rfl, rfl, by simp [PaymentRecord.Identified, level],
      fun standard => by simp [level] at standard⟩
  · obtain ⟨-, -, rfl⟩ := h
    exact ⟨rfl, rfl, rfl, rfl, rfl, rfl, by simp [PaymentRecord.Identified, level],
      fun _ => rfl⟩

theorem tryTransfer_book {tr : Transfer} (h : tryTransfer w tr = .ok w') :
    w'.book = w.book.record tr := by
  unfold tryTransfer at h
  split at h
  · cases h
    exact (World.transfer_book ‹_›).2
  · simp at h

theorem spendNullifier_book {p : PaymentRecord} (h : spendNullifier w p = .ok w') :
    w'.book = w.book := by
  unfold spendNullifier at h
  split at h
  · cases h
    rfl
  · simp only [bind_eq_ok, pure_eq_ok] at h
    obtain ⟨-, -, rfl⟩ := h
    rfl

theorem indexPayer_book {p : PaymentRecord} (h : indexPayer w params p = .ok w') :
    w'.book = w.book := by
  unfold indexPayer at h
  split at h
  · exact World.addPayerPayment_book h
  · cases h
    rfl

theorem recordNonce_book (p : PaymentRecord) : (recordNonce env w params p).book = w.book := by
  unfold recordNonce
  repeat' split
  all_goals rfl

theorem emitReceipt_book (id : ℕ) : (emitReceipt env w params id).book = w.book := by
  unfold emitReceipt
  split <;> rfl

theorem indexOwner_book {p : PaymentRecord} {id : ℕ} (h : indexOwner w params p id = .ok w') :
    w'.book = w.book := by
  unfold indexOwner at h
  split at h
  · exact World.addOwnerTicketMap_book h
  · cases h
    rfl

theorem countUserTicket_book (h : countUserTicket env w params = .ok w') : w'.book = w.book := by
  unfold countUserTicket at h
  split at h
  · exact World.incrementUserEventTickets_book h
  · exact World.incrementUserEventTicketsHash_book h
  · cases h
    rfl

theorem countSale_book {e : Symbol} (h : countSale w e = .ok w') :
    w'.book = { w.book with config := w.book.sold e } := by
  unfold countSale at h
  split at h
  · exact World.incrementEventSoldCount_book h
  · rename_i absent
    cases h
    have absent : w.book.config e = none := Option.not_isSome_iff_eq_none.mp absent
    have same : w.book.sold e = w.book.config := by
      rw [sold, absent, Option.map_none, ← absent, Function.update_eq_self]
    rw [same]

theorem createPayment_book {id : ℕ} (h : createPayment env params w = .ok (id, w')) :
    ∃ p ticket, buildPaymentRecord env params id env.timestamp = .ok p ∧
      w.book.SaleSound p ticket params.payer ∧
      w'.book = w.book.post env.currentContract (.sale p ticket params.payer) := by
  simp only [createPayment, bind_eq_ok, pure_eq_ok, require_eq_ok] at h
  obtain ⟨-, -, -, -, -, -, -, -, -, positive, -, -, -, -, -, open_, -, -, w₁, h₁, ⟨id', w₂⟩, h₂, p, hp,
    w₃, h₃, w₄, h₄, w₅, h₅, w₆, h₆, w₇, h₇, w₈, h₈, w₉, h₉, w₁₀, h₁₀, w₁₁, h₁₁, ⟨ticketId, w₁₂⟩,
    h₁₂, w₁₃, h₁₃, w₁₄, h₁₄, w₁₅, h₁₅, w₁₆, h₁₆, h₁₇⟩ := h
  cases h₁₇
  have builds : Builds params id' p := buildPaymentRecord_builds hp
  have b₁ := tryTransfer_book h₁
  obtain ⟨next, b₂⟩ := World.getNextPaymentId_book h₂
  have b₃ := spendNullifier_book h₃
  obtain ⟨fresh, b₄⟩ := World.savePayment_book h₄
  have b₁₁ : w₁₁.book = { ((w₂.book.putPayment p).addRevenue p.eventId p.token p.amount) with
      totalPayments :=
        Function.update w₂.book.totalPayments p.eventId (w₂.book.totalPayments p.eventId + p.amount)
      volume :=
        put w₂.book.volume p.eventId p.token (w₂.book.volume p.eventId p.token + p.amount) } := by
    rw [World.addTotalTokenVolume_book h₁₁, World.addTotalPayments_book h₁₀,
      World.addEventToken_book h₉, World.addEventTokenRevenue_book h₈,
      World.addEventRevenue_book h₇, recordNonce_book, indexPayer_book h₆,
      World.addEventPayment_book h₅, b₄, b₃, builds.event, builds.token, builds.amount]
    rfl
  obtain ⟨ticketNext, b₁₂⟩ := World.getNextTicketId_book h₁₂
  rw [emitReceipt_book, World.emitPaymentReceived, World.book_emit] at ticketNext b₁₂
  have b₁₆ : w₁₆.book = { w₁₂.book with
      ticket := Function.update w₁₂.book.ticket ticketId (some (buildTicket p ticketId))
      config := w₁₂.book.sold p.eventId } := by
    rw [countSale_book h₁₆, countUserTicket_book h₁₅, indexOwner_book h₁₄,
      World.saveTicket_book h₁₃, builds.event]
    rfl
  dsimp only at next b₂ ticketNext b₁₂
  rw [b₁] at next
  have number : p.paymentId = w.book.payments + 1 := builds.id.trans next
  have ticketNumber : ticketId = w.book.tickets + 1 := by
    rw [ticketNext, b₁₁, b₂, b₁]
    rfl
  refine ⟨p, buildTicket p ticketId, hp, ?_, ?_⟩
  · rw [b₃, b₂, b₁] at fresh
    exact
      { next := number
        fresh := fresh
        ticket := by rw [ticketNumber]
        held := builds.held
        unrefunded := builds.unrefunded
        positive := builds.amount ▸ positive
        identified := builds.identified
        payer := builds.payer
        sellable := builds.event ▸ open_ }
  · have purpose : (w.get .nextPaymentId).getD 0 + 1 = p.paymentId := number.symm
    rw [World.emitTicketIssued, World.book_emit, b₁₆, b₁₂, b₁₁, b₂, b₁, purpose, ← builds.id,
      ← builds.token, ← builds.amount, ← builds.event]
    rfl

theorem payForTicket_written {nonce : ℕ} {payer : Address} {e : Symbol} {amount : ℤ}
    {emailHash : Option (BytesN 32)} {token : Address} {level : PaymentPrivacy}
    {nullifier stealthKey : Option (BytesN 32)} {id : ℕ}
    (h : payForTicket env nonce payer e amount emailHash token level nullifier stealthKey w =
      .ok (id, w')) :
    Written env w
      (.payForTicket nonce payer e amount emailHash token level nullifier stealthKey) w'.book := by
  obtain ⟨p, ticket, built, sound, effect⟩ := createPayment_book h
  have builds := buildPaymentRecord_builds built
  exact .one ⟨p, ticket, builds.event, builds.amount, builds.token, rfl⟩ sound effect

theorem payForTicketWithCommitment_written {nonce : ℕ} {payer : Address} {e : Symbol} {amount : ℤ}
    {emailHash : Option (BytesN 32)} {token : Address} {level : PaymentPrivacy}
    {commitment : Option (BytesN 32)} {id : ℕ}
    (h : payForTicketWithCommitment env nonce payer e amount emailHash token level commitment w =
      .ok (id, w')) :
    Written env w
      (.payForTicketWithCommitment nonce payer e amount emailHash token level commitment)
      w'.book := by
  obtain ⟨p, ticket, built, sound, effect⟩ := createPayment_book h
  have builds := buildPaymentRecord_builds built
  exact .one ⟨p, ticket, builds.event, builds.amount, builds.token, rfl⟩ sound effect

theorem payForTicketWithOptions_written {nonce : ℕ} {payer : Address} {e : Symbol} {amount : ℤ}
    {token : Address} {isAnonymous isVerified : Bool} {id : ℕ}
    (h : payForTicketWithOptions env nonce payer e amount token isAnonymous isVerified w =
      .ok (id, w')) :
    Written env w
      (.payForTicketWithOptions nonce payer e amount token isAnonymous isVerified) w'.book := by
  obtain ⟨p, ticket, built, sound, effect⟩ := createPayment_book h
  have builds := buildPaymentRecord_builds built
  exact .one ⟨p, ticket, builds.event, builds.amount, builds.token, rfl⟩ sound effect

end Zicket.Payments
