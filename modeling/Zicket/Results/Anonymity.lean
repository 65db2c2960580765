import Zicket.Privacy.Replay

/-! Whoever pays for an Anonymous ticket, the contract stores and publishes the same: after the
token transfer nothing it does reads the payer or the balances. -/

namespace Zicket.Payments

open Host Foundation

/-- The states differ in token balances and the log of token transfers only. -/
structure World.Alike (w w' : World) : Prop where
  storage : w'.storage = w.storage
  events : w'.events = w.events

variable {w w' : World} {e : Symbol} {t : Address} {x : ℤ} {id : ℕ}

theorem World.Alike.eq (h : w.Alike w') :
    w' = { w with balances := w'.balances, transfers := w'.transfers } := by
  obtain ⟨storage, balances, transfers, events⟩ := w'
  obtain ⟨rfl, rfl⟩ := h
  rfl

section Accessors

theorem tryTransfer_alike {tr tr' : Transfer} :
    Agree (tryTransfer w tr) (tryTransfer w tr') World.Alike := by
  have sent {tr : Transfer} : Yields (tryTransfer w tr) fun w' =>
      w'.storage = w.storage ∧ w'.events = w.events := by
    unfold tryTransfer World.transfer
    split
    · rename_i w' sent
      split at sent
      · cases sent
        exact .pure ⟨rfl, rfl⟩
      · cases sent
    · exact .error _
  intro a b h h'
  exact ⟨(sent b h').1.trans (sent a h).1.symm, (sent b h').2.trans (sent a h).2.symm⟩

theorem getNextPaymentId_alike (h : w.Alike w') :
    Agree w.getNextPaymentId w'.getNextPaymentId fun r r' => r.1 = r'.1 ∧ r.2.Alike r'.2 := by
  rw [h.eq]
  exact .same fun _ _ => .pure ⟨rfl, rfl, rfl⟩

theorem getNextTicketId_alike (h : w.Alike w') :
    Agree w.getNextTicketId w'.getNextTicketId fun r r' => r.1 = r'.1 ∧ r.2.Alike r'.2 := by
  rw [h.eq]
  exact .same fun _ _ => .pure ⟨rfl, rfl, rfl⟩

theorem spendNullifier_alike {p : PaymentRecord} (h : w.Alike w') :
    Agree (spendNullifier w p) (spendNullifier w' p) World.Alike := by
  rw [h.eq]
  unfold spendNullifier
  split
  · exact .pure ⟨rfl, rfl⟩
  · exact .same fun _ _ => .pure ⟨rfl, rfl⟩

theorem savePayment_alike {p : PaymentRecord} (h : w.Alike w') :
    Agree (w.savePayment p) (w'.savePayment p) World.Alike := by
  rw [h.eq]
  exact .same fun _ _ => .pure ⟨rfl, rfl⟩

theorem saveTicket_alike {ticket : Ticket} (h : w.Alike w') :
    Agree (w.saveTicket ticket) (w'.saveTicket ticket) World.Alike := by
  rw [h.eq]
  exact .same fun _ _ => .pure ⟨rfl, rfl⟩

theorem addEventPayment_alike (h : w.Alike w') :
    Agree (w.addEventPayment e id) (w'.addEventPayment e id) World.Alike := by
  rw [h.eq]
  exact .same fun _ _ => .pure ⟨rfl, rfl⟩

theorem addEventRevenue_alike (h : w.Alike w') :
    Agree (w.addEventRevenue e x) (w'.addEventRevenue e x) World.Alike := by
  rw [h.eq]
  exact .same fun _ _ => .same fun _ _ => .pure ⟨rfl, rfl⟩

theorem addEventTokenRevenue_alike (h : w.Alike w') :
    Agree (w.addEventTokenRevenue e t x) (w'.addEventTokenRevenue e t x) World.Alike := by
  rw [h.eq]
  exact .same fun _ _ => .pure ⟨rfl, rfl⟩

theorem addEventToken_alike (h : w.Alike w') :
    Agree (w.addEventToken e t) (w'.addEventToken e t) World.Alike := by
  rw [h.eq]
  have known : World.hasEventToken { w with balances := w'.balances, transfers := w'.transfers } e t =
      w.hasEventToken e t := rfl
  unfold World.addEventToken
  rw [known]
  split
  · exact .pure ⟨rfl, rfl⟩
  · exact .same fun _ _ => .pure ⟨rfl, rfl⟩

theorem addTotalPayments_alike (h : w.Alike w') :
    Agree (w.addTotalPayments e x) (w'.addTotalPayments e x) World.Alike := by
  rw [h.eq]
  exact .same fun _ _ => .pure ⟨rfl, rfl⟩

theorem addTotalTokenVolume_alike (h : w.Alike w') :
    Agree (w.addTotalTokenVolume e t x) (w'.addTotalTokenVolume e t x) World.Alike := by
  rw [h.eq]
  exact .same fun _ _ => .pure ⟨rfl, rfl⟩

theorem countSale_alike (h : w.Alike w') : Agree (countSale w e) (countSale w' e) World.Alike := by
  rw [h.eq]
  have configured : World.getEventConfig { w with balances := w'.balances, transfers := w'.transfers } e =
      w.getEventConfig e := rfl
  unfold countSale
  rw [configured]
  split
  · exact .same fun _ _ => .same fun _ _ => .pure ⟨rfl, rfl⟩
  · exact .pure ⟨rfl, rfl⟩

end Accessors

section Payer

variable {d : Deployment} {invocation : Invocation} {authorized : Address → Bool}
  {params : PaymentParams} {payer : Address} {p : PaymentRecord}

theorem buildPaymentRecord_payer (env env' : Env) (payer : Address) {paidAt : ℕ}
    (level : params.privacyLevel = .anonymous) :
    buildPaymentRecord env' { params with payer } id paidAt =
      buildPaymentRecord env params id paidAt := by
  simp only [buildPaymentRecord, level]

theorem recordNonce_alike {env env' : Env} (level : params.privacyLevel = .anonymous)
    (h : w.Alike w') :
    (recordNonce env w params p).Alike (recordNonce env' w' { params with payer } p) := by
  rw [h.eq]
  simp only [recordNonce, level]
  split <;> exact ⟨rfl, rfl⟩

theorem indexPayer_alike (hidden : p.privacyLevel ≠ .standard) (h : w.Alike w') :
    Agree (indexPayer w params p) (indexPayer w' { params with payer } p) World.Alike := by
  rw [indexPayer, indexPayer, if_neg hidden, if_neg hidden]
  exact .pure h

theorem indexOwner_alike (hidden : p.privacyLevel ≠ .standard) (h : w.Alike w') :
    Agree (indexOwner w params p id) (indexOwner w' { params with payer } p id) World.Alike := by
  rw [indexOwner, indexOwner, if_neg hidden, if_neg hidden]
  exact .pure h

theorem countUserTicket_alike {env env' : Env} (level : params.privacyLevel = .anonymous)
    (h : w.Alike w') :
    Agree (countUserTicket env w params) (countUserTicket env' w' { params with payer })
      World.Alike := by
  simp only [countUserTicket, level]
  exact .pure h

theorem emitReceipt_alike (h : w.Alike w') :
    (emitReceipt ⟨d, invocation⟩ w params id).Alike
      (emitReceipt ⟨d, { invocation with authorized }⟩ w' { params with payer } id) := by
  rw [h.eq]
  simp only [emitReceipt]
  split <;> exact ⟨rfl, rfl⟩

theorem createPayment_alike (payer : Address) (level : params.privacyLevel = .anonymous) :
    Agree (createPayment ⟨d, invocation⟩ params w)
      (createPayment ⟨d, { invocation with authorized }⟩ { params with payer } w)
      fun r r' => r.1 = r'.1 ∧ r.2.Alike r'.2 := by
  unfold createPayment
  iterate 9 refine .skip fun _ _ => ?_
  refine tryTransfer_alike.bind fun w₁ w₁' h₁ => (getNextPaymentId_alike h₁).bind ?_
  rintro ⟨id, w₂⟩ ⟨_, w₂'⟩ ⟨rfl, h₂⟩
  dsimp only
  rw [buildPaymentRecord_payer ⟨d, invocation⟩ _ payer level]
  refine .same fun p built => ?_
  obtain ⟨shown, -, -⟩ := built_identity built
  have hidden : p.privacyLevel ≠ .standard := by simp [shown, level]
  refine (spendNullifier_alike h₂).bind fun w₃ w₃' h₃ => (savePayment_alike h₃).bind ?_
  intro w₄ w₄' h₄
  refine (addEventPayment_alike h₄).bind fun w₅ w₅' h₅ => ?_
  refine (indexPayer_alike hidden h₅).bind fun w₆ w₆' h₆ => ?_
  refine (addEventRevenue_alike (recordNonce_alike level h₆)).bind fun w₇ w₇' h₇ => ?_
  refine (addEventTokenRevenue_alike h₇).bind fun w₈ w₈' h₈ => ?_
  refine (addEventToken_alike h₈).bind fun w₉ w₉' h₉ => ?_
  refine (addTotalPayments_alike h₉).bind fun w₁₀ w₁₀' h₁₀ => ?_
  refine (addTotalTokenVolume_alike h₁₀).bind fun w₁₁ w₁₁' h₁₁ => ?_
  have received : (w₁₁.emitPaymentReceived p).Alike (w₁₁'.emitPaymentReceived p) := by
    rw [h₁₁.eq]
    exact ⟨rfl, rfl⟩
  refine (getNextTicketId_alike (emitReceipt_alike received)).bind ?_
  rintro ⟨ticketId, w₁₂⟩ ⟨_, w₁₂'⟩ ⟨rfl, h₁₂⟩
  refine (saveTicket_alike h₁₂).bind fun w₁₃ w₁₃' h₁₃ => ?_
  refine (indexOwner_alike hidden h₁₃).bind fun w₁₄ w₁₄' h₁₄ => ?_
  refine (countUserTicket_alike level h₁₄).bind fun w₁₅ w₁₅' h₁₅ => ?_
  refine (countSale_alike h₁₅).bind fun w₁₆ w₁₆' h₁₆ => .pure ⟨rfl, ?_⟩
  rw [h₁₆.eq]
  exact ⟨rfl, rfl⟩

end Payer

/-- Two payers who could both pay for the same Anonymous ticket leave the same storage and the
same published events. -/
theorem anonymous_payer_hidden (d : Deployment) (invocation : Invocation)
    (authorized : Address → Bool) (w w₁ w₂ : World) (nonce : ℕ) (payer₁ payer₂ : Address)
    (eventId : Symbol) (amount : ℤ) (emailHash : Option (BytesN 32)) (tokenAddress : Address)
    (nullifierCommitment stealthDeliveryKey : Option (BytesN 32)) (id₁ id₂ : ℕ)
    (first : payForTicket ⟨d, invocation⟩ nonce payer₁ eventId amount emailHash tokenAddress
      .anonymous nullifierCommitment stealthDeliveryKey w = .ok (id₁, w₁))
    (second : payForTicket ⟨d, { invocation with authorized }⟩ nonce payer₂ eventId amount
      emailHash tokenAddress .anonymous nullifierCommitment stealthDeliveryKey w = .ok (id₂, w₂)) :
    id₁ = id₂ ∧ w₁.storage = w₂.storage ∧ w₁.events = w₂.events := by
  obtain ⟨id, alike⟩ := createPayment_alike payer₂ rfl _ _ first second
  exact ⟨id, alike.storage.symm, alike.events.symm⟩

/-- Bob or Amy, each with enough of the token, buys the first ticket. -/
theorem anonymous_payer_hidden_sample :
    let w := run (World.next Sample.deployment) (deployed Sample.noBalances)
      (Sample.opening ++ [.mint Sample.token Sample.amy 1000])
    let buy (payer : Address) := payForTicket ⟨Sample.deployment, Sample.invocation 2⟩ 1 payer
      Sample.concert 100 none Sample.token .anonymous (some zeroHash) none w
    ∃ id₁ w₁ id₂ w₂, buy Sample.bob = .ok (id₁, w₁) ∧ buy Sample.amy = .ok (id₂, w₂) ∧
      id₁ = id₂ ∧ w₁.storage = w₂.storage ∧ w₁.events = w₂.events := by
  intro w buy
  have sells (payer : Address) (ok : (buy payer).isOk = true) : ∃ id w', buy payer = .ok (id, w') := by
    cases result : buy payer with
    | error e => simp [result, Except.isOk, Except.toBool] at ok
    | ok made => exact ⟨made.1, made.2, rfl⟩
  obtain ⟨id₁, w₁, first⟩ := sells Sample.bob (by decide)
  obtain ⟨id₂, w₂, second⟩ := sells Sample.amy (by decide)
  exact ⟨id₁, w₁, id₂, w₂, first, second,
    anonymous_payer_hidden Sample.deployment (Sample.invocation 2) _ w w₁ w₂ 1 Sample.bob Sample.amy
      Sample.concert 100 none Sample.token (some zeroHash) none id₁ id₂ first second⟩

end Zicket.Payments
