import Zicket.Privacy.Records

/-! The numbers that the indexes by payer and owner list. Payments and tickets share their
numbers. A Standard purchase lists its payment and ticket, a resale lists the ticket it sells
again, and nothing else lists a number. -/

namespace Zicket.Payments

open Host Foundation

def DataKey.Names : (k : DataKey) → k.Val → ℕ → Prop
  | .payerPayment _ id, _, n | .ownerTicket _ id, _, n => id = n
  | .payerPaymentIndex _ _, id, n | .ownerTicketIndex _ _, id, n => id = n
  | _, _, _ => False

def World.Lists (w : World) (n : ℕ) : Prop := ∃ k v, w.get k = some v ∧ k.Names v n

def World.Adds (ids : List ℕ) (w w' : World) : Prop := ∀ n, w'.Lists n → n ∈ ids ∨ w.Lists n

variable {env : Env} {params : PaymentParams} {w w' w'' : World} {ids ids' : List ℕ}

theorem DataKey.Names.isIndex {k : DataKey} {v : k.Val} {n : ℕ} (h : k.Names v n) :
    k.IsIndex = true := by
  cases k <;> first | rfl | cases h

namespace World.Adds

theorem refl (w : World) : w.Adds [] w := fun _ listed => .inr listed

theorem trans (h : w.Adds ids w') (h' : w'.Adds ids' w'') : w.Adds (ids' ++ ids) w'' := by
  intro n listed
  obtain mem | listed := h' n listed
  · exact .inl (List.mem_append_left _ mem)
  · exact (h n listed).imp_left (List.mem_append_right _)

theorem idle (h : w.Adds ids w') (h' : w'.Adds [] w'') : w.Adds ids w'' := h.trans h'

theorem absorb (h : w.Adds ids w') (known : ∀ n ∈ ids, w.Lists n) : w.Adds [] w' :=
  fun n listed => .inr ((h n listed).elim (known n) fun listed => listed)

theorem set {k : DataKey} {v : k.Val} (names : ∀ n, k.Names v n → n ∈ ids) :
    w.Adds ids (w.set k v) := by
  rintro n ⟨k', v', stored, named⟩
  by_cases same : k' = k
  · subst same
    rw [World.get, World.set, Store.get_set_self] at stored
    cases stored
    exact .inl (names n named)
  · rw [World.get, World.set, Store.get_set_of_ne _ _ same] at stored
    exact .inr ⟨k', v', stored, named⟩

theorem remove (k : DataKey) : w.Adds [] (w.remove k) := by
  rintro n ⟨k', v', stored, named⟩
  by_cases same : k' = k
  · subst same
    rw [World.get, World.remove, Store.get_remove_self] at stored
    cases stored
  · rw [World.get, World.remove, Store.get_remove_of_ne _ same] at stored
    exact .inr ⟨k', v', stored, named⟩

end World.Adds

theorem World.Leaves.adds {P : DataKey → Bool} (h : w.Leaves P w')
    (index : ∀ k, k.IsIndex = true → P k = true) : w.Adds [] w' := by
  rintro n ⟨k, v, stored, named⟩
  rw [h k (index k named.isIndex)] at stored
  exact .inr ⟨k, v, stored, named⟩

theorem World.Adds.other {k : DataKey} (v : k.Val) (other : k.IsIndex = false) :
    w.Adds [] (w.set k v) :=
  (World.Leaves.set v other).adds fun _ h => h

theorem aside_of_index (k : DataKey) (h : k.IsIndex = true) : k.IsAside = true := by
  simp [DataKey.IsAside, h]

theorem final_of_index (k : DataKey) (h : k.IsIndex = true) : k.IsFinal = true := by
  simp [DataKey.IsFinal, aside_of_index k h]

section Accessors

variable (w) {a : Address} {id : ℕ}

theorem addPayerPayment_adds : Yields (w.addPayerPayment a id) (w.Adds [id]) := by
  refine .skip fun _ => .pure ?_
  have key : w.Adds [id] (w.set (.payerPayment a id) true) := .set (by simp [DataKey.Names])
  have slot (w : World) (count : ℕ) : w.Adds [id] (w.set (.payerPaymentIndex a count) id) :=
    .set (by simp [DataKey.Names])
  have counted (w : World) (count : ℕ) : w.Adds [] (w.set (.payerPaymentsCount a) count) :=
    .other _ rfl
  intro n listed
  simpa using ((key.trans (slot _ _)).trans (counted _ _)) n listed

theorem addOwnerTicketMap_adds : Yields (w.addOwnerTicketMap a id) (w.Adds [id]) := by
  refine .skip fun _ => .pure ?_
  have key (index : ℕ) : w.Adds [id] (w.set (.ownerTicket a id) index) :=
    .set (by simp [DataKey.Names])
  have slot (w : World) (count : ℕ) : w.Adds [id] (w.set (.ownerTicketIndex a count) id) :=
    .set (by simp [DataKey.Names])
  have counted (w : World) (count : ℕ) : w.Adds [] (w.set (.ownerTicketsCount a) count) :=
    .other _ rfl
  intro n listed
  simpa using (((key _).trans (slot _ _)).trans (counted _ _)) n listed

/-- The ticket that moves into the freed slot was listed before. -/
theorem removeOwnerTicketMap_adds : w.Adds [] (w.removeOwnerTicketMap a id) := by
  have removed : w.Adds [] (w.remove (.ownerTicket a id)) := .remove _
  have closed (w : World) (last : ℕ) : w.Adds []
      ((w.remove (.ownerTicketIndex a last)).set (.ownerTicketsCount a) last) :=
    (World.Adds.remove _).trans (.other _ rfl)
  have moved (w : World) (idx last : ℕ) : w.Adds [last]
      ((w.set (.ownerTicketIndex a idx) last).set (.ownerTicket a last) idx) := by
    have slot : w.Adds [last] (w.set (.ownerTicketIndex a idx) last) :=
      .set (by simp [DataKey.Names])
    have key (w : World) : w.Adds [last] (w.set (.ownerTicket a last) idx) :=
      .set (by simp [DataKey.Names])
    intro n listed
    simpa using (slot.trans (key _)) n listed
  unfold World.removeOwnerTicketMap
  dsimp only
  split
  · exact removed
  · split
    · exact removed
    · refine removed.idle (.idle ?_ (closed _ _))
      split
      · split
        · rename_i last stored
          refine (moved _ _ _).absorb fun n mem => ?_
          obtain rfl := List.mem_singleton.mp mem
          exact ⟨.ownerTicketIndex a _, n, stored, rfl⟩
        · exact .refl _
      · exact .refl _

end Accessors

theorem Sells.adds {id : ℕ} (s : Sells env params w w' id) :
    w.Adds (if s.p.privacyLevel = .standard then [s.ticketId, s.p.paymentId] else []) w' := by
  have spent : s.paid.Adds [] s.spent := by
    have spends := s.spends
    unfold spendNullifier at spends
    split at spends
    · rw [← pure_eq_ok.mp spends]
      exact .refl _
    · simp only [bind_eq_ok, pure_eq_ok] at spends
      obtain ⟨-, -, spends⟩ := spends
      rw [← spends]
      exact .other _ rfl
  have noted : s.indexed.Adds [] (recordNonce env s.indexed params s.p) := by
    unfold recordNonce
    split
    · exact .other _ rfl
    · exact .other _ rfl
    · split
      · exact .other _ rfl
      · exact .refl _
  have before := ((s.pays.adds aside_of_index).trans spent).trans (s.counts.adds aside_of_index)
  have between := noted.trans (s.tickets.adds aside_of_index)
  have after := s.ends.adds final_of_index
  have indexes := s.indexes
  have owns := s.owns
  unfold indexPayer at indexes
  unfold indexOwner at owns
  split at indexes
  · rename_i standard
    rw [if_pos standard] at owns ⊢
    exact (((before.trans (addPayerPayment_adds _ _ indexes)).trans between).trans
      (addOwnerTicketMap_adds _ _ owns)).trans after
  · rename_i other
    rw [if_neg other] at owns ⊢
    rw [← pure_eq_ok.mp owns] at after
    rw [← pure_eq_ok.mp indexes] at between
    exact (before.trans between).trans after

theorem exec_adds_nothing {c : Call} (unpaid : c.params = none)
    (unsold : ∀ buyer id, c ≠ .buyResaleTicket buyer id) (h : c.exec env w = .ok w') :
    w.Adds [] w' := by
  cases aside : c.WritesAside with
  | false => exact (exec_spares w aside w' h).adds aside_of_index
  | true =>
    have leaves : w.Leaves DataKey.IsIndex w' := by
      cases c with
      | payForTicket | payForTicketWithCommitment | payForTicketWithOptions => cases unpaid
      | buyResaleTicket => exact absurd rfl (unsold _ _)
      | syncEventPrivacy =>
        refine Yields.skip (fun _ => .skip fun _ => .pure ?_) w' h
        exact .set _ rfl
      | setPaused =>
        refine Yields.skip (fun _ => .pure ?_) w' h
        exact .set _ rfl
      | _ => cases aside
    exact leaves.adds fun _ h => h

theorem buyResaleTicket_adds {buyer : Address} {id : ℕ} (h : buyResaleTicket env buyer id w = .ok w') :
    w.Adds [id] w' := by
  obtain ⟨ticket, seller, paid, moved, -, -, pays, moves, rfl⟩ := buyResaleTicket_ok aside_free h
  have handed : paid.Adds [] (paid.set (.ticket id) { ticket with owner := some buyer }) :=
    .other _ rfl
  exact ((((pays.adds aside_of_index).trans handed).trans (removeOwnerTicketMap_adds _)).trans
    (addOwnerTicketMap_adds _ _ moves)).trans (.remove _)

end Zicket.Payments
