import Zicket.Privacy.Sales

/-! The marks by which the contract knows a payment again: nonces by payer, nonces by hash and
spent commitments. A purchase finds its marks unset and sets them; nothing else touches marks. -/

namespace Zicket.Payments

open Host Foundation

inductive Mark where
  | nonce (payer : Address) (nonce : ℕ)
  | nonceHash (hash : BytesN 32) (nonce : ℕ)
  | nullifier (commitment : BytesN 32)
  deriving DecidableEq

def World.marked (w : World) : Mark → Bool
  | .nonce payer nonce => w.hasNonce payer nonce
  | .nonceHash hash nonce => w.hasNonceHash hash nonce
  | .nullifier commitment => w.hasNullifier commitment

namespace PaymentParams

variable (crypto : Crypto) (params : PaymentParams)

def nonceMark : Option Mark :=
  match params.privacyLevel with
  | .standard => some (.nonce params.payer params.nonce)
  | .priv => some (.nonceHash (crypto.sha256 (crypto.addressXdr params.payer)) params.nonce)
  | .anonymous => params.nullifierCommitment.map (.nonceHash · params.nonce)

def marks : List Mark :=
  (params.nonceMark crypto).toList ++ params.nullifierCommitment.toList.map .nullifier

end PaymentParams

def World.Sets (marks : List Mark) (w w' : World) : Prop :=
  ∀ mark, w'.marked mark = true ↔ mark ∈ marks ∨ w.marked mark = true

variable {env : Env} {params : PaymentParams} {w w' w'' : World} {ms ms' : List Mark}

theorem World.Sets.trans (h : w.Sets ms w') (h' : w'.Sets ms' w'') :
    w.Sets (ms' ++ ms) w'' := by
  intro mark
  rw [h' mark, h mark, List.mem_append, or_assoc]

theorem World.Leaves.sets {P : DataKey → Bool} (h : w.Leaves P w')
    (replay : ∀ k, k.IsReplay = true → P k = true) : w.Sets [] w' := by
  intro mark
  have same : w'.marked mark = w.marked mark := by
    cases mark with
    | nonce payer nonce => exact congrArg (·.getD false) (h (.processedNonce payer nonce) (replay _ rfl))
    | nonceHash hash nonce =>
      exact congrArg (·.getD false) (h (.processedNonceHash hash nonce) (replay _ rfl))
    | nullifier commitment =>
      exact congrArg (·.getD false) (h (.spentNullifier commitment) (replay _ rfl))
  simp [same]

theorem aside_of_replay (k : DataKey) (h : k.IsReplay = true) : k.IsAside = true := by
  simp [DataKey.IsAside, h]

theorem final_of_replay (k : DataKey) (h : k.IsReplay = true) : k.IsFinal = true := by
  simp [DataKey.IsFinal, aside_of_replay k h]

theorem replay_of_payer (k : DataKey) (h : k.IsPayerEntry = true) : k.IsReplay = false := by
  cases k <;> first | rfl | cases h

theorem replay_of_owner (k : DataKey) (h : k.IsOwnerEntry = true) : k.IsReplay = false := by
  cases k <;> first | rfl | cases h

section Setters

variable (w)

theorem setNonce_sets (payer : Address) (nonce : ℕ) :
    w.Sets [.nonce payer nonce] (w.setNonce payer nonce) := by
  intro mark
  by_cases same : mark = .nonce payer nonce
  · subst same
    simp [World.marked, World.hasNonce, World.setNonce, World.get, World.set]
  · cases mark <;>
      simp_all [World.marked, World.hasNonce, World.hasNonceHash, World.hasNullifier,
        World.setNonce, World.get, World.set]

theorem setNonceHash_sets (hash : BytesN 32) (nonce : ℕ) :
    w.Sets [.nonceHash hash nonce] (w.setNonceHash hash nonce) := by
  intro mark
  by_cases same : mark = .nonceHash hash nonce
  · subst same
    simp [World.marked, World.hasNonceHash, World.setNonceHash, World.get, World.set]
  · cases mark <;>
      simp_all [World.marked, World.hasNonce, World.hasNonceHash, World.hasNullifier,
        World.setNonceHash, World.get, World.set]

theorem markNullifierSpent_sets (commitment : BytesN 32) :
    w.Sets [.nullifier commitment] (w.markNullifierSpent commitment) := by
  intro mark
  by_cases same : mark = .nullifier commitment
  · subst same
    simp [World.marked, World.hasNullifier, World.markNullifierSpent, World.get, World.set]
  · cases mark <;>
      simp_all [World.marked, World.hasNonce, World.hasNonceHash, World.hasNullifier,
        World.markNullifierSpent, World.get, World.set]

end Setters

section Sale

variable {p : PaymentRecord}

theorem built_identity {id paidAt : ℕ} (h : buildPaymentRecord env params id paidAt = .ok p) :
    p.privacyLevel = params.privacyLevel ∧ p.nullifierCommitment = params.nullifierCommitment ∧
      (params.privacyLevel = .anonymous → params.nullifierCommitment ≠ none) := by
  unfold buildPaymentRecord at h
  dsimp only at h
  split at h <;> rename_i level
  all_goals
    simp only [bind_eq_ok, pure_eq_ok, require_eq_ok, okOr_eq_ok] at h
  · obtain ⟨-, -, commitment, given, rfl⟩ := h
    exact ⟨rfl, given.symm, by simp [given]⟩
  · obtain ⟨-, absent, stealthKey, -, rfl⟩ := h
    exact ⟨rfl, absent.symm, by simp [level]⟩
  · obtain ⟨-, absent, rfl⟩ := h
    exact ⟨rfl, absent.1.symm, by simp [level]⟩

theorem nonceUsed_eq : nonceUsed env w params = (params.nonceMark env.crypto).any w.marked := by
  unfold nonceUsed PaymentParams.nonceMark
  cases params.privacyLevel with
  | standard | priv => rfl
  | anonymous => cases params.nullifierCommitment <;> rfl

theorem recordNonce_sets (env : Env) (w : World)
    (same : p.nullifierCommitment = params.nullifierCommitment) :
    w.Sets (params.nonceMark env.crypto).toList (recordNonce env w params p) := by
  unfold recordNonce PaymentParams.nonceMark
  rw [same]
  cases params.privacyLevel with
  | standard => exact setNonce_sets w _ _
  | priv => exact setNonceHash_sets w _ _
  | anonymous =>
    cases params.nullifierCommitment with
    | none => exact (World.Leaves.refl DataKey.IsReplay w).sets fun _ h => h
    | some commitment => exact setNonceHash_sets w _ _

theorem spendNullifier_sets (h : spendNullifier w p = .ok w') :
    (∀ mark ∈ p.nullifierCommitment.toList.map Mark.nullifier, w.marked mark = false) ∧
      w.Sets (p.nullifierCommitment.toList.map .nullifier) w' := by
  unfold spendNullifier at h
  cases given : p.nullifierCommitment with
  | none =>
    rw [given] at h
    cases h
    exact ⟨fun mark mem => by simp at mem, (World.Leaves.refl DataKey.IsReplay w).sets fun _ h => h⟩
  | some commitment =>
    simp only [given, bind_eq_ok, pure_eq_ok, require_eq_ok] at h
    obtain ⟨-, unspent, rfl⟩ := h
    exact ⟨fun mark mem => by simp_all [World.marked], markNullifierSpent_sets w commitment⟩

/-- A purchase finds none of its marks set, and sets them. -/
theorem Sells.marks {id : ℕ} (s : Sells env params w w' id) :
    (∀ mark ∈ params.marks env.crypto, w.marked mark = false) ∧
      w.Sets (params.marks env.crypto) w' := by
  obtain ⟨-, commitment, -⟩ := built_identity s.built
  have paid := s.pays.sets aside_of_replay
  obtain ⟨unspent, spends⟩ := spendNullifier_sets s.spends
  rw [commitment] at unspent spends
  constructor
  · intro mark mem
    obtain nonce | nullifier := List.mem_append.mp mem
    · have unused := s.unused
      rw [nonceUsed_eq, Option.any_eq_false] at unused
      simpa using unused mark (Option.mem_toList.mp nonce)
    · have here := unspent mark nullifier
      have same := (paid mark).not
      simpa [here] using same
  · have upTo := (paid.trans spends).trans <| (s.counts.sets aside_of_replay).trans <|
      (indexPayer_leaves s.counted replay_of_payer s.p _ s.indexes).sets fun _ h => h
    have marked := (upTo.trans (recordNonce_sets env s.indexed commitment)).trans <|
      (s.tickets.sets aside_of_replay).trans <|
        ((indexOwner_leaves s.ticketed replay_of_owner s.p s.ticketId _ s.owns).sets
          fun _ h => h).trans <| s.ends.sets final_of_replay
    simpa [PaymentParams.marks] using marked

end Sale

section Calls

theorem buyResaleTicket_leaves {buyer : Address} {id : ℕ}
    (h : buyResaleTicket env buyer id w = .ok w') : w.Leaves DataKey.IsReplay w' := by
  obtain ⟨ticket, seller, paid, moved, -, -, pays, moves, rfl⟩ := buyResaleTicket_ok aside_free h
  have handed : paid.Leaves DataKey.IsReplay
      (paid.set (.ticket id) { ticket with owner := some buyer }) := .set _ rfl
  refine (pays.mono aside_of_replay).trans (handed.trans ?_)
  refine (removeOwnerTicketMap_leaves _ replay_of_owner _ _).trans
    (.trans (addOwnerTicketMap_leaves _ replay_of_owner _ _ _ moves) ?_)
  exact .remove rfl

theorem exec_sets_nothing {c : Call} (other : c.params = none) (h : c.exec env w = .ok w') :
    w.Sets [] w' := by
  cases aside : c.WritesAside with
  | false => exact (exec_spares w aside w' h).sets aside_of_replay
  | true =>
    have leaves : w.Leaves DataKey.IsReplay w' := by
      cases c with
      | payForTicket | payForTicketWithCommitment | payForTicketWithOptions => cases other
      | buyResaleTicket => exact buyResaleTicket_leaves h
      | syncEventPrivacy =>
        refine Yields.skip (fun _ => .skip fun _ => .pure ?_) w' h
        exact .set _ rfl
      | setPaused =>
        refine Yields.skip (fun _ => .pure ?_) w' h
        exact .set _ rfl
      | _ => cases aside
    exact leaves.sets fun _ h => h

end Calls

end Zicket.Payments
