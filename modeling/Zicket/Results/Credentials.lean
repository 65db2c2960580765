import Zicket.Registry.Calls

/-! The life of a ticket over whole runs of the ticket contract: what of it never changes,
what ends it, and the attendance credential that its use leaves. -/

namespace Zicket.Tickets

open Host Foundation World Registry

/-- `t'` is the same ticket later on; one that is used or cancelled stays as it is. -/
structure Ticket.Becomes (t t' : Ticket) : Prop where
  ticketId : t'.ticketId = t.ticketId
  eventId : t'.eventId = t.eventId
  organizer : t'.organizer = t.organizer
  issuedAt : t'.issuedAt = t.issuedAt
  final : t.status ≠ .valid → t' = t

theorem Ticket.Becomes.refl (t : Ticket) : t.Becomes t := ⟨rfl, rfl, rfl, rfl, fun _ => rfl⟩

theorem Ticket.Becomes.trans {t t' t'' : Ticket} (h : t.Becomes t') (h' : t'.Becomes t'') :
    t.Becomes t'' where
  ticketId := h'.ticketId.trans h.ticketId
  eventId := h'.eventId.trans h.eventId
  organizer := h'.organizer.trans h.organizer
  issuedAt := h'.issuedAt.trans h.issuedAt
  final ended := by
    obtain rfl := h.final ended
    exact h'.final ended

def Ticket.credential (crypto : Crypto) (t : Ticket) : BytesN 32 :=
  crypto.sha256 (crypto.credentialXdr t.eventId t.ticketId t.owner)

def Change.Marks : Change → Prop
  | .mark t status isUsed =>
    (status = .used ∧ isUsed = true) ∨ (status = .cancelled ∧ isUsed = t.isUsed)
  | _ => True

def credit (crypto : Crypto) (issued : ℕ → Option (BytesN 32)) : Change → ℕ → Option (BytesN 32)
  | .mark t .used _ => Function.update issued t.ticketId (some (t.credential crypto))
  | _ => issued

structure Registry.Credited (crypto : Crypto) (r : Registry) (issued : ℕ → Option (BytesN 32)) :
    Prop where
  used : ∀ k t, r.ticket k = some t → (t.isUsed = true ↔ t.status = .used)
  credential : ∀ k, issued k =
    ((r.ticket k).filter fun t => t.status = .used).map (Ticket.credential crypto)

namespace Registry

variable {r : Registry} {crypto : Crypto} {issued : ℕ → Option (BytesN 32)}

theorem putTicket_becomes {t t' u : Ticket} {k : ℕ} (same : t'.ticketId = t.ticketId)
    (was : r.ticket t.ticketId = some t) (becomes : t.Becomes t') (stored : r.ticket k = some u) :
    ∃ u', (r.putTicket t').ticket k = some u' ∧ u.Becomes u' := by
  by_cases here : k = t'.ticketId
  · subst here
    rw [same, was] at stored
    cases stored
    exact ⟨t', Function.update_self .., becomes⟩
  · exact ⟨u, update_eq_some.mpr (.inr ⟨here, stored⟩), .refl u⟩

theorem apply_becomes (kept : r.Kept) {c : Change} (sound : r.Sound c) {k : ℕ} {t : Ticket}
    (stored : r.ticket k = some t) : ∃ t', (r.apply c).ticket k = some t' ∧ t.Becomes t' := by
  cases c with
  | mint new =>
    have old : k ≠ new.ticketId := by
      have := (kept.numbered k t stored).2
      have := sound.1
      omega
    exact ⟨t, update_eq_some.mpr (.inr ⟨old, stored⟩), .refl t⟩
  | move u dst =>
    refine putTicket_becomes (t := u) rfl sound.1 ⟨rfl, rfl, rfl, rfl, fun ended => ?_⟩ stored
    exact absurd sound.2.2 ended
  | mark u status isUsed =>
    refine putTicket_becomes (t := u) rfl sound.1 ⟨rfl, rfl, rfl, rfl, fun ended => ?_⟩ stored
    exact absurd sound.2.2 ended
  | setKey => exact ⟨t, stored, .refl t⟩
  | dropKey => exact ⟨t, stored, .refl t⟩

/-- A ticket that cannot be used any more has kept its credential or its lack of one. -/
theorem Credited.put (h : r.Credited crypto issued) {t : Ticket} (unused : t.Usable) :
    (r.putTicket t).Credited crypto (Function.update issued t.ticketId none) where
  used k u hu := by
    obtain ⟨rfl, rfl⟩ | ⟨-, hu⟩ := update_eq_some.mp hu
    · simp [unused.1, unused.2]
    · exact h.used k u hu
  credential k := by
    by_cases here : k = t.ticketId
    · subst here
      simp [putTicket, unused.2]
    · simp [putTicket, here, h.credential]

theorem Credited.unissued (h : r.Credited crypto issued) {t : Ticket} {k : ℕ}
    (stored : r.ticket k = none ∨ r.ticket k = some t ∧ t.Usable) : issued k = none := by
  rw [h.credential]
  obtain absent | ⟨stored, usable⟩ := stored
  · rw [absent]
    rfl
  · rw [stored]
    simp [usable.2]

theorem apply_credited (kept : r.Kept) (h : r.Credited crypto issued) {c : Change}
    (sound : r.Sound c) (marks : c.Marks) :
    (r.apply c).Credited crypto (credit crypto issued c) := by
  have unchanged {k : ℕ} (none : issued k = none) : Function.update issued k Option.none = issued := by
    rw [← none, Function.update_eq_self]
  cases c with
  | mint t =>
    have absent : r.ticket t.ticketId = none := by
      by_contra present
      obtain ⟨u, hu⟩ := Option.ne_none_iff_exists'.mp present
      have := (kept.numbered _ u hu).2
      have := sound.1
      omega
    have put := h.put sound.2.1
    rw [unchanged (h.unissued (t := t) (.inl absent))] at put
    exact ⟨put.used, put.credential⟩
  | move t dst =>
    have put := h.put (t := { t with owner := dst }) sound.2
    rw [unchanged (h.unissued (.inr sound))] at put
    exact ⟨put.used, put.credential⟩
  | mark t status isUsed =>
    have none := h.unissued (.inr sound)
    obtain ⟨rfl, rfl⟩ | ⟨rfl, rfl⟩ := marks
    · refine ⟨fun k u hu => ?_, fun k => ?_⟩
      · obtain ⟨rfl, rfl⟩ | ⟨-, hu⟩ := update_eq_some.mp hu
        · simp
        · exact h.used k u hu
      · by_cases here : k = t.ticketId
        · subst here
          simp [apply, putTicket, credit, Ticket.credential]
        · simp [apply, putTicket, credit, here, h.credential]
    · refine ⟨fun k u hu => ?_, fun k => ?_⟩
      · obtain ⟨rfl, rfl⟩ | ⟨-, hu⟩ := update_eq_some.mp hu
        · simp [sound.2.1]
        · exact h.used k u hu
      · by_cases here : k = t.ticketId
        · subst here
          simp [apply, putTicket, credit, none]
        · simp [apply, putTicket, credit, here, h.credential]
  | setKey => exact ⟨h.used, h.credential⟩
  | dropKey => exact ⟨h.used, h.credential⟩

theorem run_credited {cs : List Change} (kept : r.Kept) (h : r.Credited crypto issued)
    (sound : Along apply Sound r cs) (marks : ∀ c ∈ cs, c.Marks) :
    (run apply r cs).Credited crypto (cs.foldl (credit crypto) issued) ∧
      ∀ k t, r.ticket k = some t →
        ∃ t', (run apply r cs).ticket k = some t' ∧ t.Becomes t' := by
  induction cs generalizing r issued with
  | nil => exact ⟨h, fun k t stored => ⟨t, stored, .refl t⟩⟩
  | cons c cs ih =>
    have credited := apply_credited kept h sound.1 (marks c (List.mem_cons_self ..))
    obtain ⟨rest, later⟩ := ih (apply_kept kept sound.1) credited sound.2
      fun c mem => marks c (List.mem_cons_of_mem _ mem)
    refine ⟨rest, fun k t stored => ?_⟩
    obtain ⟨t', stored', becomes⟩ := apply_becomes kept sound.1 stored
    obtain ⟨t'', stored'', becomes'⟩ := later k t' stored'
    exact ⟨t'', stored'', becomes.trans becomes'⟩

end Registry

section Calls

variable {env : Env} {w w' : World}

theorem Makes.marks {r : Registry} {cs : List Change} {c : Call} (makes : Makes env r cs c) :
    ∀ change ∈ cs, change.Marks := by
  have mints (e : Symbol) (organizer owner : Address) (ids : List ℕ) :
      ∀ change ∈ ids.map (minting env e organizer owner), change.Marks := by
    intro change mem
    obtain ⟨id, -, rfl⟩ := List.mem_map.mp mem
    trivial
  cases c with
  | mintTicket e organizer owner =>
    obtain rfl := makes
    exact mints e organizer owner [r.next]
  | batchMintTicket e organizer owner count =>
    obtain rfl := makes
    exact mints e organizer owner _
  | transferTicket =>
    obtain ⟨-, t, -, -, -, rfl⟩ := makes
    simp [Change.Marks]
  | adminTransferTicket =>
    obtain ⟨t, -, -, -, rfl⟩ := makes
    simp [Change.Marks]
  | useTicket =>
    obtain ⟨t, -, rfl⟩ := makes
    simp [Change.Marks]
  | cancelTicket =>
    obtain ⟨t, -, rfl⟩ := makes
    simp [Change.Marks]
  | setRecoveryKey =>
    obtain ⟨-, t, -, -, -, rfl⟩ := makes
    simp [Change.Marks]
  | recoverTicket =>
    obtain ⟨t, publicKey, -, -, -, -, rfl⟩ := makes
    simp [Change.Marks]
  | _ =>
    obtain rfl := makes
    simp

/-- Only `use_ticket` stores a credential, that of the ticket it marks. -/
theorem exec_credits {c : Call} {cs : List Change} (kept : w.registry.Kept)
    (makes : Makes env w.registry cs c) (h : c.exec env w = .ok w') :
    w'.annex.credential = cs.foldl (credit env.crypto) w.annex.credential := by
  have mints (e : Symbol) (organizer owner : Address) (ids : List ℕ) :
      (ids.map (minting env e organizer owner)).foldl (credit env.crypto) w.annex.credential =
        w.annex.credential := by
    induction ids with
    | nil => rfl
    | cons id ids ih => exact ih
  have moved {w₁ : World} {t : Ticket} {src dst : Address} {id id' : ℕ}
      (owned : ((w.set (.ticket id) t).removeOwnerTicket src id').addOwnerTicket dst id' = .ok w₁) :
      w₁.annex.credential = w.annex.credential := by
    rw [addOwnerTicket_annex owned, removeOwnerTicket_annex, set_ticket_annex]
  cases c with
  | mintTicket e organizer owner =>
    simp only [Call.exec, mintTicket, bind_eq_ok, pure_eq_ok] at h
    obtain ⟨_, ⟨-, -, w₁, issued, _, -, rfl⟩, rfl⟩ := h
    obtain rfl := makes
    exact (issueTicket_annex issued).1
  | batchMintTicket e organizer owner count =>
    simp only [Call.exec, batchMintTicket, bind_eq_ok, pure_eq_ok] at h
    obtain ⟨_, ⟨-, -, -, -, ⟨_, _, w₁⟩, issued, rfl⟩, rfl⟩ := h
    obtain rfl := makes
    rw [mints]
    exact (issueTickets_annex issued).1
  | transferTicket =>
    simp only [Call.exec, transferTicket, bind_eq_ok, pure_eq_ok] at h
    obtain ⟨-, -, -, -, _, -, -, -, -, -, -, -, -, -, w₁, owned, rfl⟩ := h
    obtain ⟨-, t, -, -, -, rfl⟩ := makes
    have same := moved owned
    exact same
  | adminTransferTicket =>
    simp only [Call.exec, adminTransferTicket, bind_eq_ok, pure_eq_ok] at h
    obtain ⟨-, -, _, -, -, -, _, -, -, -, -, -, w₁, owned, rfl⟩ := h
    obtain ⟨t, -, -, -, rfl⟩ := makes
    have same := moved owned
    exact same
  | recoverTicket =>
    simp only [Call.exec, recoverTicket, bind_eq_ok, pure_eq_ok] at h
    obtain ⟨_, -, -, -, _, -, -, -, w₁, owned, rfl⟩ := h
    obtain ⟨t, publicKey, -, -, -, -, rfl⟩ := makes
    have same := moved owned
    exact same
  | useTicket organizer owner id =>
    simp only [Call.exec, useTicket, bind_eq_ok, pure_eq_ok] at h
    obtain ⟨-, -, -, -, t, stored, -, -, -, -, -, -, -, -, -, -, rfl⟩ := h
    obtain ⟨t', stored', rfl⟩ := makes
    have same : some t = some t' := (getTicket_registry stored).symm.trans stored'
    cases same
    obtain ⟨rfl, -⟩ := kept.numbered id t stored'
    exact Store.table_set DataKey.attendanceCredential (by simp)
      (fun _ (o : Option (BytesN 32)) => o) w.storage t.ticketId (t.credential env.crypto)
  | cancelTicket =>
    simp only [Call.exec, cancelTicket, bind_eq_ok, pure_eq_ok] at h
    obtain ⟨-, -, _, -, -, -, -, -, -, -, rfl⟩ := h
    obtain ⟨t, -, rfl⟩ := makes
    rfl
  | setRecoveryKey =>
    simp only [Call.exec, setRecoveryKey, bind_eq_ok, pure_eq_ok] at h
    obtain ⟨-, -, _, -, -, -, -, -, rfl⟩ := h
    obtain ⟨-, t, -, -, -, rfl⟩ := makes
    rfl
  | initialise =>
    simp only [Call.exec, initializeContract, bind_eq_ok, pure_eq_ok] at h
    obtain ⟨-, -, -, -, rfl⟩ := h
    obtain rfl := makes
    rfl
  | setPaymentsContract =>
    simp only [Call.exec, setPaymentsContract, bind_eq_ok, pure_eq_ok] at h
    obtain ⟨-, -, rfl⟩ := h
    obtain rfl := makes
    rfl
  | setEventContract =>
    simp only [Call.exec, setEventContract, bind_eq_ok, pure_eq_ok] at h
    obtain ⟨-, -, rfl⟩ := h
    obtain rfl := makes
    rfl
  | migrate =>
    simp only [Call.exec, migrate, bind_eq_ok, pure_eq_ok] at h
    obtain ⟨_, ⟨-, -, -, -, rfl⟩, rfl⟩ := h
    obtain rfl := makes
    rfl

end Calls

section Runs

variable {d : Deployment}

def World.Credited (d : Deployment) (w : World) : Prop :=
  w.registry.Credited d.crypto w.annex.credential

theorem next_credited {w : World} (step : Step) (kept : w.registry.Kept) (h : w.Credited d) :
    (w.next d step).Credited d ∧ ∀ k t, w.registry.ticket k = some t →
      ∃ t', (w.next d step).registry.ticket k = some t' ∧ t.Becomes t' := by
  by_cases success : step.call.succeeds ⟨d, step.invocation⟩ w = true
  · obtain ⟨w', result⟩ := succeeds_iff.mp success
    obtain ⟨cs, makes, sound, effect⟩ := exec_made kept result
    have credits := exec_credits kept makes result
    rw [World.next, result, commit_ok, World.Credited, ← effect, exec_credits kept makes result]
    exact run_credited kept h sound makes.marks
  · rw [next_failed success]
    exact ⟨h, fun k t stored => ⟨t, stored, .refl t⟩⟩

theorem deployed_credited (d : Deployment) : deployed.Credited d where
  used k t stored := by cases stored
  credential k := rfl

/-- However a ticket's life goes on, its number, event, organizer and issue time stay; its flag
agrees with its status, a used or cancelled ticket stays as it is, and the attendance
credentials are those of the used tickets. -/
theorem ticket_lifecycle (d : Deployment) (steps later : List Step) :
    let w := run (World.next d) deployed steps
    (∀ k t, w.getTicket k = .ok t →
      (t.isUsed = true ↔ t.status = .used) ∧
      ∃ t', (run (World.next d) w later).getTicket k = .ok t' ∧ t.Becomes t') ∧
    ∀ k hash, w.get (.attendanceCredential k) = some hash ↔
      ∃ t, w.getTicket k = .ok t ∧ t.status = .used ∧
        hash = d.crypto.sha256 (d.crypto.credentialXdr t.eventId k t.owner) := by
  intro w
  have step (w : World) (step : Step) (inv : w.registry.Kept ∧ w.Credited d) :
      (w.next d step).registry.Kept ∧ (w.next d step).Credited d :=
    ⟨next_kept step inv.1, (next_credited step inv.1 inv.2).1⟩
  have inv : w.registry.Kept ∧ w.Credited d :=
    run_invariant (I := fun w : World => w.registry.Kept ∧ w.Credited d)
      (fun w label inv _ => step w label inv) (along_of_forall (fun _ _ => trivial) _ steps)
      ⟨deployed_kept, deployed_credited d⟩
  have becomes (k : ℕ) (t : Ticket) (stored : w.registry.ticket k = some t) :
      ∃ t', (run (World.next d) w later).registry.ticket k = some t' ∧ t.Becomes t' := by
    clear_value w
    induction later generalizing w t with
    | nil => exact ⟨t, stored, .refl t⟩
    | cons label later ih =>
      obtain ⟨t', stored', first⟩ := (next_credited label inv.1 inv.2).2 k t stored
      obtain ⟨t'', stored'', rest⟩ := ih _ (step w label inv) t' stored'
      exact ⟨t'', stored'', first.trans rest⟩
  refine ⟨fun k t stored => ?_, fun k hash => ?_⟩
  · obtain ⟨t', stored', life⟩ := becomes k t (getTicket_registry stored)
    exact ⟨inv.2.used k t (getTicket_registry stored), t', okOr_eq_ok.mpr stored', life⟩
  · change w.annex.credential k = some hash ↔ _
    rw [inv.2.credential, Option.map_eq_some_iff]
    constructor
    · rintro ⟨t, found, rfl⟩
      obtain ⟨stored, used⟩ := Option.filter_eq_some_iff.mp found
      obtain ⟨rfl, -⟩ := inv.1.numbered k t stored
      exact ⟨t, okOr_eq_ok.mpr stored, of_decide_eq_true used, rfl⟩
    · rintro ⟨t, stored, used, rfl⟩
      have stored := getTicket_registry stored
      obtain ⟨rfl, -⟩ := inv.1.numbered k t stored
      exact ⟨t, Option.filter_eq_some_iff.mpr ⟨stored, decide_eq_true used⟩, rfl⟩

end Runs

end Zicket.Tickets
