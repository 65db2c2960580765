import Zicket.Foundation.SlotIndex
import Zicket.Privacy.Sales
import Zicket.Foundation.Run

/-! Whose the tickets are. The owner is in the ticket, in the membership entry of an index and
in one of its slots, and a listing names him a fourth time; purchases and resales keep the
four in step, and nothing else writes them. -/

namespace Zicket.Payments

open Host Foundation

def DataKey.IsTitle : DataKey → Bool
  | .ticket _ | .ownerTicket _ _ | .ownerTicketIndex _ _ | .ownerTicketsCount _
  | .resaleListing _ => true
  | _ => false

theorem title_free (k : DataKey) (routine : k.IsRoutine = true) : k.IsTitle = false := by
  cases k <;> first | rfl | cases routine

theorem title_of_token (k : DataKey) (entry : k.IsTokenEntry = true) : k.IsTitle = false := by
  cases k <;> first | rfl | cases entry

theorem title_of_replay (k : DataKey) (h : k.IsReplay = true) : k.IsTitle = false := by
  cases k <;> first | rfl | cases h

theorem title_of_payer (k : DataKey) (h : k.IsPayerEntry = true) : k.IsTitle = false := by
  cases k <;> first | rfl | cases h

def World.ownerIndex (w : World) (o : Address) : SlotIndex ℕ where
  count := w.getOwnerTicketsCount o
  slot i := w.get (.ownerTicketIndex o i)
  place id := w.get (.ownerTicket o id)

def World.ownerOf (w : World) (id : ℕ) : Option Address := (w.get (.ticket id)).bind (·.owner)

def World.seller (w : World) (id : ℕ) : Option Address :=
  (w.get (.resaleListing id)).map (·.seller)

variable {env : Env} {params : PaymentParams} {w w' : World} {o o' : Address} {id : ℕ}

namespace World

section Tables

variable (w) (o)

theorem ownerIndex_set_ownerTicket (id i : ℕ) :
    (w.set (.ownerTicket o id) i).ownerIndex = Function.update w.ownerIndex o
      { w.ownerIndex o with place := Function.update (w.ownerIndex o).place id (some i) } := by
  have table := Store.table_set (DataKey.ownerTicket o) (by simp)
    (fun _ (o : Option ℕ) => o) w.storage id i
  refine Function.eq_update_iff.mpr ⟨SlotIndex.ext rfl rfl table, fun a other => ?_⟩
  exact SlotIndex.ext rfl rfl (funext fun k => Store.get_set_of_ne _ _ (by simp [other]))

theorem ownerIndex_remove_ownerTicket (id : ℕ) :
    (w.remove (.ownerTicket o id)).ownerIndex = Function.update w.ownerIndex o
      { w.ownerIndex o with place := Function.update (w.ownerIndex o).place id none } := by
  have table := Store.table_remove (DataKey.ownerTicket o) (by simp)
    (fun _ (o : Option ℕ) => o) w.storage id
  refine Function.eq_update_iff.mpr ⟨SlotIndex.ext rfl rfl table, fun a other => ?_⟩
  exact SlotIndex.ext rfl rfl (funext fun k => Store.get_remove_of_ne _ (by simp [other]))

theorem ownerIndex_set_ownerTicketIndex (i id : ℕ) :
    (w.set (.ownerTicketIndex o i) id).ownerIndex = Function.update w.ownerIndex o
      { w.ownerIndex o with slot := Function.update (w.ownerIndex o).slot i (some id) } := by
  have table := Store.table_set (DataKey.ownerTicketIndex o) (by simp)
    (fun _ (o : Option ℕ) => o) w.storage i id
  refine Function.eq_update_iff.mpr ⟨SlotIndex.ext rfl table rfl, fun a other => ?_⟩
  exact SlotIndex.ext rfl (funext fun k => Store.get_set_of_ne _ _ (by simp [other])) rfl

theorem ownerIndex_remove_ownerTicketIndex (i : ℕ) :
    (w.remove (.ownerTicketIndex o i)).ownerIndex = Function.update w.ownerIndex o
      { w.ownerIndex o with slot := Function.update (w.ownerIndex o).slot i none } := by
  have table := Store.table_remove (DataKey.ownerTicketIndex o) (by simp)
    (fun _ (o : Option ℕ) => o) w.storage i
  refine Function.eq_update_iff.mpr ⟨SlotIndex.ext rfl table rfl, fun a other => ?_⟩
  exact SlotIndex.ext rfl (funext fun k => Store.get_remove_of_ne _ (by simp [other])) rfl

theorem ownerIndex_set_ownerTicketsCount (n : ℕ) :
    (w.set (.ownerTicketsCount o) n).ownerIndex = Function.update w.ownerIndex o
      { w.ownerIndex o with count := n } := by
  have table := Store.table_set DataKey.ownerTicketsCount (by simp)
    (fun _ (o : Option ℕ) => o.getD 0) w.storage o n
  refine Function.eq_update_iff.mpr ⟨?_, fun a other => ?_⟩
  · exact SlotIndex.ext ((congrFun table o).trans (Function.update_self ..)) rfl rfl
  · exact SlotIndex.ext ((congrFun table a).trans (Function.update_of_ne other ..)) rfl rfl

end Tables

theorem addOwnerTicketMap_ownerIndex (h : w.addOwnerTicketMap o id = .ok w') :
    w'.ownerIndex = Function.update w.ownerIndex o ((w.ownerIndex o).add id) := by
  simp only [addOwnerTicketMap, bind_eq_ok, pure_eq_ok, u64_eq_ok] at h
  obtain ⟨count, ⟨-, rfl⟩, rfl⟩ := h
  rw [ownerIndex_set_ownerTicketsCount, ownerIndex_set_ownerTicketIndex,
    ownerIndex_set_ownerTicket]
  simp only [Function.update_self, Function.update_idem]
  rfl

/-- A member's index is not empty, so the early return is not taken. -/
theorem removeOwnerTicketMap_ownerIndex (formed : (w.ownerIndex o).WellFormed) :
    (w.removeOwnerTicketMap o id).ownerIndex =
      Function.update w.ownerIndex o ((w.ownerIndex o).remove id) := by
  have view := ownerIndex_remove_ownerTicket w o id
  have count : (w.remove (.ownerTicket o id)).getOwnerTicketsCount o = (w.ownerIndex o).count :=
    (congrArg SlotIndex.count (congrFun view o)).trans (by simp)
  have slot (i : ℕ) : (w.remove (.ownerTicket o id)).get (.ownerTicketIndex o i) =
      (w.ownerIndex o).slot i :=
    (congrArg (fun index : SlotIndex ℕ => index.slot i) (congrFun view o)).trans (by simp)
  have stored : w.get (.ownerTicket o id) = (w.ownerIndex o).place id := rfl
  unfold removeOwnerTicketMap SlotIndex.remove
  simp only [stored, count, slot]
  cases found : (w.ownerIndex o).place id with
  | none => exact view
  | some i =>
    have filled : (w.ownerIndex o).count ≠ 0 := by
      have := (formed.place id i found).1
      omega
    simp only
    rw [if_neg filled, if_neg filled, ownerIndex_set_ownerTicketsCount,
      ownerIndex_remove_ownerTicketIndex]
    split
    · unfold SlotIndex.swapIn
      cases (w.ownerIndex o).slot ((w.ownerIndex o).count - 1) with
      | none =>
        rw [view]
        simp only [Function.update_self, Function.update_idem]
      | some last =>
        simp only [ownerIndex_set_ownerTicket, ownerIndex_set_ownerTicketIndex, view,
          Function.update_self, Function.update_idem]
    · rw [view]
      simp only [Function.update_self, Function.update_idem]

theorem addOwnerTicketMap_keeps (h : w.addOwnerTicketMap o id = .ok w') :
    w'.ownerOf = w.ownerOf ∧ w'.seller = w.seller := by
  simp only [addOwnerTicketMap, bind_eq_ok, pure_eq_ok] at h
  obtain ⟨count, -, rfl⟩ := h
  exact ⟨rfl, rfl⟩

theorem removeOwnerTicketMap_keeps (w : World) (o : Address) (id : ℕ) :
    (w.removeOwnerTicketMap o id).ownerOf = w.ownerOf ∧
      (w.removeOwnerTicketMap o id).seller = w.seller := by
  unfold removeOwnerTicketMap
  dsimp only
  split
  · exact ⟨rfl, rfl⟩
  · split
    · exact ⟨rfl, rfl⟩
    · split
      · split
        · exact ⟨rfl, rfl⟩
        · exact ⟨rfl, rfl⟩
      · exact ⟨rfl, rfl⟩

theorem Leaves.ownerIndex (h : w.Leaves DataKey.IsTitle w') : w'.ownerIndex = w.ownerIndex := by
  funext o
  refine SlotIndex.ext ?_ (funext fun i => h _ rfl) (funext fun id => h _ rfl)
  exact congrArg (fun stored => Option.getD stored 0) (h (.ownerTicketsCount o) rfl)

theorem Leaves.ownerOf (h : w.Leaves DataKey.IsTitle w') : w'.ownerOf = w.ownerOf :=
  funext fun id => congrArg (fun stored => Option.bind stored Ticket.owner) (h (.ticket id) rfl)

theorem Leaves.seller (h : w.Leaves DataKey.IsTitle w') : w'.seller = w.seller :=
  funext fun id =>
    congrArg (fun stored => Option.map ResaleListing.seller stored) (h (.resaleListing id) rfl)

theorem ownerOf_set_ticket (w : World) (ticket : Ticket) :
    (w.set (.ticket id) ticket).ownerOf = Function.update w.ownerOf id ticket.owner :=
  Store.table_set DataKey.ticket (by simp)
    (fun _ (stored : Option Ticket) => stored.bind (·.owner)) w.storage id ticket

theorem seller_set_resaleListing (w : World) (listing : ResaleListing) :
    (w.set (.resaleListing id) listing).seller =
      Function.update w.seller id (some listing.seller) :=
  Store.table_set DataKey.resaleListing (by simp)
    (fun _ (stored : Option ResaleListing) => stored.map (·.seller)) w.storage id listing

theorem seller_remove_resaleListing (w : World) (id : ℕ) :
    (w.remove (.resaleListing id)).seller = Function.update w.seller id none :=
  Store.table_remove DataKey.resaleListing (by simp)
    (fun _ (stored : Option ResaleListing) => stored.map (·.seller)) w.storage id

end World

/-- The four places agree: the index of an owner is intact and holds what he owns, and what is
listed is listed by its owner. -/
structure World.Titled (w : World) : Prop where
  owned : Owned w.ownerIndex w.ownerOf
  listed : ∀ id seller, w.seller id = some seller → w.ownerOf id = some seller

namespace World.Titled

theorem deployed (balances : Balances Address Address) : (deployed balances).Titled where
  owned := ⟨fun _ => ⟨nofun, fun _ lt => absurd lt (Nat.not_lt_zero _)⟩, fun _ _ => ⟨nofun, nofun⟩⟩
  listed _ _ := nofun

theorem of_leaves (titled : w.Titled) (h : w.Leaves DataKey.IsTitle w') : w'.Titled where
  owned := by
    rw [h.ownerIndex, h.ownerOf]
    exact titled.owned
  listed id seller := by
    rw [h.seller, h.ownerOf]
    exact titled.listed id seller

theorem unlisted (titled : w.Titled) (free : w.ownerOf id = none) : w.seller id = none := by
  cases listed : w.seller id with
  | none => rfl
  | some seller =>
    have := titled.listed id seller listed
    rw [free] at this
    cases this

theorem store (titled : w.Titled) {ticket : Ticket} (new : w.get (.ticket id) = none)
    (unowned : ticket.owner = none) : (w.set (.ticket id) ticket).Titled := by
  have free : w.ownerOf id = none := by rw [ownerOf, new, Option.bind_none]
  have same : (w.set (.ticket id) ticket).ownerOf = w.ownerOf := by
    rw [ownerOf_set_ticket, unowned, ← free, Function.update_eq_self]
  exact ⟨same ▸ titled.owned, same ▸ titled.listed⟩

theorem issue (titled : w.Titled) {ticket : Ticket} (new : w.get (.ticket id) = none)
    (owner : ticket.owner = some o)
    (h : (w.set (.ticket id) ticket).addOwnerTicketMap o id = .ok w') : w'.Titled := by
  have free : w.ownerOf id = none := by rw [ownerOf, new, Option.bind_none]
  obtain ⟨owns, lists⟩ := addOwnerTicketMap_keeps h
  have index := addOwnerTicketMap_ownerIndex h
  rw [ownerOf_set_ticket, owner] at owns
  refine ⟨?_, fun k seller listed => ?_⟩
  · rw [index, owns]
    exact titled.owned.give free o
  · have before : w.seller k = some seller := (congrFun lists k).symm.trans listed
    have other : k ≠ id := by
      rintro rfl
      rw [titled.unlisted free] at before
      cases before
    rw [owns, Function.update_of_ne other]
    exact titled.listed k seller before

/-- A ticket changes hands and its listing goes, also when the buyer is the seller. -/
theorem handOver (titled : w.Titled) {ticket : Ticket} {seller buyer : Address} {moved : World}
    (mine : w.ownerOf id = some seller)
    (h : ((w.set (.ticket id) { ticket with owner := some buyer }).removeOwnerTicketMap seller
      id).addOwnerTicketMap buyer id = .ok moved) : (moved.removeResaleListing id).Titled := by
  set handed := w.set (.ticket id) { ticket with owner := some buyer } with handed_eq
  have formed : (handed.ownerIndex seller).WellFormed := titled.owned.formed seller
  obtain ⟨owns, lists⟩ := addOwnerTicketMap_keeps h
  obtain ⟨owns', lists'⟩ := removeOwnerTicketMap_keeps handed seller id
  have index := addOwnerTicketMap_ownerIndex h
  rw [removeOwnerTicketMap_ownerIndex formed] at index
  have given := (titled.owned.take mine).give (Function.update_self ..) buyer
  have owner : moved.ownerOf = Function.update w.ownerOf id (some buyer) := by
    rw [owns, owns', handed_eq, ownerOf_set_ticket]
  rw [Function.update_idem, ← owner] at given
  refine ⟨?_, fun k seller' listed => ?_⟩
  · exact (congrArg (fun index => Owned index moved.ownerOf) index).mpr given
  · change (moved.remove (.resaleListing id)).seller k = some seller' at listed
    rw [seller_remove_resaleListing] at listed
    have other : k ≠ id := by
      rintro rfl
      rw [Function.update_self] at listed
      cases listed
    rw [Function.update_of_ne other, lists, lists'] at listed
    change moved.ownerOf k = _
    rw [owner, Function.update_of_ne other]
    exact titled.listed k seller' listed

theorem list (titled : w.Titled) {listing : ResaleListing}
    (mine : w.ownerOf id = some listing.seller) : (w.saveResaleListing id listing).Titled where
  owned := titled.owned
  listed k seller listed := by
    change (w.set (.resaleListing id) listing).seller k = some seller at listed
    change w.ownerOf k = some seller
    rw [seller_set_resaleListing] at listed
    by_cases same : k = id
    · subst same
      rw [Function.update_self] at listed
      rw [mine, listed]
    · rw [Function.update_of_ne same] at listed
      exact titled.listed k seller listed

theorem delist (titled : w.Titled) (id : ℕ) : (w.removeResaleListing id).Titled where
  owned := titled.owned
  listed k seller listed := by
    change (w.remove (.resaleListing id)).seller k = some seller at listed
    change w.ownerOf k = some seller
    rw [seller_remove_resaleListing] at listed
    by_cases same : k = id
    · subst same
      rw [Function.update_self] at listed
      cases listed
    · rw [Function.update_of_ne same] at listed
      exact titled.listed k seller listed

end World.Titled

section Calls

theorem built_owner {paidAt : ℕ} {p : PaymentRecord}
    (h : buildPaymentRecord env params id paidAt = .ok p) :
    p.payer = if p.privacyLevel = .standard then some params.payer else none := by
  unfold buildPaymentRecord at h
  dsimp only at h
  split at h <;> rename_i level
  all_goals
    simp only [bind_eq_ok, pure_eq_ok] at h
  · obtain ⟨-, -, -, -, rfl⟩ := h
    simp [level]
  · obtain ⟨-, -, -, -, rfl⟩ := h
    simp [level]
  · obtain ⟨-, -, rfl⟩ := h
    simp [level]

theorem createPayment_issues (h : createPayment env params w = .ok (id, w')) :
    ∃ (before owned : World) (ticketId : ℕ) (p : PaymentRecord),
      w.Leaves DataKey.IsTitle before ∧ before.get (.ticket ticketId) = none ∧
      p.payer = (if p.privacyLevel = .standard then some params.payer else none) ∧
      indexOwner (before.set (.ticket ticketId) (buildTicket p ticketId)) params p ticketId =
        .ok owned ∧
      owned.Leaves DataKey.IsTitle w' := by
  obtain ⟨p, ticketId, paid, listed, before, owned, built, earlier, lists, between, new, owns,
    later⟩ := createPayment_phases title_free title_of_replay title_of_payer h
  have enlisted := addEventToken_leaves paid title_of_token listed lists
  exact ⟨before, owned, ticketId, p, earlier.trans (enlisted.trans between), new,
    built_owner built, owns, later⟩

theorem createPayment_titled (titled : w.Titled) (h : createPayment env params w = .ok (id, w')) :
    w'.Titled := by
  obtain ⟨before, owned, ticketId, p, earlier, new, payer, owns, later⟩ := createPayment_issues h
  have ready := titled.of_leaves earlier
  unfold indexOwner at owns
  split at owns
  · rename_i standard
    rw [if_pos standard] at payer
    exact (ready.issue new payer owns).of_leaves later
  · rename_i other
    rw [if_neg other] at payer
    obtain rfl := pure_eq_ok.mp owns
    exact (ready.store new payer).of_leaves later

theorem buyResaleTicket_titled {buyer : Address} (titled : w.Titled)
    (h : buyResaleTicket env buyer id w = .ok w') : w'.Titled := by
  obtain ⟨ticket, seller, paid, moved, stored, owner, pays, moves, rfl⟩ :=
    buyResaleTicket_ok title_free h
  have mine : paid.ownerOf id = some seller := by
    rw [pays.ownerOf, World.ownerOf, stored]
    exact owner
  exact (titled.of_leaves pays).handOver mine moves

theorem listTicketForResale_titled {seller : Address} {price : ℤ} (titled : w.Titled)
    (h : listTicketForResale env seller id price w = .ok w') : w'.Titled := by
  simp only [listTicketForResale, bind_eq_ok, pure_eq_ok, require_eq_ok] at h
  obtain ⟨-, -, -, -, ticket, stored, -, owner, -, -, -, -, -, -, -, -, -, -, -, -, rfl⟩ := h
  have mine : w.ownerOf id = some seller := by
    rw [World.ownerOf, show w.get (.ticket id) = some ticket from okOr_eq_ok.mp stored]
    exact owner
  exact titled.list mine

theorem exec_titled {c : Call} (titled : w.Titled) (h : c.exec env w = .ok w') : w'.Titled := by
  cases c with
  | payForTicket | payForTicketWithCommitment | payForTicketWithOptions =>
    rw [exec_params rfl] at h
    simp only [bind_eq_ok, pure_eq_ok] at h
    obtain ⟨⟨id, w₁⟩, sold, rfl⟩ := h
    exact createPayment_titled titled sold
  | buyResaleTicket => exact buyResaleTicket_titled titled h
  | listTicketForResale => exact listTicketForResale_titled titled h
  | delistTicket seller id =>
    simp only [Call.exec, delistTicket, bind_eq_ok, pure_eq_ok] at h
    obtain ⟨-, -, -, -, -, -, -, -, rfl⟩ := h
    exact titled.delist id
  | syncEventPrivacy =>
    exact titled.of_leaves (Yields.skip (fun _ => .skip fun _ => .pure (.set _ rfl)) w' h)
  | setPaused => exact titled.of_leaves (Yields.skip (fun _ => .pure (.set _ rfl)) w' h)
  | _ =>
    refine titled.of_leaves (exec_leaves w title_free ?_ (fun lists => ?_)
      (fun _ => title_of_token) w' h)
    · rfl
    · cases lists

theorem next_titled (d : Deployment) (titled : w.Titled) (step : Step) :
    (w.next d step).Titled := by
  cases step with
  | call invocation c => exact commit_induction titled fun w' h => exec_titled titled h
  | mint token dst amount =>
    unfold World.next
    dsimp only
    split
    · exact titled.of_leaves (.refl _ w)
    · exact titled
  | pay token src dst amount =>
    unfold World.next World.payOutside
    dsimp only
    split
    · exact titled
    · exact titled.of_leaves (.refl _ w)

end Calls

/-- In every reachable state the list of an owner's tickets has no duplicates and is exactly
what is stored as his, and a listed ticket is its seller's. -/
theorem owner_tickets_exact (d : Deployment) (balances : Balances Address Address)
    (steps : List Step) :
    let w := run (World.next d) (deployed balances) steps
    (∀ o, (w.getOwnerTickets o).Nodup ∧ ∀ id, id ∈ w.getOwnerTickets o ↔
      ∃ ticket, w.getTicket id = .ok ticket ∧ ticket.owner = some o) ∧
    ∀ id listing, w.getResaleListing id = some listing →
      ∃ ticket, w.getTicket id = .ok ticket ∧ ticket.owner = some listing.seller := by
  intro w
  have titled : (run (World.next d) (deployed balances) steps).Titled :=
    run_invariant (I := World.Titled) (fun w step titled _ => next_titled d titled step)
      (along_of_forall (P := fun _ _ => True) (fun _ _ => trivial) _ steps)
      (World.Titled.deployed balances)
  have stored (id : ℕ) (o : Address) : w.ownerOf id = some o ↔
      ∃ ticket, w.getTicket id = .ok ticket ∧ ticket.owner = some o := by
    simp only [World.ownerOf, World.getTicket, okOr_eq_ok, Option.bind_eq_some_iff]
  refine ⟨fun o => ⟨(titled.owned.formed o).nodup_items, fun id => ?_⟩, fun id listing found => ?_⟩
  · exact titled.owned.mem_items.trans (stored id o)
  · refine (stored id listing.seller).mp (titled.listed id listing.seller ?_)
    exact Option.map_eq_some_iff.mpr ⟨listing, found, rfl⟩

end Zicket.Payments
