import Zicket.Registry.Calls

/-! A batch of minted tickets is the same as its tickets minted one by one: the loop of
`batch_mint_ticket` keeps the next id to itself and writes it once, which nothing notices. -/

namespace Zicket.Tickets

open Host Foundation

variable {d : Deployment} {invocation : Invocation} {env : Env} {e : Symbol}
  {organizer owner : Address} {w : World}

def mintTickets (d : Deployment) (e : Symbol) (organizer owner : Address) :
    List Invocation → World → Attempt (List ℕ × World)
  | [], w => return ([], w)
  | invocation :: invocations, w => do
    let (ticketId, w) ← mintTicket ⟨d, invocation⟩ e organizer owner w
    let (ticketIds, w) ← mintTickets d e organizer owner invocations w
    return (ticketId :: ticketIds, w)

/-- The same time and the same signatures: all of an invocation that minting looks at. -/
def Alike (i j : Invocation) : Prop := i.timestamp = j.timestamp ∧ i.authorized = j.authorized

namespace World

theorem set_writeNextTicketId {k : DataKey} (other : k ≠ .nextTicketId) (w : World) (n : ℕ)
    (v : k.Val) : (w.writeNextTicketId n).set k v = (w.set k v).writeNextTicketId n :=
  congrArg (fun storage => ({ w with storage } : World))
    (Store.set_comm w.storage (Ne.symm other) (show DataKey.nextTicketId.Val from n) v)

@[simp] theorem writeNextTicketId_twice (w : World) (n m : ℕ) :
    (w.writeNextTicketId n).writeNextTicketId m = w.writeNextTicketId m :=
  congrArg (fun storage => ({ w with storage } : World)) (Store.set_set w.storage .nextTicketId n m)

@[simp] theorem readNextTicketId_write (w : World) (n : ℕ) :
    (w.writeNextTicketId n).readNextTicketId = n :=
  congrArg (fun stored => Option.getD stored 1) (Store.get_set_self w.storage .nextTicketId n)

theorem addOwnerTicket_write (w : World) (n id : ℕ) :
    (w.writeNextTicketId n).addOwnerTicket owner id =
      (w.addOwnerTicket owner id).map (·.writeNextTicketId n) := by
  have count : (w.writeNextTicketId n).getOwnerTicketsCount owner = w.getOwnerTicketsCount owner := rfl
  simp only [addOwnerTicket, count]
  cases (u64 (w.getOwnerTicketsCount owner + 1) : Attempt ℕ) with
  | error failure => rfl
  | ok next =>
    refine congrArg Except.ok ?_
    rw [set_writeNextTicketId (by simp), set_writeNextTicketId (by simp),
      set_writeNextTicketId (by simp)]
    rfl

theorem addEventTicket_write (w : World) (n id : ℕ) :
    (w.writeNextTicketId n).addEventTicket e id =
      (w.addEventTicket e id).map (·.writeNextTicketId n) := by
  have count : ((w.writeNextTicketId n).set (.eventTicket e id) true).getEventTicketsCount e =
      (w.set (.eventTicket e id) true).getEventTicketsCount e := rfl
  simp only [addEventTicket, count]
  cases (u64 ((w.set (.eventTicket e id) true).getEventTicketsCount e + 1) : Attempt ℕ) with
  | error failure => rfl
  | ok next =>
    refine congrArg Except.ok ?_
    rw [set_writeNextTicketId (by simp), set_writeNextTicketId (by simp),
      set_writeNextTicketId (by simp)]
    rfl

end World

open World

/-- Issuing a ticket neither reads nor writes the next id. -/
theorem issueTicket_write (w : World) (n id : ℕ) :
    issueTicket env e organizer owner id (w.writeNextTicketId n) =
      (issueTicket env e organizer owner id w).map (·.writeNextTicketId n) := by
  simp only [issueTicket, set_writeNextTicketId (k := .ticket id) (by simp), addOwnerTicket_write]
  cases (w.set (.ticket id) _).addOwnerTicket owner id with
  | error failure => rfl
  | ok w₁ =>
    change ((w₁.writeNextTicketId n).addEventTicket e id >>= _) = _
    rw [addEventTicket_write]
    cases added : w₁.addEventTicket e id with
    | error failure =>
      change _ = ((w₁.addEventTicket e id >>= _).map _ : Attempt World)
      rw [added]
      rfl
    | ok w₂ =>
      change _ = ((w₁.addEventTicket e id >>= _).map _ : Attempt World)
      rw [added]
      rfl

theorem issueTicket_minter {w' : World} {id : ℕ}
    (h : issueTicket env e organizer owner id w = .ok w') :
    requireMinter env w' organizer = requireMinter env w organizer := by
  simp only [issueTicket, addOwnerTicket, addEventTicket, bind_eq_ok, pure_eq_ok] at h
  obtain ⟨w₁, ⟨_, -, rfl⟩, w₂, ⟨_, -, rfl⟩, rfl⟩ := h
  rfl

theorem mintTicket_write (minter : requireMinter env w organizer = .ok ()) (n : ℕ) :
    mintTicket env e organizer owner (w.writeNextTicketId n) = do
      let w ← issueTicket env e organizer owner n w
      return (n, w.writeNextTicketId (← u64 (n + 1))) := by
  have same : requireMinter env (w.writeNextTicketId n) organizer = .ok () := minter
  simp only [mintTicket, same, readNextTicketId_write, issueTicket_write]
  cases issueTicket env e organizer owner n w with
  | error failure => rfl
  | ok w' =>
    change (u64 (n + 1) >>= _ : Attempt _) = (u64 (n + 1) >>= _ : Attempt _)
    simp only [writeNextTicketId_twice]

/-- Writing the next id back where it was read is not noticed by the next mint. -/
theorem mintTicket_rewrite (minter : requireMinter env w organizer = .ok ()) :
    mintTicket env e organizer owner (w.writeNextTicketId w.readNextTicketId) =
      mintTicket env e organizer owner w := by
  rw [mintTicket_write minter, mintTicket, minter]
  rfl

theorem mintTicket_alike {i j : Invocation} (alike : Alike i j) :
    mintTicket ⟨d, i⟩ e organizer owner w = mintTicket ⟨d, j⟩ e organizer owner w := by
  obtain ⟨time, signed⟩ := alike
  simp only [mintTicket, requireMinter, issueTicket, requireAuth, time, signed]

/-- The loop invariant: after any number of tickets the calls have stored the next id that
the loop holds, and are otherwise where the loop is. -/
theorem mintTickets_write {invocations : List Invocation}
    (alike : ∀ i ∈ invocations, Alike i invocation)
    (minter : requireMinter ⟨d, invocation⟩ w organizer = .ok ()) (n : ℕ) :
    mintTickets d e organizer owner invocations (w.writeNextTicketId n) =
      (issueTickets ⟨d, invocation⟩ e organizer owner invocations.length n w).map
        fun (ids, lastId, w') => (ids, w'.writeNextTicketId lastId) := by
  induction invocations generalizing n w with
  | nil => rfl
  | cons i invocations ih =>
    obtain ⟨first, rest⟩ := List.forall_mem_cons.mp alike
    simp only [mintTickets, List.length_cons, issueTickets, mintTicket_alike first,
      mintTicket_write minter]
    cases issued : issueTicket ⟨d, invocation⟩ e organizer owner n w with
    | error failure => rfl
    | ok w₁ =>
      cases next : (u64 (n + 1) : Attempt ℕ) with
      | error failure => simp [bind, Except.bind, Except.map]
      | ok n₁ =>
        change (mintTickets d e organizer owner invocations (w₁.writeNextTicketId n₁) >>= _) = _
        rw [ih rest ((issueTicket_minter issued).trans minter)]
        cases looped : issueTickets ⟨d, invocation⟩ e organizer owner invocations.length n₁ w₁ <;>
          simp [bind, Except.bind, Except.map, pure, Except.pure, looped]

theorem mintTicket_refused {failure : Failure TicketError} {i : Invocation}
    (alike : Alike i invocation)
    (refused : requireMinter ⟨d, invocation⟩ w organizer = .error failure) :
    mintTicket ⟨d, i⟩ e organizer owner w = .error failure := by
  rw [mintTicket_alike alike, mintTicket, refused]
  rfl

theorem mintTickets_refused {failure : Failure TicketError} {invocations : List Invocation}
    (alike : ∀ i ∈ invocations, Alike i invocation) (least : 1 ≤ invocations.length)
    (refused : requireMinter ⟨d, invocation⟩ w organizer = .error failure) :
    mintTickets d e organizer owner invocations w = .error failure := by
  obtain ⟨i, rest, rfl⟩ := List.exists_cons_of_ne_nil (List.ne_nil_of_length_pos least)
  rw [mintTickets, mintTicket_refused (alike i List.mem_cons_self) refused]
  rfl

theorem batchMintTicket_eq {invocations : List Invocation}
    (alike : ∀ i ∈ invocations, Alike i invocation)
    (count : 1 ≤ invocations.length ∧ invocations.length ≤ 100) :
    batchMintTicket ⟨d, invocation⟩ e organizer owner invocations.length w =
      mintTickets d e organizer owner invocations w := by
  obtain ⟨least, most⟩ := count
  have counted : invocations.length ≠ 0 ∧ invocations.length ≤ 100 := ⟨by omega, most⟩
  have checked : (require (invocations.length ≠ 0 ∧ invocations.length ≤ 100) .invalidInput :
      Attempt Unit) = .ok () := require_eq_ok.mpr counted
  rw [batchMintTicket, checked]
  change (requireMinter ⟨d, invocation⟩ w organizer >>= _) = _
  cases minter : requireMinter ⟨d, invocation⟩ w organizer with
  | error failure =>
    rw [mintTickets_refused alike least minter]
    rfl
  | ok u =>
    have rewritten : mintTickets d e organizer owner invocations
        (w.writeNextTicketId w.readNextTicketId) =
          mintTickets d e organizer owner invocations w := by
      obtain ⟨i, rest, split⟩ := List.exists_cons_of_ne_nil (List.ne_nil_of_length_pos least)
      have first : Alike i invocation := alike i (split ▸ List.mem_cons_self)
      rw [split, mintTickets, mintTickets, mintTicket_alike first, mintTicket_alike first,
        mintTicket_rewrite minter]
    rw [← rewritten, mintTickets_write alike minter]
    change (issueTickets ⟨d, invocation⟩ e organizer owner _ w.readNextTicketId w >>= _) = _
    cases issueTickets ⟨d, invocation⟩ e organizer owner invocations.length
      w.readNextTicketId w <;> rfl

def Room (w : World) (e : Symbol) (owner : Address) (count : ℕ) : Prop :=
  w.readNextTicketId + count < 2 ^ 64 ∧ w.getOwnerTicketsCount owner + count < 2 ^ 64 ∧
    w.getEventTicketsCount e + count < 2 ^ 64

theorem mintTicket_room {count : ℕ} (room : Room w e owner (count + 1))
    (minter : requireMinter env w organizer = .ok ()) :
    ∃ w', mintTicket env e organizer owner w = .ok (w.readNextTicketId, w') ∧
      requireMinter env w' organizer = .ok () ∧ Room w' e owner count := by
  obtain ⟨next, owned, sold⟩ := room
  simp only [mintTicket, issueTicket, addOwnerTicket, addEventTicket, bind_eq_ok, pure_eq_ok,
    u64_eq_ok]
  refine ⟨_, ⟨(), minter, _, ⟨_, ⟨_, ⟨?_, rfl⟩, rfl⟩, _, ⟨_, ⟨?_, rfl⟩, rfl⟩, rfl⟩,
    _, ⟨?_, rfl⟩, rfl⟩, minter, ?_, ?_, ?_⟩
  · change w.getOwnerTicketsCount owner + 1 < 2 ^ 64
    omega
  · change w.getEventTicketsCount e + 1 < 2 ^ 64
    omega
  · omega
  · rw [readNextTicketId_write]
    omega
  · unfold getOwnerTicketsCount at owned
    simp only [getOwnerTicketsCount, World.get, World.set, writeNextTicketId, emit] at owned ⊢
    simp
    omega
  · unfold getEventTicketsCount at sold
    simp only [getEventTicketsCount, World.get, World.set, writeNextTicketId, emit] at sold ⊢
    simp
    omega

theorem mintTickets_room {invocations : List Invocation}
    (alike : ∀ i ∈ invocations, Alike i invocation)
    (minter : requireMinter ⟨d, invocation⟩ w organizer = .ok ())
    (room : Room w e owner invocations.length) :
    ∃ ids w', mintTickets d e organizer owner invocations w = .ok (ids, w') := by
  induction invocations generalizing w with
  | nil => exact ⟨[], w, rfl⟩
  | cons i invocations ih =>
    obtain ⟨first, rest⟩ := List.forall_mem_cons.mp alike
    obtain ⟨w₁, minted, minter₁, room₁⟩ := mintTicket_room room minter
    obtain ⟨ids, w', looped⟩ := ih rest minter₁ room₁
    refine ⟨w.readNextTicketId :: ids, w', ?_⟩
    rw [mintTickets, mintTicket_alike first, minted]
    change (mintTickets d e organizer owner invocations w₁ >>= _) = _
    rw [looped]
    rfl

def mints (e : Symbol) (organizer owner : Address) (invocations : List Invocation) : List Step :=
  invocations.map fun invocation => ⟨invocation, .mintTicket e organizer owner⟩

theorem run_mints {invocations : List Invocation} {ids : List ℕ} {w' : World}
    (h : mintTickets d e organizer owner invocations w = .ok (ids, w')) :
    run (World.next d) w (mints e organizer owner invocations) = w' := by
  induction invocations generalizing w ids with
  | nil =>
    cases h
    rfl
  | cons i invocations ih =>
    simp only [mintTickets, bind_eq_ok] at h
    obtain ⟨⟨id, w₁⟩, first, ⟨ids', w₂⟩, rest, h⟩ := h
    cases h
    have step : w.next d ⟨i, .mintTicket e organizer owner⟩ = w₁ := by
      simp only [World.next, Call.exec, first]
      rfl
    rw [mints, List.map_cons, run_cons, step]
    exact ih rest

theorem run_mints_refused {failure : Failure TicketError} {invocations : List Invocation}
    (alike : ∀ i ∈ invocations, Alike i invocation)
    (refused : requireMinter ⟨d, invocation⟩ w organizer = .error failure) :
    run (World.next d) w (mints e organizer owner invocations) = w := by
  induction invocations with
  | nil => rfl
  | cons i invocations ih =>
    obtain ⟨first, rest⟩ := List.forall_mem_cons.mp alike
    have step : w.next d ⟨i, .mintTicket e organizer owner⟩ = w := by
      simp only [World.next, Call.exec, mintTicket_refused first refused]
      rfl
    rw [mints, List.map_cons, run_cons, step]
    exact ih rest

/-- A batch of up to a hundred tickets and the same number of mints under the same signatures
at the same time: the batch succeeds when they all do, with their ids in order and in the
world they leave; and unless a counter runs out of 64 bits half way, a batch that succeeds
or not leaves the world of the calls. -/
theorem batch_mint_eq_mints (d : Deployment) (invocation : Invocation) (w : World) (e : Symbol)
    (organizer owner : Address) (invocations : List Invocation)
    (alike : ∀ i ∈ invocations, Alike i invocation)
    (count : 1 ≤ invocations.length ∧ invocations.length ≤ 100) :
    batchMintTicket ⟨d, invocation⟩ e organizer owner invocations.length w =
        mintTickets d e organizer owner invocations w ∧
      (∀ ids w', batchMintTicket ⟨d, invocation⟩ e organizer owner invocations.length w =
          .ok (ids, w') →
        run (World.next d) w (mints e organizer owner invocations) = w' ∧
        ids = List.range' w.readNextTicketId invocations.length) ∧
      (Room w e owner invocations.length →
        w.next d ⟨invocation, .batchMintTicket e organizer owner invocations.length⟩ =
          run (World.next d) w (mints e organizer owner invocations)) := by
  have same : batchMintTicket ⟨d, invocation⟩ e organizer owner invocations.length w =
      mintTickets d e organizer owner invocations w := batchMintTicket_eq alike count
  refine ⟨same, fun ids w' minted => ⟨run_mints (same ▸ minted), (batchMintTicket_made minted).1⟩,
    fun room => ?_⟩
  cases minter : requireMinter ⟨d, invocation⟩ w organizer with
  | error failure =>
    rw [run_mints_refused alike minter]
    simp only [World.next, Call.exec, same, mintTickets_refused alike count.1 minter]
    rfl
  | ok u =>
    obtain ⟨ids, w', minted⟩ := mintTickets_room alike minter room
    rw [run_mints minted]
    simp only [World.next, Call.exec, same, minted]
    rfl

/-- Three tickets for Bob, which the organizer mints before anything is linked. -/
theorem batch_mint_eq_mints_thrice :
    run (World.next Sample.deployment) deployed
        (mints Sample.concert Sample.organizer Sample.bob (List.replicate 3 Sample.invocation)) =
      deployed.next Sample.deployment
        (Sample.call (.batchMintTicket Sample.concert Sample.organizer Sample.bob 3)) :=
  ((batch_mint_eq_mints Sample.deployment Sample.invocation deployed Sample.concert
    Sample.organizer Sample.bob (List.replicate 3 Sample.invocation)
    (fun _ mem => List.eq_of_mem_replicate mem ▸ ⟨rfl, rfl⟩) (by decide)).2.2
    (by unfold Room; decide)).symm

end Zicket.Tickets
