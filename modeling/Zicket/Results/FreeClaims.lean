import Zicket.Attendance.Footprint
import Zicket.Foundation.Run
import Zicket.Results.Inventory

/-! Free tickets over whole runs of the event contract: each sale of one is counted for its
attendee and dated, and nothing takes it back, so what the sales check bounds all of them. -/

namespace Zicket.Events

open Host Foundation World

variable {σ : Type} {net : Network σ} {d : Deployment} {env : Env} {w w' : World σ} {e : Symbol}
  {a : Address} {nonce tierId count : ℕ} {emailHash : Option (BytesN 32)}

deriving instance DecidableEq for ClaimSettings

def World.tierPrice (w : World σ) (e : Symbol) (tierId : ℕ) : Option ℤ :=
  (w.get (.event e) : Option Event).bind fun event =>
    (event.tiers.find? fun tier => tier.tierId = tierId).map (·.price)

def World.freeClaims (w : World σ) (e : Symbol) (a : Address) : ℕ × ℕ :=
  (w.getFreeClaimCount e a, w.getLastFreeClaim e a)

/-- The settings leave room for so many claims more, and the cooldown is over. -/
structure Allowed (now : ℕ) (w : World σ) (e : Symbol) (a : Address) (count : ℕ) : Prop where
  room : 0 < (w.getClaimSettings e).maxFreeClaims →
    w.getFreeClaimCount e a + count ≤ (w.getClaimSettings e).maxFreeClaims
  cooled : 0 < (w.getClaimSettings e).cooldownSecs → 0 < w.getLastFreeClaim e a →
    w.getLastFreeClaim e a + (w.getClaimSettings e).cooldownSecs ≤ now

def freeSale (net : Network σ) (d : Deployment) (e : Symbol) (a : Address) (w : World σ) :
    Step σ → Option (ℕ × ℕ)
  | .call invocation (.registerForEvent nonce a' e' tierId hash) =>
    if a' = a ∧ e' = e ∧ w.tierPrice e tierId = some 0 ∧
        (Call.registerForEvent nonce a' e' tierId hash).succeeds net ⟨d, invocation⟩ w = true then
      some (invocation.timestamp, 1)
    else none
  | .call invocation (.batchRegisterForEvent nonce a' e' tierId count hash) =>
    if a' = a ∧ e' = e ∧ w.tierPrice e tierId = some 0 ∧
        (Call.batchRegisterForEvent nonce a' e' tierId count hash).succeeds net ⟨d, invocation⟩ w =
          true then
      some (invocation.timestamp, count)
    else none
  | _ => none

section Checks

theorem checkCooldown_ok {cooldownSecs : ℕ} {u : Unit}
    (h : checkCooldown env e a cooldownSecs w = .ok u) (cooldown : 0 < cooldownSecs)
    (claimed : 0 < w.getLastFreeClaim e a) :
    w.getLastFreeClaim e a + cooldownSecs ≤ env.timestamp := by
  unfold checkCooldown at h
  simp only [cooldown, claimed, and_self, if_true, bind_eq_ok, require_eq_ok, u64_eq_ok] at h
  obtain ⟨_, ⟨-, rfl⟩, reopened⟩ := h
  exact reopened

theorem checkFreeClaim_ok {u : Unit} (h : checkFreeClaim env e a w = .ok u) :
    Allowed env.timestamp w e a 1 := by
  simp only [checkFreeClaim, bind_eq_ok, onlyIf_eq_ok, require_eq_ok] at h
  obtain ⟨-, room, cooled⟩ := h
  exact ⟨room, checkCooldown_ok cooled⟩

theorem checkFreeClaims_ok {u : Unit} (h : checkFreeClaims env e a count w = .ok u) :
    Allowed env.timestamp w e a count := by
  simp only [checkFreeClaims, bind_eq_ok, onlyIf_eq_ok, require_eq_ok, u32_eq_ok] at h
  obtain ⟨-, room, cooled⟩ := h
  refine ⟨fun limited => ?_, checkCooldown_ok cooled⟩
  obtain ⟨_, ⟨-, rfl⟩, le⟩ := room limited
  exact le

theorem Allowed.congr (same : w'.storage = w.storage) (h : Allowed env.timestamp w' e a count) :
    Allowed env.timestamp w e a count := by
  have entry (k : DataKey) : w'.get k = w.get k := congrArg (Store.get · k) same
  have settings : w'.getClaimSettings e = w.getClaimSettings e :=
    congrArg (Option.getD · _) (entry (.eventClaimSettings e))
  have claimed : w'.getFreeClaimCount e a = w.getFreeClaimCount e a :=
    congrArg (Option.getD · _) (entry (.freeClaimCount e a))
  have last : w'.getLastFreeClaim e a = w.getLastFreeClaim e a :=
    congrArg (Option.getD · _) (entry (.lastFreeClaim e a))
  have room := h.room
  have cooled := h.cooled
  rw [settings, claimed] at room
  rw [settings, last] at cooled
  exact ⟨room, cooled⟩

end Checks

section Records

def DataKey.OffRecord (e : Symbol) (a : Address) (k : DataKey) : Prop :=
  k ≠ .freeClaimCount e a ∧ k ≠ .lastFreeClaim e a

theorem freeClaims_of_writes (h : w.Writes (DataKey.OffRecord e a) w') :
    w'.freeClaims e a = w.freeClaims e a := by
  have claimed := h.get (k := .freeClaimCount e a) fun off => off.1 rfl
  have last := h.get (k := .lastFreeClaim e a) fun off => off.2 rfl
  unfold World.freeClaims getFreeClaimCount getLastFreeClaim
  rw [claimed, last]

theorem recordFreeClaims_record (h : recordFreeClaims env e a count w = .ok w') :
    w'.freeClaims e a = (w.getFreeClaimCount e a + count, env.timestamp) := by
  induction count generalizing w with
  | zero =>
    cases h
    have claimed : (w.set (.lastFreeClaim e a) env.timestamp).get (.freeClaimCount e a) =
        w.get (.freeClaimCount e a) := Store.get_set_of_ne _ _ (by simp)
    have last : (w.set (.lastFreeClaim e a) env.timestamp).get (.lastFreeClaim e a) =
        some env.timestamp := Store.get_set_self _ _ _
    unfold World.freeClaims getFreeClaimCount getLastFreeClaim
    rw [claimed, last]
    rfl
  | succ count ih =>
    simp only [recordFreeClaims, incrementFreeClaimCount, bind_eq_ok, pure_eq_ok, u32_eq_ok] at h
    obtain ⟨_, ⟨_, ⟨-, rfl⟩, rfl⟩, h⟩ := h
    rw [ih h]
    have claimed : (w.set (.freeClaimCount e a) (w.getFreeClaimCount e a + 1)).getFreeClaimCount e a =
        w.getFreeClaimCount e a + 1 := by
      unfold getFreeClaimCount World.get World.set
      rw [Store.get_set_self]
      rfl
    rw [claimed, Nat.add_assoc, Nat.add_comm 1]

theorem recordIfFree_record {price : ℤ} (h : recordIfFree env e a price count w = .ok w') :
    w'.freeClaims e a =
      if price = 0 then (w.getFreeClaimCount e a + count, env.timestamp) else w.freeClaims e a := by
  unfold recordIfFree at h
  split at h
  · rename_i free
    rw [if_pos free, recordFreeClaims_record h]
  · rename_i priced
    cases h
    rw [if_neg priced]

theorem findTier_price {event : Event} {index : ℕ} {tier : TicketTier}
    (stored : w.roster.event e = some event) (found : event.findTier tierId = .ok (index, tier)) :
    w.tierPrice e tierId = some tier.price ∧
      (event.tiers.find? fun tier => tier.tierId = tierId).map (·.price) = some tier.price := by
  have first : (event.tiers.find? fun tier => tier.tierId = tierId) = some tier := by
    simp only [Event.findTier, Event.tierIndex, bind_eq_ok, pure_eq_ok, okOr_eq_ok] at found
    obtain ⟨_, place, _, at_place, same⟩ := found
    cases same
    obtain ⟨lt, here, before⟩ := List.findIdx?_eq_some_iff_getElem.mp place
    obtain ⟨_, tier_here⟩ := List.getElem?_eq_some_iff.mp at_place
    refine List.find?_eq_some_iff_getElem.mpr
      ⟨tier_here ▸ here, index, lt, tier_here, fun j earlier => ?_⟩
    simpa using before j earlier
  have price : w.tierPrice e tierId =
      (event.tiers.find? fun tier => tier.tierId = tierId).map (·.price) :=
    congrArg (Option.bind · _) stored
  rw [price, first]
  exact ⟨rfl, rfl⟩

theorem offRecord_of_listed (k : DataKey) (listed : k.OfAttendeeList e a) : k.OffRecord e a := by
  obtain rfl | rfl | ⟨i, rfl⟩ := listed <;> simp [DataKey.OffRecord]

/-- A sale to one attendee is of a tier with a price; only a free one is counted and dated. -/
structure Recorded (env : Env) (w w' : World σ) (e : Symbol) (a : Address) (tierId count : ℕ)
    (price : ℤ) : Prop where
  priced : w.tierPrice e tierId = some price
  allowed : price = 0 → Allowed env.timestamp w e a count
  record : w'.freeClaims e a =
    if price = 0 then (w.getFreeClaimCount e a + count, env.timestamp) else w.freeClaims e a

/-- What the parts of a sale before and after the record leave, and the record between them. -/
theorem record_between {w₁ w₂ : World σ} {price : ℤ}
    (before : w.Writes (DataKey.OffRecord e a) w₁)
    (recorded : recordIfFree env e a price count w₁ = .ok w₂)
    (after : w₂.Writes (DataKey.OffRecord e a) w') :
    w'.freeClaims e a =
      if price = 0 then (w.getFreeClaimCount e a + count, env.timestamp) else w.freeClaims e a := by
  have same := freeClaims_of_writes before
  have count_same : w₁.getFreeClaimCount e a = w.getFreeClaimCount e a := congrArg Prod.fst same
  rw [freeClaims_of_writes after, recordIfFree_record recorded, same, count_same]

theorem registerForEvent_recorded
    (h : registerForEvent net env nonce a e tierId emailHash w = .ok w') :
    ∃ price, Recorded env w w' e a tierId 1 price := by
  obtain ⟨call⟩ := registerForEvent_ok h
  obtain ⟨priced, listed⟩ := findTier_price (getEvent_ok.mp call.stored) call.found
  have first : w.Writes (DataKey.OffRecord e a) call.saved :=
    .trans (chargePriced_writes _ call.charges) (.trans (tell_writes _ call.mints)
      (saveRegistration_writes offRecord_of_listed _ call.saves))
  have removed := removal_writes (e := e) (a := a) (T := DataKey.OffRecord e a)
    (by simp [DataKey.OffRecord]) call.saved call.hasRes
  have sale : call.recorded.Writes (DataKey.OffRecord e a) call.left :=
    sellSeats_writes (by simp [DataKey.OffRecord]) _ call.sells
  refine ⟨call.tier.price, priced, fun free => ?_, ?_⟩
  · exact checkFreeClaim_ok (call.limited (by rw [listed, free]))
  · have counted := record_between (first.trans removed) call.records sale
    exact (congrArg (World.freeClaims · e a) call.result).trans counted

theorem batchRegisterForEvent_recorded
    (h : batchRegisterForEvent net env nonce a e tierId count emailHash w = .ok w') :
    ∃ price, Recorded env w w' e a tierId count price := by
  obtain ⟨call⟩ := batchRegisterForEvent_ok h
  obtain ⟨priced, -⟩ := findTier_price (getEvent_ok.mp call.stored) call.found
  have frame := (checkUserLimit_queried call.asks).1
  have first : w.Writes (DataKey.OffRecord e a) call.registered :=
    .trans (.of_storage frame) (.trans (chargePriced_writes _ call.charges) (.trans
      (tell_writes _ call.mints) (registerOnce_writes offRecord_of_listed _ call.registers)))
  have removed := removal_writes (e := e) (a := a) (T := DataKey.OffRecord e a)
    (by simp [DataKey.OffRecord]) call.recorded call.hasRes
  have sale := sellSeats_writes (T := DataKey.OffRecord e a) (by simp [DataKey.OffRecord]) _ call.sells
  refine ⟨call.tier.price, priced, fun free => ?_, ?_⟩
  · exact (checkFreeClaims_ok (call.limited free)).congr frame
  · have counted := record_between first call.records (removed.trans sale)
    exact (congrArg (World.freeClaims · e a) call.result).trans counted

theorem touches_freeClaim {c : Call} {k : DataKey}
    (record : k = .freeClaimCount e a ∨ k = .lastFreeClaim e a) (touched : c.Touches k) :
    (∃ nonce tierId hash, c = .registerForEvent nonce a e tierId hash) ∨
      ∃ nonce tierId count hash, c = .batchRegisterForEvent nonce a e tierId count hash := by
  cases c <;> obtain rfl | rfl := record <;>
    simp_all [Call.Touches, DataKey.OfRegistration, DataKey.OfAttendee, DataKey.OfAttendeeList]

end Records

section Steps

variable {m c : ℕ} {past : List (ℕ × ℕ)}

theorem freeSale_cases (w : World σ) (step : Step σ) :
    (freeSale net d e a w step = none ∧ (w.next net d step).freeClaims e a = w.freeClaims e a) ∨
    ∃ now count, freeSale net d e a w step = some (now, count) ∧ Allowed now w e a count ∧
      (w.next net d step).freeClaims e a = (w.getFreeClaimCount e a + count, now) := by
  obtain ⟨failed, same⟩ | ⟨invocation, c, rfl, result⟩ := next_cases net d w step
  · refine .inl ⟨?_, freeClaims_of_writes (.of_storage same)⟩
    unfold freeSale
    split
    · exact if_neg fun ⟨_, _, _, success⟩ => failed success
    · exact if_neg fun ⟨_, _, _, success⟩ => failed success
    · rfl
  · have success := succeeds_iff.mpr ⟨_, result⟩
    have sale {tierId count : ℕ} {price : ℤ}
        (told : freeSale net d e a w (.call invocation c) =
          if a = a ∧ e = e ∧ w.tierPrice e tierId = some 0 ∧
            c.succeeds net ⟨d, invocation⟩ w = true then some (invocation.timestamp, count) else none)
        (recorded : Recorded ⟨d, invocation⟩ w (w.next net d (.call invocation c)) e a tierId count
          price) :
        (freeSale net d e a w (.call invocation c) = none ∧
          (w.next net d (.call invocation c)).freeClaims e a = w.freeClaims e a) ∨
        ∃ now count, freeSale net d e a w (.call invocation c) = some (now, count) ∧
          Allowed now w e a count ∧ (w.next net d (.call invocation c)).freeClaims e a =
            (w.getFreeClaimCount e a + count, now) := by
      obtain ⟨priced, allowed, record⟩ := recorded
      by_cases free : price = 0
      · subst free
        rw [if_pos rfl] at record
        refine .inr ⟨_, count, told.trans (if_pos ⟨rfl, rfl, priced, success⟩), allowed rfl, record⟩
      · rw [if_neg free] at record
        refine .inl ⟨told.trans (if_neg ?_), record⟩
        rintro ⟨-, -, same, -⟩
        rw [priced] at same
        exact free (Option.some.inj same)
    by_cases touched : c.Touches (.freeClaimCount e a) ∨ c.Touches (.lastFreeClaim e a)
    · have call : (∃ nonce tierId hash, c = .registerForEvent nonce a e tierId hash) ∨
          ∃ nonce tierId count hash, c = .batchRegisterForEvent nonce a e tierId count hash := by
        obtain touched | touched := touched
        · exact touches_freeClaim (.inl rfl) touched
        · exact touches_freeClaim (.inr rfl) touched
      obtain ⟨nonce, tierId, hash, rfl⟩ | ⟨nonce, tierId, count, hash, rfl⟩ := call
      · obtain ⟨price, recorded⟩ := registerForEvent_recorded result
        exact sale rfl recorded
      · obtain ⟨price, recorded⟩ := batchRegisterForEvent_recorded result
        exact sale rfl recorded
    · obtain ⟨uncounted, undated⟩ := not_or.mp touched
      have kept := exec_touches net _ w c _ result
      refine .inl ⟨?_, ?_⟩
      · unfold freeSale
        split
        · refine if_neg ?_
          rintro ⟨rfl, rfl, -⟩
          rename_i same
          cases same
          exact uncounted (by simp [Call.Touches, DataKey.OfRegistration, DataKey.OfAttendee])
        · refine if_neg ?_
          rintro ⟨rfl, rfl, -⟩
          rename_i same
          cases same
          exact uncounted (by simp [Call.Touches, DataKey.OfRegistration, DataKey.OfAttendee])
        · rfl
      · have claimed := kept.get uncounted
        have last := kept.get undated
        unfold World.freeClaims getFreeClaimCount getLastFreeClaim
        rw [claimed, last]

structure World.FreelySold (w : World σ) (e : Symbol) (a : Address) (m c : ℕ)
    (past : List (ℕ × ℕ)) : Prop where
  counted : (past.map (·.2)).sum = w.getFreeClaimCount e a
  limited : (past.map (·.2)).sum ≤ m
  dated : ∀ sale ∈ past.head?, w.getLastFreeClaim e a = sale.1
  cooled : past.Pairwise fun later earlier => 0 < earlier.1 → c ≤ later.1 - earlier.1

theorem freelySold_sale {now : ℕ} (h : w.FreelySold e a m c past) (positive : 0 < m)
    (settings : w.getClaimSettings e = ⟨m, c⟩) (allowed : Allowed now w e a count)
    (record : w'.freeClaims e a = (w.getFreeClaimCount e a + count, now)) :
    w'.FreelySold e a m c ((now, count) :: past) := by
  have room : 0 < m → w.getFreeClaimCount e a + count ≤ m := by
    simpa only [settings] using allowed.room
  have cooled : 0 < c → 0 < w.getLastFreeClaim e a → w.getLastFreeClaim e a + c ≤ now := by
    simpa only [settings] using allowed.cooled
  have claimed : w'.getFreeClaimCount e a = w.getFreeClaimCount e a + count :=
    congrArg Prod.fst record
  have last : w'.getLastFreeClaim e a = now := congrArg Prod.snd record
  have counted := h.counted
  have bound := room positive
  refine ⟨?_, ?_, ?_, List.pairwise_cons.mpr ⟨fun sale mem dated => ?_, h.cooled⟩⟩
  · rw [claimed, List.map_cons, List.sum_cons]
    omega
  · rw [List.map_cons, List.sum_cons]
    omega
  · rintro sale ⟨⟩
    exact last
  · -- the latest sale is the one the cooldown runs from, the others are older still
    cases past with
    | nil => cases mem
    | cons latest rest =>
      have latest_dated := h.dated latest rfl
      rw [latest_dated] at cooled
      change c ≤ now - sale.1
      obtain rfl | older := List.mem_cons.mp mem
      · by_cases cooldown : 0 < c
        · have := cooled cooldown dated
          omega
        · omega
      · have apart := (List.pairwise_cons.mp h.cooled).1 sale older dated
        by_cases cooldown : 0 < c
        · have := cooled cooldown (by omega)
          omega
        · omega

theorem next_freelySold {step : Step σ} (h : w.FreelySold e a m c past) (positive : 0 < m)
    (settings : freeSale net d e a w step ≠ none → w.getClaimSettings e = ⟨m, c⟩) :
    (w.next net d step).FreelySold e a m c ((freeSale net d e a w step).toList ++ past) := by
  obtain ⟨none, same⟩ | ⟨now, count, sold, allowed, record⟩ := freeSale_cases w step
  · rw [none]
    have claimed : (w.next net d step).getFreeClaimCount e a = w.getFreeClaimCount e a :=
      congrArg Prod.fst same
    have last : (w.next net d step).getLastFreeClaim e a = w.getLastFreeClaim e a :=
      congrArg Prod.snd same
    exact ⟨h.counted.trans claimed.symm, h.limited, fun sale mem => last.trans (h.dated sale mem),
      h.cooled⟩
  · rw [sold]
    refine freelySold_sale h positive (settings ?_) allowed record
    rw [sold]
    exact Option.some_ne_none _

end Steps

/-- While an event's claim settings are `m` free claims and a cooldown of `c` seconds at each free
sale, every attendee gets at most `m` free tickets of it in all, and of any two free sales to an
attendee, the earlier dated after 0, the later one is at least `c` seconds later. -/
theorem free_claims_limited (net : Network σ) (d : Deployment) (outside : σ)
    (steps : List (Step σ)) (e : Symbol) (a : Address) (m c : ℕ) (positive : 0 < m)
    (settings : Along (World.next net d)
      (fun w step => freeSale net d e a w step ≠ none → w.getClaimSettings e = ⟨m, c⟩)
      (deployed outside) steps) :
    let sales := told (World.next net d) (freeSale net d e a) (deployed outside) steps
    (sales.map (·.2)).sum ≤ m ∧
      sales.Pairwise fun later earlier => 0 < earlier.1 → c ≤ later.1 - earlier.1 := by
  have sold := told_invariant
    (I := fun past (w : World σ) => w.FreelySold e a m c past)
    (fun past w step h settings => next_freelySold h positive settings) settings
    (show World.FreelySold _ e a m c [] from ⟨rfl, Nat.zero_le m, nofun, .nil⟩)
  rw [List.append_nil] at sold
  exact ⟨sold.limited, sold.cooled⟩

def Sample.freebies : List (Step Unit) :=
  [call 1 (.initialise organizer ⟨7⟩ ⟨8⟩),
    call 1 (.createEvent { params with initialTiers := [⟨"guest", 0, 5⟩, ⟨"press", 0, 5⟩] }),
    call 2 (.setClaimSettings organizer concert 3 3600),
    call 2 (.updateEventStatus organizer concert .active),
    call 3 (.batchRegisterForEvent 1 bob concert 0 2 none),
    call 4 (.batchRegisterForEvent 2 bob concert 1 1 none),
    call 3603 (.batchRegisterForEvent 3 bob concert 1 1 none)]

theorem free_claims_limited_sample :
    let sales := told (World.next Sample.silent Sample.deployment)
      (freeSale Sample.silent Sample.deployment Sample.concert Sample.bob) (deployed ())
      Sample.freebies
    (sales.map (·.2)).sum ≤ 3 ∧
      sales.Pairwise fun later earlier => 0 < earlier.1 → 3600 ≤ later.1 - earlier.1 :=
  free_claims_limited Sample.silent Sample.deployment () Sample.freebies Sample.concert Sample.bob
    3 3600 (by decide) (by decide)

example : told (World.next Sample.silent Sample.deployment)
    (freeSale Sample.silent Sample.deployment Sample.concert Sample.bob) (deployed ())
    Sample.freebies = [(3603, 1), (3, 2)] := by
  decide

end Zicket.Events
