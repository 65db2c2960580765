import Zicket.Attendance.Footprint
import Zicket.Foundation.Pages

/-! The list of an event's attendees: who is registered stands in it once, in a slot that is
found by looking through them all, and its pages put together are the list. -/

namespace Zicket.Events

open Host Foundation World

def DataKey.OfRoll (e : Symbol) (k : DataKey) : Prop := ∃ a, k.OfAttendeeList e a

variable {σ : Type} {net : Network σ} {d : Deployment} {env : Env} {w w' : World σ}
  {e e' : Symbol} {a : Address} {s : SlotIndex Address}

def World.attendeeAt (w : World σ) (e : Symbol) (i : ℕ) : Option Address :=
  w.get (.eventAttendeeIndex e i)

/-- The stored list as the slots of an index whose places are not stored. -/
structure World.Enrolled (w : World σ) (e : Symbol) (s : SlotIndex Address) : Prop where
  formed : s.WellFormed
  count : w.getAttendeesCount e = s.count
  slot : w.attendeeAt e = s.slot
  registered : ∀ a, w.isRegistered e a = (s.place a).isSome
  bounded : s.count ≤ u64Max

section Tables

variable (w) (e)

theorem attendeeAt_set (i : ℕ) (a : Address) :
    (w.set (.eventAttendeeIndex e i) a).attendeeAt e =
      Function.update (w.attendeeAt e) i (some a) :=
  Store.table_set (DataKey.eventAttendeeIndex e) (by simp)
    (fun _ (stored : Option Address) => stored) w.storage i a

theorem attendeeAt_remove (i : ℕ) :
    (w.remove (.eventAttendeeIndex e i)).attendeeAt e =
      Function.update (w.attendeeAt e) i none :=
  Store.table_remove (DataKey.eventAttendeeIndex e) (by simp)
    (fun _ (stored : Option Address) => stored) w.storage i

theorem isRegistered_set (a : Address) :
    (w.set (.registration e a) true).isRegistered e = Function.update (w.isRegistered e) a true :=
  Store.table_set (DataKey.registration e) (by simp)
    (fun _ (stored : Option Bool) => stored.isSome) w.storage a true

theorem isRegistered_remove (a : Address) :
    (w.remove (.registration e a)).isRegistered e =
      Function.update (w.isRegistered e) a false :=
  Store.table_remove (DataKey.registration e) (by simp)
    (fun _ (stored : Option Bool) => stored.isSome) w.storage a

theorem getAttendeesCount_set (n : ℕ) :
    (w.set (.eventAttendeesCount e) n).getAttendeesCount e = n :=
  congrArg (fun stored => Option.getD stored 0) (Store.get_set_self w.storage (.eventAttendeesCount e) n)

end Tables

namespace World.Enrolled

theorem deployed (outside : σ) (e : Symbol) : (deployed outside).Enrolled e .empty where
  formed := ⟨nofun, fun _ lt => absurd lt (Nat.not_lt_zero _)⟩
  count := rfl
  slot := rfl
  registered _ := rfl
  bounded := Nat.zero_le _

theorem of_writes (enrolled : w.Enrolled e s) (h : w.Writes (fun k => ¬ k.OfRoll e) w') :
    w'.Enrolled e s where
  formed := enrolled.formed
  count := by
    have same := h.get (k := .eventAttendeesCount e) fun free => free ⟨⟨0⟩, .inr (.inl rfl)⟩
    exact (congrArg (fun stored => Option.getD stored 0) same).trans enrolled.count
  slot := by
    rw [← enrolled.slot]
    exact funext fun i => h.get fun free => free ⟨⟨0⟩, .inr (.inr ⟨i, rfl⟩)⟩
  registered a := by
    rw [← enrolled.registered]
    exact congrArg Option.isSome (h.get fun free => free ⟨a, .inl rfl⟩)
  bounded := enrolled.bounded

theorem save (enrolled : w.Enrolled e s) (new : w.isRegistered e a = false)
    (h : w.saveRegistration e a = .ok w') : w'.Enrolled e (s.add a) := by
  simp only [saveRegistration, bind_eq_ok, pure_eq_ok, u64_eq_ok] at h
  obtain ⟨_, ⟨bound, rfl⟩, rfl⟩ := h
  have counted : (w.set (.registration e a) true).getAttendeesCount e = s.count := enrolled.count
  have absent : s.place a = none := by
    rw [enrolled.registered] at new
    exact Option.isNone_iff_eq_none.mp (Option.isSome_eq_false_iff.mp new)
  rw [counted] at bound ⊢
  refine ⟨enrolled.formed.add absent, getAttendeesCount_set .., ?_, fun b => ?_, ?_⟩
  · refine (attendeeAt_set ..).trans ?_
    change Function.update (w.attendeeAt e) _ _ = Function.update s.slot s.count (some a)
    rw [enrolled.slot]
  · refine (congrFun (isRegistered_set w e a) b).trans ?_
    rw [SlotIndex.add]
    by_cases same : b = a
    · simp [same]
    · simp only [Function.update_of_ne same]
      exact enrolled.registered b
  · change s.count + 1 ≤ 2 ^ 64 - 1
    omega

/-- The search through the slots stops at the place of the attendee. -/
theorem search (enrolled : w.Enrolled e s) (a : Address) :
    ((List.range s.count).find? fun i => s.slot i = some a) = s.place a := by
  cases place : s.place a with
  | none =>
    rw [List.find?_range_eq_none]
    intro i lt
    obtain ⟨b, slot, here⟩ := enrolled.formed.slot i lt
    have other : b ≠ a := by
      rintro rfl
      rw [place] at here
      cases here
    simp [slot, other]
  | some i =>
    obtain ⟨lt, slot⟩ := enrolled.formed.place a i place
    rw [List.find?_range_eq_some]
    refine ⟨by simp [slot], List.mem_range.mpr lt, fun j earlier => ?_⟩
    have other : s.slot j ≠ some a := fun same =>
      earlier.ne (enrolled.formed.slot_inj (earlier.trans lt) lt (same.trans slot.symm))
    simp [other]

theorem drop (enrolled : w.Enrolled e s) (a : Address) :
    (w.removeRegistration e a).Enrolled e (s.remove a) := by
  have flags (b : Address) : (w.remove (.registration e a)).isRegistered e b =
      (Function.update s.place a none b).isSome := by
    rw [isRegistered_remove]
    by_cases same : b = a
    · simp [same]
    · rw [Function.update_of_ne same, Function.update_of_ne same]
      exact enrolled.registered b
  have count : (w.remove (.registration e a)).getAttendeesCount e = s.count := enrolled.count
  have slots : (w.remove (.registration e a)).attendeeAt e = s.slot := enrolled.slot
  have slot (i : ℕ) : (w.remove (.registration e a)).get (.eventAttendeeIndex e i) = s.slot i :=
    congrFun slots i
  have bounded := enrolled.bounded
  unfold removeRegistration
  simp only [count, slot, enrolled.search]
  cases place : s.place a with
  | none =>
    have unplaced : Function.update s.place a none = s.place := by
      rw [← place, Function.update_eq_self]
    have same : (w.remove (.registration e a)).Enrolled e s :=
      ⟨enrolled.formed, count, slots, fun b => (flags b).trans (by rw [unplaced]), bounded⟩
    rw [SlotIndex.remove_absent place]
    split
    · exact same
    · exact same
  | some i =>
    have lt := (enrolled.formed.place a i place).1
    rw [if_neg (by omega)]
    simp only
    by_cases last : i = s.count - 1
    · rw [if_neg (not_not.mpr last), SlotIndex.remove_last enrolled.formed place last]
      refine ⟨?_, getAttendeesCount_set .., ?_, flags, by simp only; omega⟩
      · exact SlotIndex.remove_last enrolled.formed place last ▸ enrolled.formed.remove a
      · exact (attendeeAt_remove ..).trans (by rw [slots])
    · obtain ⟨y, stored, moved, result⟩ :=
        SlotIndex.remove_earlier enrolled.formed place (by omega)
      have formed := result ▸ enrolled.formed.remove a
      rw [if_pos last, result]
      simp only [stored]
      refine ⟨formed, getAttendeesCount_set .., ?_, fun b => ?_, by simp only; omega⟩
      · refine (attendeeAt_remove ..).trans ?_
        rw [attendeeAt_set, slots]
      · refine (flags b).trans ?_
        by_cases swapped : b = y
        · have placed := (enrolled.formed.slot (s.count - 1) (by omega))
          obtain ⟨y', stored', here⟩ := placed
          rw [stored] at stored'
          cases stored'
          simp [swapped, moved, here]
        · simp only [Function.update_of_ne swapped]

end World.Enrolled

def World.Enrolls (w : World σ) (e : Symbol) : Prop := ∃ s, w.Enrolled e s

theorem World.Enrolls.of_writes (enrolls : w.Enrolls e)
    (h : w.Writes (fun k => ¬ k.OfRoll e) w') : w'.Enrolls e := by
  obtain ⟨s, enrolled⟩ := enrolls
  exact ⟨s, enrolled.of_writes h⟩

section Steps

theorem off_of_other (other : e' ≠ e) (k : DataKey) (listed : k.OfAttendeeList e' a) :
    ¬ k.OfRoll e := by
  rintro ⟨b, here⟩
  simp only [DataKey.OfAttendeeList] at listed here
  obtain rfl | rfl | ⟨i, rfl⟩ := listed <;> simp [other] at here

theorem saveRegistration_enrolls (enrolls : w.Enrolls e) (new : w.isRegistered e' a = false)
    (h : w.saveRegistration e' a = .ok w') : w'.Enrolls e := by
  by_cases same : e' = e
  · subst same
    obtain ⟨s, enrolled⟩ := enrolls
    exact ⟨_, enrolled.save new h⟩
  · exact enrolls.of_writes (saveRegistration_writes (off_of_other same) _ h)

theorem removeRegistration_enrolls (enrolls : w.Enrolls e) (e' : Symbol) (a : Address) :
    (w.removeRegistration e' a).Enrolls e := by
  by_cases same : e' = e
  · subst same
    obtain ⟨s, enrolled⟩ := enrolls
    exact ⟨_, enrolled.drop a⟩
  · exact enrolls.of_writes (removeRegistration_writes (off_of_other same))

variable {nonce tierId count : ℕ} {emailHash : Option (BytesN 32)}

theorem recordIfFree_off {price : ℤ} :
    Yields (recordIfFree env e' a price count w) (w.Writes fun k => ¬ k.OfRoll e) := by
  unfold recordIfFree
  split
  · refine recordFreeClaims_writes ?_ ?_
    · simp [DataKey.OfRoll, DataKey.OfAttendeeList]
    · simp [DataKey.OfRoll, DataKey.OfAttendeeList]
  · exact .pure (.refl _ w)

theorem removal_off (w : World σ) (hasRes : Bool) :
    w.Writes (fun k => ¬ k.OfRoll e) (if hasRes then w.removeReservation e' a else w) :=
  removal_writes (by simp [DataKey.OfRoll, DataKey.OfAttendeeList]) w hasRes

theorem sellSeats_off {event : Event} {index : ℕ} {tier : TicketTier} {hasRes : Bool} :
    Yields (sellSeats e' event index tier count hasRes w) fun sale =>
      w.Writes (fun k => ¬ k.OfRoll e) sale.2 :=
  sellSeats_writes (by simp [DataKey.OfRoll, DataKey.OfAttendeeList])

theorem registerForEvent_enrolls (enrolls : w.Enrolls e)
    (h : registerForEvent net env nonce a e' tierId emailHash w = .ok w') : w'.Enrolls e := by
  obtain ⟨call⟩ := registerForEvent_ok h
  have untouched {T : DataKey → Prop} : w.Writes T call.minted :=
    .trans (chargePriced_writes _ call.charges) (tell_writes _ call.mints)
  have still : call.minted.isRegistered e' a = false := by
    have same := (untouched (T := fun _ => False)).get (k := .registration e' a) not_false
    exact (congrArg Option.isSome same).trans call.new
  have enrolled := saveRegistration_enrolls (enrolls.of_writes untouched) still call.saves
  rw [call.result]
  exact enrolled.of_writes ((removal_off call.saved call.hasRes).trans
    ((recordIfFree_off _ call.records).trans (sellSeats_off _ call.sells)))

theorem registerOnce_enrolls (enrolls : w.Enrolls e) (h : registerOnce e' a w = .ok w') :
    w'.Enrolls e := by
  unfold registerOnce at h
  split at h
  · exact pure_eq_ok.mp h ▸ enrolls
  · rename_i new
    exact saveRegistration_enrolls enrolls (Bool.eq_false_iff.mpr new) h

theorem batchRegisterForEvent_enrolls (enrolls : w.Enrolls e)
    (h : batchRegisterForEvent net env nonce a e' tierId count emailHash w = .ok w') :
    w'.Enrolls e := by
  obtain ⟨call⟩ := batchRegisterForEvent_ok h
  have untouched : w.Writes (fun k => ¬ k.OfRoll e) call.minted :=
    .trans (.of_storage (checkUserLimit_queried call.asks).1)
      (.trans (chargePriced_writes _ call.charges) (tell_writes _ call.mints))
  have enrolled := registerOnce_enrolls (enrolls.of_writes untouched) call.registers
  rw [call.result]
  exact enrolled.of_writes ((recordIfFree_off _ call.records).trans
    ((removal_off call.recorded call.hasRes).trans (sellSeats_off _ call.sells)))

theorem requestPostponementRefund_enrolls {ticketId : ℕ} (enrolls : w.Enrolls e)
    (h : requestPostponementRefund net env a ticketId w = .ok w') : w'.Enrolls e := by
  simp only [requestPostponementRefund, bind_eq_ok, pure_eq_ok, tell_eq_ok, ask_eq_ok] at h
  obtain ⟨-, -, p, -, ⟨ticket, _⟩, ⟨s₁, -, rfl⟩, event, -, -, -, t, -, ⟨first, w₂⟩, scan, revocable,
    -, _, ⟨s₃, -, rfl⟩, _, ⟨s₄, -, rfl⟩, ⟨left, w₅⟩, rescan, rfl⟩ := h
  have frame := (firstRevocable_queried rescan).1.trans (firstRevocable_queried scan).1
  have still : w₅.Enrolls e := enrolls.of_writes (.of_storage frame)
  split
  · exact still
  · exact removeRegistration_enrolls still _ a

theorem exec_enrolls {c : Call} (enrolls : w.Enrolls e) (h : c.exec net env w = .ok w') :
    w'.Enrolls e := by
  cases c with
  | registerForEvent => exact registerForEvent_enrolls enrolls h
  | batchRegisterForEvent => exact batchRegisterForEvent_enrolls enrolls h
  | requestPostponementRefund => exact requestPostponementRefund_enrolls enrolls h
  | _ =>
    have touches := exec_touches net env w _ w' h
    refine enrolls.of_writes fun k listed => touches k ?_
    obtain ⟨a, rfl | rfl | ⟨i, rfl⟩⟩ := not_not.mp listed <;> simp [Call.Touches]

theorem next_enrolls (enrolls : w.Enrolls e) (step : Step σ) : (w.next net d step).Enrolls e := by
  obtain ⟨-, same⟩ | ⟨invocation, c, rfl, result⟩ := next_cases net d w step
  · exact enrolls.of_writes (.of_storage same)
  · exact exec_enrolls enrolls result

end Steps

section Pages

theorem World.Enrolled.full (enrolled : w.Enrolled e s) :
    ∀ i < s.count, (s.slot i).isSome := by
  intro i lt
  obtain ⟨a, slot, -⟩ := enrolled.formed.slot i lt
  simp [slot]

theorem World.Enrolled.items (enrolled : w.Enrolled e s) : w.getAttendees e = s.items := by
  unfold getAttendees SlotIndex.items filled
  rw [enrolled.count, ← enrolled.slot]
  rfl

/-- A page is a window of the list, wherever it starts and however long it is asked to be: the
sum that would overflow is cut off behind the end of the list. -/
theorem World.Enrolled.page (enrolled : w.Enrolled e s) (start limit : ℕ) :
    w.getAttendeesPaginated e start limit =
      ((w.getAttendees e).drop start).take (min limit 100) := by
  have bounded := enrolled.bounded
  have stop : min s.count (saturatingAddU64 start (min limit 100)) - start =
      min (s.count - start) (min limit 100) := by
    unfold saturatingAddU64
    omega
  have window : ((w.getAttendees e).drop start).take (min (s.count - start) (min limit 100)) =
      ((w.getAttendees e).drop start).take (min limit 100) := by
    have whole : ((w.getAttendees e).drop start).length = s.count - start := by
      rw [List.length_drop, enrolled.items, enrolled.formed.length_items]
    rw [min_comm, ← List.take_take, ← whole, List.take_length]
  rw [← window, enrolled.items]
  unfold getAttendeesPaginated
  simp only [enrolled.count, stop]
  have slots : (fun i => (w.get (.eventAttendeeIndex e i) : Option Address)) = s.slot :=
    enrolled.slot
  rw [slots]
  obtain inside | outside := Nat.le_total start s.count
  · exact filterMap_range' enrolled.full (by omega)
  · rw [Nat.sub_eq_zero_of_le outside, Nat.zero_min, List.take_zero]
    rfl

end Pages

/-- In every reachable state the list of an event's attendees has everybody who is registered
once and nobody else; any page is a window of it, consecutive pages together are the list, and
the readers of a standard event and its organizer are given these pages. -/
theorem attendees_paged (net : Network σ) (d : Deployment) (outside : σ) (steps : List (Step σ))
    (e : Symbol) :
    let w := run (World.next net d) (deployed outside) steps
    ((w.getAttendees e).Nodup ∧ ∀ a, a ∈ w.getAttendees e ↔ w.isRegistered e a = true) ∧
    (∀ start limit, w.getAttendeesPaginated e start limit =
      ((w.getAttendees e).drop start).take (min limit 100)) ∧
    (∀ size pages, size ≤ 100 → (w.getAttendees e).length ≤ pages * size →
      (List.range pages).flatMap (fun k => w.getAttendeesPaginated e (k * size) size) =
        w.getAttendees e) ∧
    ∀ event start limit, w.getEvent e = .ok event →
      (w.getEventPrivacy e = .standard → getAttendeesPaginated e start limit w =
        .ok (w.getAttendeesPaginated e start limit)) ∧
      ∀ invocation, invocation.authorized event.organizer = true →
        getOrgAttendeesPaginated ⟨d, invocation⟩ event.organizer e start limit w =
          .ok (w.getAttendeesPaginated e start limit) := by
  intro w
  obtain ⟨s, enrolled⟩ : (run (World.next net d) (deployed outside) steps).Enrolls e :=
    run_invariant (I := fun w : World σ => w.Enrolls e) (fun w step enrolls _ => next_enrolls enrolls step)
      (along_of_forall (P := fun _ _ => True) (fun _ _ => trivial) _ steps)
      ⟨_, .deployed outside e⟩
  refine ⟨⟨?_, fun a => ?_⟩, enrolled.page, fun size pages small covers => ?_,
    fun event start limit stored => ⟨fun standard => ?_, fun invocation signed => ?_⟩⟩
  · exact enrolled.items ▸ enrolled.formed.nodup_items
  · rw [enrolled.items, enrolled.formed.mem_items, enrolled.registered]
  · have page (k : ℕ) : w.getAttendeesPaginated e (k * size) size =
        ((w.getAttendees e).drop (k * size)).take size := by
      rw [enrolled.page, min_eq_left small]
    simp only [page]
    rw [flatMap_pages, List.take_of_length_le covers]
  · simp only [getAttendeesPaginated, stored, standard]
    rfl
  · have checked : (requireAuth ⟨d, invocation⟩ event.organizer : Attempt Unit) = .ok () :=
      if_pos signed
    have organized : require (event.organizer = event.organizer) .unauthorized = .ok () :=
      if_pos rfl
    simp only [getOrgAttendeesPaginated, checked, stored]
    exact congrArg (· >>= fun _ => pure (w.getAttendeesPaginated e start limit)) organized

end Zicket.Events
