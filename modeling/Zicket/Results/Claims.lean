import Zicket.Attendance.Claims
import Zicket.Lifecycle.Steps
import Zicket.Results.Inventory

/-! Claims over whole runs of the event contract, whatever the linked contracts answer: an
anonymous claim is accepted once for each nullifier and a limited number of times in each window
of ledgers; an attendance spends its nullifier for its own event only. -/

namespace Zicket.Events

open Host Foundation World

variable {σ : Type} {net : Network σ} {d : Deployment} {w w' : World σ} {e : Symbol} {n : BytesN 32}

deriving instance DecidableEq for AnonClaimSettings

def Step.sequence? : Step σ → Option ℕ
  | .call invocation _ => some invocation.sequence
  | .elsewhere _ => none

def Chronological (steps : List (Step σ)) : Prop :=
  (steps.filterMap Step.sequence?).Pairwise (· ≤ ·)

instance (steps : List (Step σ)) : Decidable (Chronological steps) :=
  inferInstanceAs (Decidable (List.Pairwise _ _))

def Step.claimsUnder (e : Symbol) (n : BytesN 32) : Step σ → Bool
  | .call _ (.claimAnonymousTicket e' _ claim) => e' = e && claim.nullifier = n
  | _ => false

/-- A claim under the nullifier raises what is sold of the event. -/
def SellsTo (net : Network σ) (d : Deployment) (e : Symbol) (n : BytesN 32) (w : World σ)
    (step : Step σ) : Prop :=
  step.claimsUnder e n = true ∧ w.soldOf e < (w.next net d step).soldOf e

instance (w : World σ) (step : Step σ) : Decidable (SellsTo net d e n w step) :=
  inferInstanceAs (Decidable (_ ∧ _))

/-- The claim may be repeated, which does nothing, and no other is made under the nullifier. -/
def World.Claimed (net : Network σ) (w : World σ) (e : Symbol) (n commitment : BytesN 32) : Prop :=
  w.get (.anonymousNullifier e n) = some commitment ∧
    ∀ env tierId claim, claim.nullifier = n →
      claimAnonymousTicket net env e tierId claim w =
        if claim.ticketCommitment = commitment then .ok w else fail .anonymousNullifierReused

def claimedAt (net : Network σ) (d : Deployment) (e : Symbol) (w : World σ) : Step σ → Option ℕ
  | .call invocation (.claimAnonymousTicket e' tierId claim) =>
    if e' = e ∧ w.get (.anonymousNullifier e claim.nullifier) = none ∧
        (Call.claimAnonymousTicket e' tierId claim).succeeds net ⟨d, invocation⟩ w = true then
      some invocation.sequence
    else none
  | _ => none

section Nullifiers

theorem claimsUnder_iff {step : Step σ} : step.claimsUnder e n = true ↔
    ∃ invocation tierId claim,
      step = .call invocation (.claimAnonymousTicket e tierId claim) ∧ claim.nullifier = n := by
  constructor
  · intro h
    unfold Step.claimsUnder at h
    split at h
    · simp only [Bool.and_eq_true, decide_eq_true_eq] at h
      obtain ⟨rfl, rfl⟩ := h
      exact ⟨_, _, _, rfl, rfl⟩
    · cases h
  · rintro ⟨invocation, tierId, claim, rfl, rfl⟩
    simp [Step.claimsUnder]

theorem next_commitment {commitment : BytesN 32}
    (stored : w.get (.anonymousNullifier e n) = some commitment) (step : Step σ) :
    (w.next net d step).get (.anonymousNullifier e n) = some commitment ∧
      ¬ SellsTo net d e n w step := by
  have unsold (same : (w.next net d step).get (.event e) = w.get (.event e)) :
      ¬ SellsTo net d e n w step := fun sells => (soldOf_congr same).not_gt sells.2
  obtain ⟨-, same⟩ | ⟨invocation, c, rfl, result⟩ := next_cases net d w step
  · have entries (k : DataKey) : (w.next net d step).get k = w.get k := congrArg (Store.get · k) same
    exact ⟨(entries _).trans stored, unsold (entries _)⟩
  · by_cases touched : c.Touches (.anonymousNullifier e n)
    · obtain ⟨tierId, claim, rfl, rfl⟩ := touches_anonymousNullifier touched
      obtain ⟨-, same⟩ | ⟨fresh, -⟩ := claimAnonymousTicket_cases result
      · exact ⟨(congrArg (World.get · _) same).trans stored,
          unsold (congrArg (World.get · (.event e)) same)⟩
      · rw [stored] at fresh
        cases fresh
    · refine ⟨((exec_touches net _ w c _ result).get touched).trans stored, fun sells => ?_⟩
      obtain ⟨_, tierId, claim, ⟨⟩, rfl⟩ := claimsUnder_iff.mp sells.1
      exact touched (.inr (.inr rfl))

/-- A claim that sells a seat stores its commitment under a nullifier that was free. -/
theorem sellsTo_stores {invocation : Invocation} {tierId : ℕ} {claim : AnonymousTicketClaim}
    (sells : SellsTo net d e claim.nullifier w
      (.call invocation (.claimAnonymousTicket e tierId claim))) :
    (w.next net d (.call invocation (.claimAnonymousTicket e tierId claim))).get
      (.anonymousNullifier e claim.nullifier) = some claim.ticketCommitment := by
  have more := sells.2
  rw [World.next] at more ⊢
  cases result : (Call.claimAnonymousTicket e tierId claim).exec net ⟨d, invocation⟩ w with
  | error failure =>
    rw [result] at more
    exact absurd more (lt_irrefl _)
  | ok w' =>
    rw [result] at more
    obtain ⟨-, rfl⟩ | ⟨-, stored, -⟩ := claimAnonymousTicket_cases result
    · exact absurd more (lt_irrefl _)
    · exact stored

theorem run_commitment {commitment : BytesN 32}
    (stored : w.get (.anonymousNullifier e n) = some commitment) (steps : List (Step σ)) :
    (run (World.next net d) w steps).get (.anonymousNullifier e n) = some commitment :=
  run_invariant (I := fun w : World σ => w.get (.anonymousNullifier e n) = some commitment)
    (fun _ step stored _ => (next_commitment stored step).1)
    (along_of_forall (fun _ _ => trivial) w steps) stored

def World.Anchored (w : World σ) : Prop :=
  ∀ e n, (w.get (.anonymousNullifier e n)).isSome → ∃ event, w.getEvent e = .ok event

theorem next_event {event : Event} (stored : w.getEvent e = .ok event) (step : Step σ) :
    ∃ event, (w.next net d step).getEvent e = .ok event := by
  have turn : (w.life e).Turn step.sequence ((w.next net d step).life e) := next_turn w step e
  obtain ⟨stage, present, -⟩ :=
    turn.present (Roster.stage_of_event (getEvent_ok.mp stored))
  obtain ⟨event', stored', -⟩ := Option.map_eq_some_iff.mp present
  exact ⟨event', getEvent_ok.mpr stored'⟩

theorem next_anchored (anchored : w.Anchored) (step : Step σ) : (w.next net d step).Anchored := by
  intro e n has
  by_cases before : (w.get (.anonymousNullifier e n)).isSome
  · obtain ⟨event, stored⟩ := anchored e n before
    exact next_event stored step
  · obtain ⟨-, same⟩ | ⟨invocation, c, rfl, result⟩ := next_cases net d w step
    · have entry : (w.next net d step).get (.anonymousNullifier e n) =
          w.get (.anonymousNullifier e n) := congrArg (Store.get · _) same
      exact absurd (entry ▸ has) before
    · by_cases touched : c.Touches (.anonymousNullifier e n)
      · obtain ⟨tierId, claim, rfl, rfl⟩ := touches_anonymousNullifier touched
        have claimed := result
        simp only [Call.exec, claimAnonymousTicket, bind_eq_ok] at claimed
        obtain ⟨event, stored, -⟩ := claimed
        exact next_event stored _
      · rw [(exec_touches net _ w c _ result).get touched] at has
        exact absurd has before

theorem run_anchored (net : Network σ) (d : Deployment) (outside : σ) (steps : List (Step σ)) :
    (run (World.next net d) (deployed outside) steps).Anchored :=
  run_invariant (I := World.Anchored) (fun _ step anchored _ => next_anchored anchored step)
    (along_of_forall (fun _ _ => trivial) _ steps) nofun

theorem claimed_of_stored {commitment : BytesN 32} (anchored : w.Anchored)
    (stored : w.get (.anonymousNullifier e n) = some commitment) :
    w.Claimed net e n commitment := by
  refine ⟨stored, ?_⟩
  rintro env tierId claim rfl
  obtain ⟨event, found⟩ := anchored e _ (by rw [stored]; rfl)
  have reads : claimAnonymousTicket net env e tierId claim w =
      if commitment = claim.ticketCommitment then .ok w else fail .anonymousNullifierReused := by
    unfold claimAnonymousTicket
    simp only [found, stored]
    rfl
  rw [reads]
  by_cases same : commitment = claim.ticketCommitment
  · simp [same]
  · simp [same, Ne.symm same]

end Nullifiers

section Windows

variable {m size : ℕ} {past : List ℕ}

structure World.Counted (w : World σ) (e : Symbol) (m size : ℕ) (past : List ℕ) : Prop where
  limited : ∀ k, past.countP (· / size = k) ≤ m
  latest : ∀ l ∈ past.head?, (w.getAnonWindowState e).windowIndex = l / size
  counted : past.countP (· / size = (w.getAnonWindowState e).windowIndex) ≤
    (w.getAnonWindowState e).count

theorem counted_congr (same : w.getAnonWindowState e = w'.getAnonWindowState e)
    (h : w.Counted e m size past) : w'.Counted e m size past :=
  ⟨h.limited, same ▸ h.latest, same ▸ h.counted⟩

/-- The claims of the window are among those that its state counts, if ledgers do not go back. -/
theorem World.Counted.window_le {ledger : ℕ} (h : w.Counted e m size past)
    (descending : (ledger :: past).Pairwise (· ≥ ·)) :
    past.countP (· / size = ledger / size) ≤ w.windowCount e (ledger / size) := by
  unfold World.windowCount
  split
  · rename_i here
    rw [← here]
    exact h.counted
  · rename_i elsewhere
    -- the latest claim would be of this window as well
    refine (List.countP_eq_zero.mpr fun l mem => ?_).le
    obtain ⟨later, sorted⟩ := List.pairwise_cons.mp descending
    cases past with
    | nil => cases mem
    | cons last rest =>
      have index := h.latest last rfl
      have after : l ≤ last := by
        obtain rfl | mem := List.mem_cons.mp mem
        · exact le_rfl
        · exact (List.pairwise_cons.mp sorted).1 l mem
      have low := Nat.div_le_div_right (c := size) after
      have high := Nat.div_le_div_right (c := size) (later last (List.mem_cons_self ..))
      simp only [decide_eq_true_eq]
      omega

theorem claimedAt_eq_none {step : Step σ}
    (h : ∀ invocation tierId claim, step = .call invocation (.claimAnonymousTicket e tierId claim) →
      w.get (.anonymousNullifier e claim.nullifier) = none →
      ¬ (Call.claimAnonymousTicket e tierId claim).succeeds net ⟨d, invocation⟩ w = true) :
    claimedAt net d e w step = none := by
  unfold claimedAt
  split
  · refine if_neg ?_
    rintro ⟨rfl, fresh, success⟩
    exact h _ _ _ rfl fresh success
  · rfl

theorem counted_claim {ledger : ℕ} (h : w.Counted e m size past)
    (descending : (ledger :: past).Pairwise (· ≥ ·)) (room : w.windowCount e (ledger / size) < m)
    (state : w'.getAnonWindowState e = ⟨ledger / size, w.windowCount e (ledger / size) + 1⟩) :
    w'.Counted e m size (ledger :: past) := by
  have window := h.window_le descending
  refine ⟨fun k => ?_, ?_, ?_⟩
  · rw [List.countP_cons]
    by_cases here : ledger / size = k
    · subst here
      simp only [decide_true, if_true]
      omega
    · simp only [here, decide_false, Bool.false_eq_true, if_false]
      exact h.limited k
  · rintro l ⟨⟩
    rw [state]
  · rw [state, List.countP_cons]
    simp only [decide_true, if_true]
    omega

theorem next_counted {step : Step σ} (settings : w.getAnonClaimSettings e = ⟨m, size⟩)
    (limits : 0 < m ∧ 0 < size) (h : w.Counted e m size past)
    (descending : ((claimedAt net d e w step).toList ++ past).Pairwise (· ≥ ·)) :
    (w.next net d step).Counted e m size ((claimedAt net d e w step).toList ++ past) := by
  have quiet (none : claimedAt net d e w step = none)
      (same : (w.next net d step).get (.eventAnonWindow e) = w.get (.eventAnonWindow e)) :
      (w.next net d step).Counted e m size ((claimedAt net d e w step).toList ++ past) := by
    rw [none]
    exact counted_congr (congrArg (Option.getD · _) same.symm) h
  obtain ⟨failed, same⟩ | ⟨invocation, c, rfl, result⟩ := next_cases net d w step
  · refine quiet (claimedAt_eq_none ?_) (congrArg (Store.get · _) same)
    rintro _ _ _ rfl - success
    exact failed success
  · by_cases touched : c.Touches (.eventAnonWindow e)
    · obtain ⟨tierId, claim, rfl⟩ := touches_eventAnonWindow touched
      obtain ⟨stored, same⟩ | ⟨fresh, -, -, w₁, counted, window⟩ := claimAnonymousTicket_cases result
      · refine quiet (claimedAt_eq_none ?_) (congrArg (World.get · _) same)
        rintro _ _ _ ⟨⟩ fresh
        rw [stored] at fresh
        cases fresh
      · have now : claimedAt net d e w (.call invocation (.claimAnonymousTicket e tierId claim)) =
            some invocation.sequence := if_pos ⟨rfl, fresh, succeeds_iff.mpr ⟨_, result⟩⟩
        have limited := countAnonClaim_limited counted
        rw [settings] at limited
        obtain ⟨room, state⟩ := limited limits.1 limits.2
        rw [now] at descending ⊢
        exact counted_claim h descending room (window.trans state)
    · refine quiet (claimedAt_eq_none ?_) ((exec_touches net _ w c _ result).get touched)
      rintro _ _ _ ⟨⟩
      exact absurd (.inr (.inl rfl)) touched

/-- The ledgers of new claims are ledgers of calls, the latest first. -/
theorem told_claimedAt_sublist (w : World σ) (steps : List (Step σ)) :
    (told (World.next net d) (claimedAt net d e) w steps).Sublist
      (steps.filterMap Step.sequence?).reverse := by
  induction steps generalizing w with
  | nil => exact .refl _
  | cons step steps ih =>
    have one : (claimedAt net d e w step).toList.Sublist step.sequence?.toList := by
      unfold claimedAt
      split
      · split
        · exact .refl _
        · exact List.nil_sublist _
      · exact List.nil_sublist _
    have split_reverse : ((step :: steps).filterMap Step.sequence?).reverse =
        (steps.filterMap Step.sequence?).reverse ++ step.sequence?.toList := by
      cases step <;> simp [List.filterMap_cons, Step.sequence?]
    rw [told, split_reverse]
    exact (ih _).append one

theorem run_counted {steps : List (Step σ)} (limits : 0 < m ∧ 0 < size)
    (chronological : Chronological steps)
    (settings : Along (World.next net d) (fun w _ => w.getAnonClaimSettings e = ⟨m, size⟩) w steps) :
    (run (World.next net d) w steps).Counted e m size
      (told (World.next net d) (claimedAt net d e) w steps) := by
  induction steps using List.reverseRecOn with
  | nil => exact ⟨fun _ => Nat.zero_le _, nofun, Nat.zero_le _⟩
  | append_singleton steps step ih =>
    have descending : (told (World.next net d) (claimedAt net d e) w (steps ++ [step])).Pairwise
        (· ≥ ·) := by
      refine List.Pairwise.sublist (told_claimedAt_sublist w _) ?_
      exact List.pairwise_reverse.mpr chronological
    obtain ⟨before, here, -⟩ := along_append.mp settings
    have earlier : Chronological steps := by
      refine List.Pairwise.sublist ?_ chronological
      exact (List.sublist_append_left steps [step]).filterMap _
    rw [told_append_singleton] at descending ⊢
    rw [run_append]
    exact next_counted here limits (ih earlier before) descending

theorem window_iff {k l : ℕ} (windowed : 0 < size) :
    (k * size ≤ l ∧ l < (k + 1) * size) ↔ l / size = k := by
  rw [Nat.div_eq_iff windowed, Nat.succ_mul]
  omega

end Windows

/-- Along every run and for every event: a nullifier sells one seat at most, and once it has, its
claim can be repeated without effect and no other is made; and while the limits are set to `m`
claims in `size` ledgers, no window has more than `m` new claims. -/
theorem anonymous_claims_limited (net : Network σ) (d : Deployment) (outside : σ)
    (steps : List (Step σ)) (e : Symbol) :
    (∀ n, firings (World.next net d) (SellsTo net d e n) (deployed outside) steps ≤ 1) ∧
    (∀ before after invocation tierId claim,
      steps = before ++ .call invocation (.claimAnonymousTicket e tierId claim) :: after →
      SellsTo net d e claim.nullifier (run (World.next net d) (deployed outside) before)
        (.call invocation (.claimAnonymousTicket e tierId claim)) →
      (run (World.next net d) (deployed outside) steps).Claimed net e claim.nullifier
        claim.ticketCommitment) ∧
    (∀ before after n commitment, steps = before ++ after →
      (run (World.next net d) (deployed outside) before).get (.anonymousNullifier e n) =
        some commitment →
      (run (World.next net d) (deployed outside) steps).Claimed net e n commitment) ∧
    (∀ before after m size, steps = before ++ after → 0 < m → 0 < size → Chronological after →
      Along (World.next net d) (fun w _ => w.getAnonClaimSettings e = ⟨m, size⟩)
        (run (World.next net d) (deployed outside) before) after →
      ∀ k, (told (World.next net d) (claimedAt net d e)
        (run (World.next net d) (deployed outside) before) after).countP
          (fun l => k * size ≤ l ∧ l < (k + 1) * size) ≤ m) := by
  have anchored := run_anchored net d outside steps
  refine ⟨fun n => ?_, ?_, ?_, ?_⟩
  · have stays (w : World σ) (step : Step σ) :
        (∃ commitment, w.get (.anonymousNullifier e n) = some commitment) →
          ∃ commitment, (w.next net d step).get (.anonymousNullifier e n) = some commitment := by
      rintro ⟨commitment, stored⟩
      exact ⟨commitment, (next_commitment stored step).1⟩
    refine firings_le_one (I := fun _ => True) (fun _ _ _ => trivial) ?_ stays ?_ _ steps trivial
    · intro w step _ sells
      obtain ⟨invocation, tierId, claim, rfl, rfl⟩ := claimsUnder_iff.mp sells.1
      exact ⟨_, sellsTo_stores sells⟩
    · rintro w step ⟨commitment, stored⟩
      exact (next_commitment stored step).2
  · rintro before after invocation tierId claim rfl sells
    refine claimed_of_stored anchored ?_
    rw [run_append, run_cons]
    exact run_commitment (sellsTo_stores sells) after
  · rintro before after n commitment rfl stored
    refine claimed_of_stored anchored ?_
    rw [run_append]
    exact run_commitment stored after
  · rintro before after m size rfl limit windowed chronological settings k
    have counted := run_counted ⟨limit, windowed⟩ chronological settings
    simp only [window_iff windowed]
    exact counted.limited k

namespace Sample

export Payments.Sample (festival)

def anonymous : List (Step Unit) :=
  [call 1 (.initialise organizer ⟨7⟩ ⟨8⟩),
    call 1 (.createEvent
      { params with allowAnonymous := true, initialTiers := [⟨"guest", 0, 5⟩] }),
    call 2 (.updateEventStatus organizer concert .active),
    call 2 (.setAnonymousClaimVerifier organizer ⟨9⟩),
    call 2 (.setAnonClaimSettings organizer concert 1 10)]

def claim (n : UInt8) : AnonymousTicketClaim :=
  { proof := [], nullifier := Vector.replicate 32 n, ticketCommitment := Vector.replicate 32 n,
    expiryLedger := 1000 }

def claims (ledger : ℕ) (n : UInt8) : Step Unit :=
  call ledger (.claimAnonymousTicket concert 0 (claim n))

def claimed : List (Step Unit) := [claims 20 1, claims 25 2, claims 30 2]

end Sample

theorem anonymous_claims_limited_sample :
    let next := World.next Sample.silent Sample.deployment
    let w := run next (deployed ()) (Sample.anonymous ++ Sample.claimed)
    firings next (SellsTo Sample.silent Sample.deployment Sample.concert (Sample.claim 1).nullifier)
        (deployed ()) (Sample.anonymous ++ Sample.claimed) ≤ 1 ∧
      w.Claimed Sample.silent Sample.concert (Sample.claim 1).nullifier
        (Sample.claim 1).ticketCommitment ∧
      w.Claimed Sample.silent Sample.concert (Sample.claim 2).nullifier
        (Sample.claim 2).ticketCommitment ∧
      (told next (claimedAt Sample.silent Sample.deployment Sample.concert)
        (run next (deployed ()) Sample.anonymous) Sample.claimed).countP
          (fun l => 2 * 10 ≤ l ∧ l < (2 + 1) * 10) ≤ 1 := by
  have limited := anonymous_claims_limited Sample.silent Sample.deployment ()
    (Sample.anonymous ++ Sample.claimed) Sample.concert
  obtain ⟨once, made, stored, windows⟩ := limited
  refine ⟨once _, ?_, ?_, ?_⟩
  · exact made Sample.anonymous [Sample.claims 25 2, Sample.claims 30 2]
      (Sample.invocation 20) 0 (Sample.claim 1) rfl (by decide)
  · exact stored (Sample.anonymous ++ Sample.claimed) [] _ _ (by simp) (by decide)
  · exact windows Sample.anonymous Sample.claimed 1 10 rfl (by decide) (by decide) (by decide)
      (by decide) 2

section Passports

def Attends (net : Network σ) (d : Deployment) (n : BytesN 32) (w : World σ) : Step σ → Prop
  | .call invocation (.verifyAndAttend e tierId claim) => claim.nullifier = n ∧
    (Call.verifyAndAttend e tierId claim).succeeds net ⟨d, invocation⟩ w = true
  | _ => False

instance (w : World σ) (step : Step σ) : Decidable (Attends net d n w step) := by
  apply @Step.casesOn _ (fun step => Decidable (Attends net d n w step)) step <;> intros
  case call invocation c =>
    apply @Call.casesOn (fun c => Decidable (Attends net d n w (.call invocation c))) c <;> intros <;>
      dsimp only [Attends] <;> infer_instance
  case elsewhere => exact instDecidableFalse

/-- The nullifier of an attendance is not spent for another event. -/
def UnspentElsewhere (_ : Env) (w : World σ) : Call → Prop
  | .verifyAndAttend e _ claim => ∀ e', e' ≠ e → w.get (.zkNullifier e' claim.nullifier) = none
  | _ => True

def World.Spent (w : World σ) (n : BytesN 32) : Prop := ∃ e, w.get (.zkNullifier e n) ≠ none

theorem attends_iff {step : Step σ} : Attends net d n w step ↔ ∃ invocation e tierId claim,
    step = .call invocation (.verifyAndAttend e tierId claim) ∧ claim.nullifier = n ∧
      (Call.verifyAndAttend e tierId claim).succeeds net ⟨d, invocation⟩ w = true := by
  constructor
  · intro h
    unfold Attends at h
    split at h
    · exact ⟨_, _, _, _, rfl, h⟩
    · cases h
  · rintro ⟨_, _, _, _, rfl, h⟩
    exact h

theorem next_zkNullifier (net : Network σ) (d : Deployment) (w : World σ) (step : Step σ)
    (e : Symbol) (n : BytesN 32) :
    (w.next net d step).get (.zkNullifier e n) = w.get (.zkNullifier e n) ∨
      (w.get (.zkNullifier e n) = none ∧ (w.next net d step).get (.zkNullifier e n) = some true ∧
        Attends net d n w step) := by
  obtain ⟨-, same⟩ | ⟨invocation, c, rfl, result⟩ := next_cases net d w step
  · exact .inl (congrArg (Store.get · _) same)
  · by_cases touched : c.Touches (.zkNullifier e n)
    · obtain ⟨tierId, claim, rfl, rfl⟩ := touches_zkNullifier touched
      obtain ⟨fresh, spent⟩ := verifyAndAttend_spends result
      exact .inr ⟨fresh, spent, rfl, succeeds_iff.mpr ⟨_, result⟩⟩
    · exact .inl ((exec_touches net _ w c _ result).get touched)

theorem next_spent (spent : w.Spent n) (step : Step σ) : (w.next net d step).Spent n := by
  obtain ⟨e, stored⟩ := spent
  obtain same | ⟨fresh, -⟩ := next_zkNullifier net d w step e n
  · exact ⟨e, same.symm ▸ stored⟩
  · exact absurd fresh stored

theorem attends_spends {step : Step σ} (attends : Attends net d n w step) :
    (w.next net d step).Spent n ∧
      (Succeeding net d UnspentElsewhere w step ↔ ¬ w.Spent n) := by
  obtain ⟨invocation, e, tierId, claim, rfl, rfl, success⟩ := attends_iff.mp attends
  obtain ⟨w', result⟩ := succeeds_iff.mp success
  obtain ⟨fresh, spent⟩ := verifyAndAttend_spends result
  refine ⟨⟨e, ?_⟩, fun unspent => ?_, fun unspent _ e' _ => ?_⟩
  · rw [World.next, result]
    exact spent ▸ Option.some_ne_none _
  · rintro ⟨e', stored⟩
    by_cases same : e' = e
    · exact stored (same ▸ fresh)
    · exact stored (unspent success e' same)
  · by_contra stored
    exact unspent ⟨e', stored⟩

end Passports

/-- Along every run, each nullifier buys at most one attendance across all events exactly when
no attendance succeeds under a nullifier that is spent for another event. -/
theorem attendance_unique_iff (net : Network σ) (d : Deployment) (outside : σ)
    (steps : List (Step σ)) :
    (∀ n, firings (World.next net d) (Attends net d n) (deployed outside) steps ≤ 1) ↔
      Along (World.next net d) (Succeeding net d UnspentElsewhere) (deployed outside) steps := by
  constructor
  · intro once
    refine along_iff_throughout.mpr ?_
    rintro before step ⟨after, rfl⟩
    cases step with
    | elsewhere outside => trivial
    | call invocation c =>
      intro success
      by_contra reused
      obtain ⟨e, tierId, claim, rfl⟩ : ∃ e tierId claim, c = .verifyAndAttend e tierId claim := by
        cases c <;> first | exact ⟨_, _, _, rfl⟩ | exact absurd trivial reused
      have attends : Attends net d claim.nullifier _
        (.call invocation (.verifyAndAttend e tierId claim)) := ⟨rfl, success⟩
      have spent : (run (World.next net d) (deployed outside) before).Spent claim.nullifier := by
        by_contra unspent
        exact reused ((attends_spends attends).2.mpr unspent success)
      have earlier : 1 ≤ firings (World.next net d) (Attends net d claim.nullifier)
          (deployed outside) before :=
        firings_pos (P := fun w : World σ => w.Spent claim.nullifier)
          (fun w step unspent spent => ?_) (fun ⟨_, stored⟩ => stored rfl) spent
      · have total := once claim.nullifier
        rw [List.append_assoc, firings_append, List.singleton_append, firings, if_pos attends]
          at total
        omega
      · obtain ⟨e, stored⟩ := spent
        obtain same | ⟨-, -, attends⟩ := next_zkNullifier net d w step e _
        · exact absurd ⟨e, same ▸ stored⟩ unspent
        · exact attends
  · intro unspent n
    have blocks (w : World σ) (step : Step σ) (spent : w.Spent n) :
        Succeeding net d UnspentElsewhere w step → ¬ Attends net d n w step :=
      fun heeds attends => (attends_spends attends).2.mp heeds spent
    exact (@firings_le_one_along _ _ _ _ _ _ (fun w => w.Spent n)
      (fun w step attends => (attends_spends attends).1) (fun w step spent => next_spent spent step)
      blocks _ _ unspent).1

def Sample.verified : List (Step Unit) :=
  let verified := { params with requiresVerification := true }
  let config : ZkVerificationConfig := { requiredClaimType := .any, enabled := true }
  [call 1 (.createEvent verified), call 1 (.createEvent { verified with eventId := festival }),
    call 2 (.updateEventStatus organizer concert .active),
    call 2 (.updateEventStatus organizer festival .active),
    call 2 (.setZkConfig organizer concert config), call 2 (.setZkConfig organizer festival config)]

def Sample.attendances : List (Step Unit) :=
  let claim : ZkPassportClaim :=
    { claimType := .any, proof := [], nullifier := Vector.replicate 32 1, expiryLedger := 100 }
  [call 3 (.verifyAndAttend concert 0 claim), call 3 (.verifyAndAttend festival 0 claim)]

theorem attendance_repeated :
    ¬ ∀ n, firings (World.next Sample.silent Sample.deployment)
      (Attends Sample.silent Sample.deployment n) (deployed ())
        (Sample.verified ++ Sample.attendances) ≤ 1 := by
  intro once
  have twice : firings (World.next Sample.silent Sample.deployment)
      (Attends Sample.silent Sample.deployment (Vector.replicate 32 1)) (deployed ())
        (Sample.verified ++ Sample.attendances) = 2 := by decide
  have total := once (Vector.replicate 32 1)
  omega

end Zicket.Events
