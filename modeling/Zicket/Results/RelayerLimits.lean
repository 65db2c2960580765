import Zicket.Relayer.Handlers

/-! The limits of the relayer over runs of requests: no address and no session gets more than twice
its limit through in the time of one window. -/

namespace Zicket.Relayer

open Foundation Host

variable {service : CaptchaService} {limiter : RateLimiter} {request : TransactionRequest}
  {state : Served} {requests : List TransactionRequest}

section Logs

def admittedOf (keyOf : TransactionRequest → Option Text) (passes : TransactionResponse → Bool)
    (log : List (TransactionRequest × TransactionResponse)) (key : Text) : List ℕ :=
  (log.filter fun entry => keyOf entry.1 = some key && passes entry.2).map fun entry => entry.1.now

variable {keyOf : TransactionRequest → Option Text} {passes : TransactionResponse → Bool}
  {log : List (TransactionRequest × TransactionResponse)}
  {entry : TransactionRequest × TransactionResponse} {key : Text}

theorem admittedOf_cons_of_pass (found : keyOf entry.1 = some key) (passed : passes entry.2) :
    admittedOf keyOf passes (entry :: log) =
      Function.update (admittedOf keyOf passes log) key
        (entry.1.now :: admittedOf keyOf passes log key) := by
  funext other
  by_cases here : other = key
  · subst here
    rw [Function.update_self]
    simp [admittedOf, found, passed]
  · rw [Function.update_of_ne here]
    have differs : key ≠ other := Ne.symm here
    simp [admittedOf, found, differs]

theorem admittedOf_cons_of_not (refused : keyOf entry.1 = none ∨ passes entry.2 = false) :
    admittedOf keyOf passes (entry :: log) = admittedOf keyOf passes log := by
  funext other
  rcases refused with absent | failed
  · simp [admittedOf, absent]
  · simp [admittedOf, failed]

def passedIp (response : TransactionResponse) : Bool :=
  response.error ≠ some "Rate limit exceeded for IP"

def passedSession (response : TransactionResponse) : Bool :=
  passedIp response && response.error ≠ some "Rate limit exceeded for Session"

end Logs

section Steps

theorem checkSession_ipCounts (limiter : RateLimiter) (request : TransactionRequest) :
    (checkSession limiter request).1.ipCounts = limiter.ipCounts := by
  rw [checkSession]
  split <;> rfl

theorem checkSession_limits (limiter : RateLimiter) (request : TransactionRequest) :
    (checkSession limiter request).1.maxPerIp = limiter.maxPerIp ∧
    (checkSession limiter request).1.maxPerSession = limiter.maxPerSession ∧
    (checkSession limiter request).1.window = limiter.window := by
  rw [checkSession]
  split <;> exact ⟨rfl, rfl, rfl⟩

/-- What a request does to the limiter, and what its answer says about the checks. -/
structure Submitted (limiter : RateLimiter) (request : TransactionRequest)
    (served : RateLimiter × TransactionResponse) : Prop where
  ipCounts : served.1.ipCounts = (limiter.checkAndIncrementIp request.now request.ip).1.ipCounts
  sessionCounts : served.1.sessionCounts =
    if (limiter.ipEntry request.now request.ip).2 then
      (checkSession limiter request).1.sessionCounts
    else limiter.sessionCounts
  limits : served.1.maxPerIp = limiter.maxPerIp ∧ served.1.maxPerSession = limiter.maxPerSession ∧
    served.1.window = limiter.window
  byIp : passedIp served.2 = (limiter.ipEntry request.now request.ip).2
  bySession : passedSession served.2 =
    ((limiter.ipEntry request.now request.ip).2 && (checkSession limiter request).2)
  answered : served.2.code = .ok → passedSession served.2

theorem checkSession_byIp (limiter : RateLimiter) (request : TransactionRequest) (ip : Text)
    (now : ℕ) :
    (checkSession (limiter.checkAndIncrementIp now ip).1 request).1.sessionCounts =
        (checkSession limiter request).1.sessionCounts ∧
      (checkSession (limiter.checkAndIncrementIp now ip).1 request).2 =
        (checkSession limiter request).2 := by
  rw [checkSession, checkSession]
  split <;> exact ⟨rfl, rfl⟩

theorem submitTransaction_submitted (service : CaptchaService) (limiter : RateLimiter)
    (request : TransactionRequest) :
    Submitted limiter request (submitTransaction service limiter request) := by
  obtain ⟨counts, passed⟩ := checkSession_byIp limiter request request.ip request.now
  have limits := checkSession_limits (limiter.checkAndIncrementIp request.now request.ip).1 request
  have addresses :=
    checkSession_ipCounts (limiter.checkAndIncrementIp request.now request.ip).1 request
  rw [submitTransaction]
  dsimp only
  have entry : (limiter.checkAndIncrementIp request.now request.ip).2 =
      (limiter.ipEntry request.now request.ip).2 := rfl
  rw [entry, passed]
  split_ifs with ip session captcha
  · refine ⟨rfl, ?_, ⟨rfl, rfl, rfl⟩, ?_, ?_, ?_⟩ <;>
      simp [ip, RateLimiter.checkAndIncrementIp, passedIp, passedSession,
        TransactionResponse.refused]
  · rw [Bool.not_eq_false] at ip
    refine ⟨addresses, ?_, limits, ?_, ?_, ?_⟩ <;>
      simp [ip, session, counts, passedIp, passedSession, TransactionResponse.refused]
  · rw [Bool.not_eq_false] at ip session
    refine ⟨addresses, ?_, limits, ?_, ?_, ?_⟩ <;>
      simp [ip, session, counts, passedIp, passedSession, TransactionResponse.refused]
  · rw [Bool.not_eq_false] at ip session
    refine ⟨addresses, ?_, limits, ?_, ?_, ?_⟩ <;>
      simp [ip, session, counts, passedIp, passedSession]

end Steps

section Runs

structure Paces (maxPerIp maxPerSession window now : ℕ) (state : Served) : Prop where
  limits : state.1.maxPerIp = maxPerIp ∧ state.1.maxPerSession = maxPerSession ∧
    state.1.window = window
  ips : FixedWindow.PacedAll maxPerIp window now state.1.ipCounts
    (admittedOf (fun request => some request.ip) passedIp state.2)
  sessions : FixedWindow.PacedAll maxPerSession window now state.1.sessionCounts
    (admittedOf TransactionRequest.session passedSession state.2)
  answered (entry : TransactionRequest × TransactionResponse) : entry ∈ state.2 →
    entry.2.code = .ok → passedSession entry.2

variable {maxPerIp maxPerSession window now : ℕ}

theorem Paces.new (now : ℕ) :
    Paces maxPerIp maxPerSession window now (.new maxPerIp maxPerSession window, []) where
  limits := ⟨rfl, rfl, rfl⟩
  ips _ := .inl ⟨rfl, rfl⟩
  sessions _ := .inl ⟨rfl, rfl⟩
  answered _ mem := absurd mem List.not_mem_nil

theorem Paces.serve (paces : Paces maxPerIp maxPerSession window now state)
    (later : now ≤ request.now) (service : CaptchaService) :
    Paces maxPerIp maxPerSession window request.now (serve service state request) := by
  obtain ⟨rfl, rfl, rfl⟩ := paces.limits
  have submitted := submitTransaction_submitted service state.1 request
  have ips := (paces.ips.later later).check request.ip
  have sessions := paces.sessions.later later
  refine ⟨submitted.limits, ?_, ?_, ?_⟩
  · change FixedWindow.PacedAll _ _ _ (submitTransaction service state.1 request).1.ipCounts
      (admittedOf _ passedIp ((request, (submitTransaction service state.1 request).2) :: state.2))
    rw [submitted.ipCounts]
    cases passed : (state.1.ipEntry request.now request.ip).2 with
    | true =>
      rw [admittedOf_cons_of_pass rfl (submitted.byIp.trans passed)]
      rwa [← RateLimiter.ipEntry, passed, if_pos rfl] at ips
    | false =>
      rw [admittedOf_cons_of_not (.inr (submitted.byIp.trans passed))]
      rwa [← RateLimiter.ipEntry, passed, if_neg Bool.false_ne_true, Function.update_eq_self]
        at ips
  · change FixedWindow.PacedAll _ _ _ (submitTransaction service state.1 request).1.sessionCounts
      (admittedOf _ passedSession
        ((request, (submitTransaction service state.1 request).2) :: state.2))
    have bySession := submitted.bySession
    rw [submitted.sessionCounts]
    cases passed : (state.1.ipEntry request.now request.ip).2 with
    | false =>
      rw [passed, Bool.false_and] at bySession
      rw [if_neg Bool.false_ne_true, admittedOf_cons_of_not (.inr bySession)]
      exact sessions
    | true =>
      rw [passed, Bool.true_and] at bySession
      rw [if_pos rfl]
      cases named : request.session with
      | none =>
        have unchanged : checkSession state.1 request = (state.1, true) := by
          rw [checkSession, named]
        rw [unchanged, admittedOf_cons_of_not (.inl named)]
        exact sessions
      | some session =>
        have checked : checkSession state.1 request =
            state.1.checkAndIncrementSession request.now session := by
          rw [checkSession, named]
        have each := sessions.check session
        rw [checked] at bySession ⊢
        have entry : (state.1.checkAndIncrementSession request.now session).2 =
            (state.1.sessionEntry request.now session).2 := rfl
        rw [entry] at bySession
        cases free : (state.1.sessionEntry request.now session).2 with
        | true =>
          rw [admittedOf_cons_of_pass named (bySession.trans free)]
          rwa [← RateLimiter.sessionEntry, free, if_pos rfl] at each
        | false =>
          rw [admittedOf_cons_of_not (.inr (bySession.trans free))]
          rwa [← RateLimiter.sessionEntry, free, if_neg Bool.false_ne_true,
            Function.update_eq_self] at each
  · intro entry mem
    rcases List.mem_cons.mp mem with rfl | earlier
    · exact submitted.answered
    · exact paces.answered entry earlier

theorem Paces.foldl (paces : Paces maxPerIp maxPerSession window now state)
    (later : ∀ request ∈ requests, now ≤ request.now)
    (sorted : requests.Pairwise fun r r' => r.now ≤ r'.now) (service : CaptchaService) :
    ∃ final, Paces maxPerIp maxPerSession window final
      (requests.foldl (Relayer.serve service) state) := by
  induction requests generalizing state now with
  | nil => exact ⟨now, paces⟩
  | cons request requests ih =>
    obtain ⟨first, rest⟩ := List.pairwise_cons.mp sorted
    exact ih (paces.serve (later request List.mem_cons_self) service) first rest

theorem countP_admittedOf (keyOf : TransactionRequest → Option Text)
    {passes : TransactionResponse → Bool} {log : List (TransactionRequest × TransactionResponse)}
    (key : Text) (a : ℕ)
    (answered : ∀ entry ∈ log, entry.2.code = .ok → passes entry.2) :
    log.countP (fun entry => decide (entry.2.code = .ok ∧ keyOf entry.1 = some key ∧
        a ≤ entry.1.now ∧ entry.1.now ≤ a + window)) ≤
      (admittedOf keyOf passes log key).countP fun t => decide (a ≤ t ∧ t ≤ a + window) := by
  rw [admittedOf, List.countP_map, List.countP_filter]
  refine List.countP_mono_left fun entry mem holds => ?_
  obtain ⟨ok, found, above, below⟩ := of_decide_eq_true holds
  simp [found, above, below, answered entry mem ok]

/-- In every run, the transactions that get through for an address or for a session, in any
interval as long as a window, are at most twice its limit. -/
theorem submitted_at_most_twice (maxPerIp maxPerSession window : ℕ) (service : CaptchaService)
    (sorted : requests.Pairwise fun r r' => r.now ≤ r'.now) (key : Text) (a : ℕ) :
    (run service (.new maxPerIp maxPerSession window) requests).2.countP (fun entry =>
        decide (entry.2.code = .ok ∧ some entry.1.ip = some key ∧
          a ≤ entry.1.now ∧ entry.1.now ≤ a + window)) ≤ 2 * max maxPerIp 1 ∧
      (run service (.new maxPerIp maxPerSession window) requests).2.countP (fun entry =>
        decide (entry.2.code = .ok ∧ entry.1.session = some key ∧
          a ≤ entry.1.now ∧ entry.1.now ≤ a + window)) ≤ 2 * max maxPerSession 1 := by
  obtain ⟨final, paces⟩ := (Paces.new 0 : Paces maxPerIp maxPerSession window 0 _).foldl
    (fun _ _ => Nat.zero_le _) sorted service
  have byIp (entry : TransactionRequest × TransactionResponse)
      (mem : entry ∈ (run service (.new maxPerIp maxPerSession window) requests).2)
      (ok : entry.2.code = .ok) : passedIp entry.2 :=
    (Bool.and_eq_true_iff.mp (paces.answered entry mem ok)).1
  constructor
  · exact (countP_admittedOf (fun request => some request.ip) key a byIp).trans
      (paces.ips.spread key a)
  · exact (countP_admittedOf TransactionRequest.session key a paces.answered).trans
      (paces.sessions.spread key a)

def busyRequests : List TransactionRequest :=
  [⟨none, some [97], ['a'], "valid_dummy_token", 0, none⟩,
    ⟨some [98, 44, 97], some [97], ['a'], "valid_dummy_token", 30, none⟩,
    ⟨some [97], none, ['b'], "valid_dummy_token", 60, none⟩,
    ⟨none, some [97], ['a'], "expired", 61, none⟩]

theorem submitted_at_most_twice_sample :
    (run ⟨"dummy_secret"⟩ (.new 1 2 60) busyRequests).2.countP (fun entry =>
        decide (entry.2.code = .ok ∧ some entry.1.ip = some ['a'] ∧
          0 ≤ entry.1.now ∧ entry.1.now ≤ 0 + 60)) ≤ 2 * max 1 1 ∧
      (run ⟨"dummy_secret"⟩ (.new 1 2 60) busyRequests).2.countP (fun entry =>
        decide (entry.2.code = .ok ∧ entry.1.session = some ['a'] ∧
          0 ≤ entry.1.now ∧ entry.1.now ≤ 0 + 60)) ≤ 2 * max 2 1 := by
  have sorted : busyRequests.Pairwise fun r r' => r.now ≤ r'.now := by simp [busyRequests]
  exact submitted_at_most_twice 1 2 60 ⟨"dummy_secret"⟩ sorted ['a'] 0

end Runs

end Zicket.Relayer
