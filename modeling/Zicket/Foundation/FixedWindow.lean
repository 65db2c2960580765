import Mathlib.Algebra.Order.Ring.Nat
import Mathlib.Data.List.Count
import Mathlib.Logic.Function.Basic

/-! A counter that starts anew when its window is over. What it admits is bounded in each window,
and so in each interval as long as one: such an interval meets two windows at most. -/

namespace Zicket.Foundation

structure FixedWindow where
  count : ℕ
  start : ℕ

namespace FixedWindow

/-- A fresh window counts its first moment without looking at the limit. -/
def allow (limit length : ℕ) (window : FixedWindow) (now : ℕ) : FixedWindow × Bool :=
  if length < now - window.start then (⟨1, now⟩, true)
  else if window.count < limit then (⟨window.count + 1, window.start⟩, true)
  else (window, false)

theorem countP_le_add {p : ℕ → Bool} (q r : ℕ → Bool) {ts : List ℕ}
    (covers : ∀ t ∈ ts, p t → q t ∨ r t) : ts.countP p ≤ ts.countP q + ts.countP r := by
  induction ts with
  | nil => simp
  | cons t ts ih =>
    have rest := ih fun u mem => covers u (List.mem_cons_of_mem t mem)
    have here := covers t List.mem_cons_self
    simp only [List.countP_cons]
    by_cases head : p t
    · rcases here head with left | right
      · rw [if_pos head, if_pos left]
        omega
      · rw [if_pos head, if_pos right]
        omega
    · rw [if_neg head]
      omega

theorem countP_le {p q : ℕ → Bool} {ts : List ℕ} (covers : ∀ t ∈ ts, p t → q t) :
    ts.countP p ≤ ts.countP q :=
  List.countP_mono_left covers

variable {limit length bound now : ℕ} {window : FixedWindow} {admitted : List ℕ}

/-- What was admitted so far, by the window that is open. -/
structure Paced (length bound now : ℕ) (window : FixedWindow) (admitted : List ℕ) : Prop where
  bounded : window.count ≤ bound
  started : window.start ≤ now
  past (t : ℕ) : t ∈ admitted → t ≤ window.start + length
  current : admitted.countP (fun t => decide (window.start ≤ t)) ≤ window.count
  before : admitted.countP (fun t => decide (t < window.start ∧ window.start ≤ t + length)) ≤ bound
  spread (a : ℕ) : admitted.countP (fun t => decide (a ≤ t ∧ t ≤ a + length)) ≤ 2 * bound

namespace Paced

theorem empty (length bound now : ℕ) : Paced length bound now ⟨0, now⟩ [] where
  bounded := Nat.zero_le bound
  started := le_rfl
  past _ mem := absurd mem List.not_mem_nil
  current := le_rfl
  before := Nat.zero_le bound
  spread _ := Nat.zero_le _

theorem later (paced : Paced length bound now window admitted) {later : ℕ} (le : now ≤ later) :
    Paced length bound later window admitted :=
  { paced with started := paced.started.trans le }

theorem reopen (paced : Paced length bound now window admitted) (positive : 1 ≤ bound)
    (ended : length < now - window.start) : Paced length bound now ⟨1, now⟩ (now :: admitted) := by
  have bounded := paced.bounded
  have near (p : ℕ → Bool) (recent : ∀ t, p t → now ≤ t + length) :
      admitted.countP p ≤ window.count := by
    refine (countP_le fun t _ holds => ?_).trans paced.current
    have close := recent t holds
    rw [decide_eq_true_eq]
    omega
  refine ⟨positive, le_rfl, fun t mem => ?_, ?_, ?_, fun a => ?_⟩
  · rcases List.mem_cons.mp mem with rfl | earlier
    · exact Nat.le_add_right t length
    · have past := paced.past t earlier
      change t ≤ now + length
      omega
  · have none : admitted.countP (fun t => decide (now ≤ t)) = 0 := by
      refine List.countP_eq_zero.mpr fun t mem holds => ?_
      have past := paced.past t mem
      rw [decide_eq_true_eq] at holds
      omega
    change List.countP (fun t => decide (now ≤ t)) (now :: admitted) ≤ 1
    rw [List.countP_cons, none]
    split_ifs <;> omega
  · change List.countP (fun t => decide (t < now ∧ now ≤ t + length)) (now :: admitted) ≤ bound
    rw [List.countP_cons, if_neg (by simp)]
    refine (near _ fun t holds => ?_).trans bounded
    exact (of_decide_eq_true holds).2
  · rw [List.countP_cons]
    split_ifs with inside
    · have bounds := of_decide_eq_true inside
      have few := near (fun t => decide (a ≤ t ∧ t ≤ a + length)) fun t holds => by
        have within := of_decide_eq_true holds
        omega
      omega
    · exact paced.spread a

/-- What is near a moment of the window was admitted in it, or in the one before. -/
theorem countUp (paced : Paced length bound now window admitted) (enough : window.count < bound)
    (within : ¬ length < now - window.start) :
    Paced length bound now ⟨window.count + 1, window.start⟩ (now :: admitted) := by
  have started := paced.started
  have current := paced.current
  have before := paced.before
  refine ⟨enough, started, fun t mem => ?_, ?_, ?_, fun a => ?_⟩
  · rcases List.mem_cons.mp mem with rfl | earlier
    · change t ≤ window.start + length
      omega
    · exact paced.past t earlier
  · change List.countP (fun t => decide (window.start ≤ t)) (now :: admitted) ≤ window.count + 1
    rw [List.countP_cons]
    split_ifs <;> omega
  · change List.countP (fun t => decide (t < window.start ∧ window.start ≤ t + length))
      (now :: admitted) ≤ bound
    rw [List.countP_cons]
    split_ifs with inside
    · have bounds := of_decide_eq_true inside
      omega
    · exact before
  · rw [List.countP_cons]
    split_ifs with inside
    · have bounds := of_decide_eq_true inside
      have two : admitted.countP (fun t => decide (a ≤ t ∧ t ≤ a + length)) ≤
          admitted.countP (fun t => decide (window.start ≤ t)) +
            admitted.countP (fun t =>
              decide (t < window.start ∧ window.start ≤ t + length)) := by
        refine countP_le_add _ _ fun t _ holds => ?_
        have near := of_decide_eq_true holds
        simp only [decide_eq_true_eq]
        omega
      omega
    · exact paced.spread a

theorem allow (paced : Paced length (max limit 1) now window admitted) :
    Paced length (max limit 1) now (window.allow limit length now).1
      (if (window.allow limit length now).2 then now :: admitted else admitted) := by
  by_cases ended : length < now - window.start
  · have reopened : window.allow limit length now = (⟨1, now⟩, true) := if_pos ended
    rw [reopened]
    exact paced.reopen (le_max_right limit 1) ended
  · by_cases free : window.count < limit
    · have counted : window.allow limit length now =
          (⟨window.count + 1, window.start⟩, true) := by
        rw [FixedWindow.allow, if_neg ended, if_pos free]
      rw [counted]
      exact paced.countUp (free.trans_le (le_max_left limit 1)) ended
    · have refused : window.allow limit length now = (window, false) := by
        rw [FixedWindow.allow, if_neg ended, if_neg free]
      rw [refused]
      exact paced

end Paced

section Keys

variable {Key : Type} {counts : Key → Option FixedWindow}
  {admittedOf : Key → List ℕ} {key : Key}

def PacedAll (limit length now : ℕ) (counts : Key → Option FixedWindow)
    (admittedOf : Key → List ℕ) : Prop :=
  ∀ key, (counts key = none ∧ admittedOf key = []) ∨
    ∃ window, counts key = some window ∧ Paced length (max limit 1) now window (admittedOf key)

theorem PacedAll.later (paced : PacedAll limit length now counts admittedOf) {later : ℕ}
    (le : now ≤ later) : PacedAll limit length later counts admittedOf := fun key =>
  (paced key).imp_right fun ⟨window, found, each⟩ => ⟨window, found, each.later le⟩

theorem PacedAll.check [DecidableEq Key] (paced : PacedAll limit length now counts admittedOf)
    (key : Key) :
    PacedAll limit length now
      (Function.update counts key
        (some (((counts key).getD ⟨0, now⟩).allow limit length now).1))
      (Function.update admittedOf key
        (if (((counts key).getD ⟨0, now⟩).allow limit length now).2 then now :: admittedOf key
          else admittedOf key)) := by
  have entry : Paced length (max limit 1) now ((counts key).getD ⟨0, now⟩) (admittedOf key) := by
    rcases paced key with ⟨absent, nothing⟩ | ⟨window, found, each⟩
    · rw [absent, nothing]
      exact Paced.empty length _ now
    · rw [found]
      exact each
  intro other
  by_cases here : other = key
  · subst here
    rw [Function.update_self, Function.update_self]
    exact .inr ⟨_, rfl, entry.allow⟩
  · rw [Function.update_of_ne here, Function.update_of_ne here]
    exact paced other

/-- What is admitted under a key in an interval as long as a window. -/
theorem PacedAll.spread (paced : PacedAll limit length now counts admittedOf) (key : Key) (a : ℕ) :
    (admittedOf key).countP (fun t => decide (a ≤ t ∧ t ≤ a + length)) ≤ 2 * max limit 1 := by
  rcases paced key with ⟨-, nothing⟩ | ⟨_, -, each⟩
  · rw [nothing]
    exact Nat.zero_le _
  · exact each.spread a

end Keys

end FixedWindow

end Zicket.Foundation
