import Mathlib.Logic.Function.Iterate

/-! Answers given in rounds. A step that makes of inputs which agree in the rounds before a round
outputs which agree in that round too has one fixed point: whatever it starts from, it has settled
one more round each time. -/

namespace Zicket.Foundation

variable {α : Type} {agree : ℕ → α → α → Prop} {step : α → α}

/-- `agree k` compares the first `k` rounds. -/
structure Causal (agree : ℕ → α → α → Prop) (step : α → α) : Prop where
  start : ∀ a b, agree 0 a b
  next : ∀ k a b, agree k a b → agree (k + 1) (step a) (step b)

namespace Causal

variable (causal : Causal agree step)
include causal

theorem agree_iterate (k : ℕ) (a b : α) : agree k (step^[k] a) (step^[k] b) := by
  induction k generalizing a b with
  | zero => exact causal.start a b
  | succ k ih =>
    rw [Function.iterate_succ_apply', Function.iterate_succ_apply']
    exact causal.next k _ _ (ih a b)

/-- As many steps as there are rounds reach the one input that answers itself. -/
theorem existsUnique_fixed [Nonempty α] (rounds : ℕ) (eq : ∀ a b, agree rounds a b → a = b) :
    ∃! a, step a = a := by
  obtain ⟨start⟩ := ‹Nonempty α›
  refine ⟨step^[rounds] start, ?_, fun a fixed => ?_⟩
  · change step (step^[rounds] start) = step^[rounds] start
    rw [← Function.iterate_succ_apply' step, Function.iterate_succ_apply]
    exact eq _ _ (causal.agree_iterate rounds (step start) start)
  · rw [← Function.iterate_fixed fixed rounds]
    exact eq _ _ (causal.agree_iterate rounds a start)

end Causal

end Zicket.Foundation
