import Mathlib.Logic.Basic

/-! Fallible computations in `Except` and what a successful one says.
`commit` is the rollback rule: a failed attempt leaves the state it started from. -/

namespace Zicket.Foundation

variable {ε α β σ : Type}

theorem bind_eq_ok {x : Except ε α} {f : α → Except ε β} {b : β} :
    (x >>= f) = .ok b ↔ ∃ a, x = .ok a ∧ f a = .ok b := by
  cases x <;> simp [bind, Except.bind]

theorem bind_eq_error {x : Except ε α} {f : α → Except ε β} {e : ε} :
    (x >>= f) = .error e ↔ x = .error e ∨ ∃ a, x = .ok a ∧ f a = .error e := by
  cases x <;> simp [bind, Except.bind]

@[simp] theorem pure_ne_error {a : α} {e : ε} : (pure a : Except ε α) ≠ .error e := nofun

@[simp] theorem pure_eq_ok {a b : α} : (pure a : Except ε α) = .ok b ↔ a = b := by
  simp [pure, Except.pure]

def ensure (p : Prop) [Decidable p] (e : ε) : Except ε Unit :=
  if p then .ok () else .error e

@[simp] theorem ensure_eq_ok {p : Prop} [Decidable p] {e : ε} {u : Unit} :
    ensure p e = .ok u ↔ p := by
  unfold ensure
  split <;> simp_all

@[simp] theorem ensure_eq_error {p : Prop} [Decidable p] {e e' : ε} :
    ensure p e = .error e' ↔ ¬ p ∧ e = e' := by
  unfold ensure
  split <;> simp_all

def onlyIf (p : Prop) [Decidable p] (check : Except ε Unit) : Except ε Unit :=
  if p then check else .ok ()

@[simp] theorem onlyIf_eq_ok {p : Prop} [Decidable p] {check : Except ε Unit} {u : Unit} :
    onlyIf p check = .ok u ↔ (p → check = .ok ()) := by
  unfold onlyIf
  split <;> simp_all

/-- `ok_or`: an absent value becomes the given error. -/
def orFail (x : Option α) (e : ε) : Except ε α :=
  match x with
  | some a => .ok a
  | none => .error e

@[simp] theorem orFail_eq_ok {x : Option α} {e : ε} {a : α} :
    orFail x e = .ok a ↔ x = some a := by
  cases x <;> simp [orFail]

@[simp] theorem orFail_eq_error {x : Option α} {e e' : ε} :
    orFail x e = .error e' ↔ x = none ∧ e = e' := by
  cases x <;> simp [orFail]

theorem forM_eq_ok {f : α → Except ε Unit} {xs : List α} {u : Unit} :
    xs.forM f = .ok u ↔ ∀ x ∈ xs, f x = .ok () := by
  induction xs with
  | nil => simp [pure, Except.pure]
  | cons x xs ih =>
    change (f x >>= fun _ => xs.forM f) = .ok u ↔ _
    rw [bind_eq_ok, List.forall_mem_cons, ← ih]
    exact ⟨fun ⟨_, first, rest⟩ => ⟨first, rest⟩, fun ⟨first, rest⟩ => ⟨(), first, rest⟩⟩

def commit (s : σ) (attempt : Except ε σ) : σ :=
  match attempt with
  | .ok s' => s'
  | .error _ => s

@[simp] theorem commit_ok (s s' : σ) : commit s (.ok s' : Except ε σ) = s' := rfl

/-- What an attempt preserves when it succeeds, it preserves. -/
theorem commit_induction {P : σ → Prop} {s : σ} {attempt : Except ε σ} (h : P s)
    (hok : ∀ s', attempt = .ok s' → P s') : P (commit s attempt) := by
  cases attempt with
  | error e => exact h
  | ok s' => exact hok s' rfl

end Zicket.Foundation
