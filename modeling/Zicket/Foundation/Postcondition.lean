import Mathlib.Order.Defs.Unbundled
import Zicket.Foundation.Attempt

/-! Postconditions of fallible computations: what holds of the result, if there is one, and
what relates the results of two. -/

namespace Zicket.Foundation

variable {ε α β : Type} {P P' : α → Prop} {Q : β → Prop} {x : Except ε α} {f : α → Except ε β}

def Yields (x : Except ε α) (P : α → Prop) : Prop := ∀ a, x = .ok a → P a

namespace Yields

theorem pure {a : α} (h : P a) : Yields (Pure.pure a : Except ε α) P := by
  rintro _ ⟨⟩
  exact h

theorem error (e : ε) : Yields (.error e) P := nofun

theorem bind (first : Yields x P) (rest : ∀ a, P a → Yields (f a) Q) : Yields (x >>= f) Q := by
  intro b h
  obtain ⟨a, result, h⟩ := bind_eq_ok.mp h
  exact rest a (first a result) b h

theorem skip (rest : ∀ a, Yields (f a) Q) : Yields (x >>= f) Q :=
  bind (P := fun _ => True) (fun _ _ => trivial) fun a _ => rest a

theorem mono (h : Yields x P) (weaker : ∀ a, P a → P' a) : Yields x P' :=
  fun a result => weaker a (h a result)

section Transitive

variable {σ : Type} {R : σ → σ → Prop} [IsTrans σ R] {s s' : σ}

theorem andThen {first : Except ε σ} {rest : σ → Except ε σ} (h : Yields first (R s))
    (h' : ∀ s₁, Yields (rest s₁) (R s₁)) : Yields (first >>= rest) (R s) :=
  h.bind fun s₁ h₁ => (h' s₁).mono fun _ => trans_of R h₁

theorem after (start : R s s') {attempt : Except ε σ} (h : Yields attempt (R s')) :
    Yields attempt (R s) :=
  h.mono fun _ => trans_of R start

end Transitive

end Yields

section Agree

variable {α' β' : Type} {R : α → α' → Prop} {S : β → β' → Prop} {y : Except ε α'}
  {g : α' → Except ε β'}

def Agree (x : Except ε α) (y : Except ε α') (R : α → α' → Prop) : Prop :=
  ∀ a b, x = .ok a → y = .ok b → R a b

namespace Agree

theorem pure {a : α} {b : α'} (h : R a b) :
    Agree (Pure.pure a : Except ε α) (Pure.pure b : Except ε α') R := by
  rintro _ _ ⟨⟩ ⟨⟩
  exact h

theorem bind (first : Agree x y R) (rest : ∀ a b, R a b → Agree (f a) (g b) S) :
    Agree (x >>= f) (y >>= g) S := by
  intro a b h h'
  obtain ⟨a', result, h⟩ := bind_eq_ok.mp h
  obtain ⟨b', result', h'⟩ := bind_eq_ok.mp h'
  exact rest a' b' (first a' b' result result') a b h h'

theorem skip (rest : ∀ a b, Agree (f a) (g b) S) : Agree (x >>= f) (y >>= g) S :=
  bind (R := fun _ _ => True) (fun _ _ _ _ => trivial) fun a b _ => rest a b

theorem same {g : α → Except ε β'} (rest : ∀ a, x = .ok a → Agree (f a) (g a) S) :
    Agree (x >>= f) (x >>= g) S := by
  refine bind (R := fun a b => x = .ok a ∧ a = b) ?_ fun a b eq => eq.2 ▸ rest a eq.1
  intro a b h h'
  exact ⟨h, Except.ok.inj (h.symm.trans h')⟩

end Agree

end Agree

end Zicket.Foundation
