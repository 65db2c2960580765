import Mathlib.Algebra.Order.Ring.Int
import Mathlib.Tactic.SplitIfs

/-! Standard fungible tokens: one balance for each token and holder.
A transfer needs a non-negative amount covered by the sender and moves exactly it. -/

namespace Zicket.Foundation

def Balances (Token Holder : Type) := Token → Holder → ℤ

namespace Balances

variable {Token Holder : Type} [DecidableEq Token] [DecidableEq Holder]

def credit (b : Balances Token Holder) (token : Token) (holder : Holder) (amount : ℤ) :
    Balances Token Holder := fun t h =>
  if t = token ∧ h = holder then b t h + amount else b t h

def transfer (b : Balances Token Holder) (token : Token) (src dst : Holder) (amount : ℤ) :
    Option (Balances Token Holder) :=
  if 0 ≤ amount ∧ amount ≤ b token src then
    some ((b.credit token src (-amount)).credit token dst amount)
  else none

theorem transfer_eq_some {b b' : Balances Token Holder} {token : Token} {src dst : Holder}
    {amount : ℤ} : b.transfer token src dst amount = some b' ↔
      (0 ≤ amount ∧ amount ≤ b token src) ∧
        (b.credit token src (-amount)).credit token dst amount = b' := by
  unfold transfer
  split <;> simp_all

@[simp] theorem credit_apply (b : Balances Token Holder) (token : Token) (holder : Holder)
    (amount : ℤ) (t : Token) (h : Holder) : b.credit token holder amount t h =
      b t h + if t = token ∧ h = holder then amount else 0 := by
  unfold credit
  split <;> simp

end Balances

end Zicket.Foundation
