import Zicket.Host.Env

/-! Shared validation of revenue splits: pairs of an address and its basis points. -/

namespace Zicket.Common

open Host Foundation

variable {E : Type}

def totalBasisPoints : ℕ := 10000

def maxRevenueSplitRecipients : ℕ := 5

/-- The loop of `validate_revenue_splits`: earlier recipients and their total come in. -/
def checkSplits : List (Address × ℕ) → List Address → ℕ → Except String ℕ
  | [], _, total => return total
  | (recipient, bps) :: rest, earlier, total => do
    ensure (bps ≠ 0) "Basis points cannot be zero"
    ensure (total + bps < 2 ^ 32) "Basis points sum overflow"
    ensure (recipient ∉ earlier) "Duplicate recipient in split"
    checkSplits rest (earlier ++ [recipient]) (total + bps)

def validateRevenueSplits (splits : List (Address × ℕ)) (organizer : Address) :
    Except String Unit :=
  match splits with
  | [] => return
  | (first, _) :: _ => do
    ensure (splits.length ≤ maxRevenueSplitRecipients) "Too many split recipients"
    ensure (first = organizer) "First recipient must be the primary organizer"
    let total ← checkSplits splits [] 0
    ensure (total = totalBasisPoints) "Basis points must sum to 10000"

def findRecipientBasisPoints (splits : List (Address × ℕ)) (recipient : Address) : Option ℕ :=
  (splits.find? fun entry => entry.1 = recipient).map (·.2)

/-- `net_amount * bps / TOTAL_BASIS_POINTS` on `i128`. -/
def bpsShare (net : ℤ) (bps : ℕ) : Except (Failure E) ℤ := do
  let product ← i128 (net * bps)
  return product.tdiv totalBasisPoints

/-- Index 0 takes what the floors of the others leave; an unlisted address takes nothing. -/
def calculateRecipientShare (splits : List (Address × ℕ)) (recipient organizer : Address)
    (net : ℤ) : Except (Failure E) ℤ :=
  match splits with
  | [] => return if recipient = organizer then net else 0
  | (primary, _) :: others =>
    if recipient = primary then do
      let othersTotal ← others.foldlM (fun total entry => do
        let share ← bpsShare net entry.2
        i128 (total + share)) 0
      i128 (net - othersTotal)
    else
      match findRecipientBasisPoints splits recipient with
      | some bps => bpsShare net bps
      | none => return 0

end Zicket.Common
