import Mathlib.Algebra.Order.Ring.Int
import Zicket.Foundation.Attempt

/-! What the Soroban host gives a contract call: addresses and symbols (only ever
compared), the ledger, the authorizations of the transaction, hashing and signatures.
The release profile checks overflow, so integer arithmetic traps outside its type.
Archival of entries is not modelled: a stored entry stays readable. -/

namespace Zicket.Host

open Foundation

structure Address where
  id : ℕ
  deriving DecidableEq, Repr

structure Symbol where
  id : ℕ
  deriving DecidableEq, Repr

abbrev Bytes := List UInt8

abbrev BytesN (n : ℕ) := Vector UInt8 n

/-- A contract error, or a host trap (failed authorization, overflow, failed call). -/
inductive Failure (E : Type) where
  | error (e : E)
  | trap
  deriving DecidableEq, Repr

/-- XDR encoders, hashing and signatures; `credentialXdr` encodes what an attendance
credential is about: the event, the ticket and its owner. -/
structure Crypto where
  addressXdr : Address → Bytes
  symbolXdr : Symbol → Bytes
  u64Xdr : ℕ → Bytes
  credentialXdr : Symbol → ℕ → Address → Bytes
  sha256 : Bytes → BytesN 32
  ed25519Verify : BytesN 32 → Bytes → BytesN 64 → Bool

structure Deployment where
  currentContract : Address
  crypto : Crypto

/-- What each call brings. `adminTransferTicket contract operator src dst ticketId` is
the answer of the linked ticket contract to the call of the same name. -/
structure Invocation where
  sequence : ℕ
  timestamp : ℕ
  authorized : Address → Bool
  adminTransferTicket : Address → Address → Address → Address → ℕ → Bool

structure Env extends Deployment, Invocation

section Arithmetic

variable {E : Type}

def InI128 (x : ℤ) : Prop := -2 ^ 127 ≤ x ∧ x < 2 ^ 127

instance (x : ℤ) : Decidable (InI128 x) := inferInstanceAs (Decidable (_ ∧ _))

def i128 (x : ℤ) : Except (Failure E) ℤ := if InI128 x then .ok x else .error .trap

def u32Max : ℕ := 2 ^ 32 - 1

def u32 (n : ℕ) : Except (Failure E) ℕ := if n < 2 ^ 32 then .ok n else .error .trap

def u64 (n : ℕ) : Except (Failure E) ℕ := if n < 2 ^ 64 then .ok n else .error .trap

def u32Sub (m n : ℕ) : Except (Failure E) ℕ := if n ≤ m then .ok (m - n) else .error .trap

def saturatingAdd (m n : ℕ) : ℕ := min (m + n) u32Max

def u64Max : ℕ := 2 ^ 64 - 1

def saturatingAddU64 (m n : ℕ) : ℕ := min (m + n) u64Max

@[simp] theorem i128_eq_ok {x y : ℤ} :
    (i128 x : Except (Failure E) ℤ) = .ok y ↔ InI128 x ∧ x = y := by
  unfold i128
  split <;> simp_all

@[simp] theorem u32_eq_ok {m n : ℕ} :
    (u32 m : Except (Failure E) ℕ) = .ok n ↔ m < 2 ^ 32 ∧ m = n := by
  unfold u32
  split <;> simp_all

@[simp] theorem u64_eq_ok {m n : ℕ} :
    (u64 m : Except (Failure E) ℕ) = .ok n ↔ m < 2 ^ 64 ∧ m = n := by
  unfold u64
  split <;> simp_all

@[simp] theorem u32Sub_eq_ok {m n k : ℕ} :
    (u32Sub m n : Except (Failure E) ℕ) = .ok k ↔ n ≤ m ∧ m - n = k := by
  unfold u32Sub
  split <;> simp_all

/-- A checked sum is the sum, if no running total leaves the range. -/
theorem foldlM_i128_eq_ok {α : Type} (f : α → ℤ) (xs : List α) {acc x : ℤ} (start : InI128 acc) :
    xs.foldlM (fun total a => (i128 (total + f a) : Except (Failure E) ℤ)) acc = .ok x ↔
      x = acc + (xs.map f).sum ∧ ∀ ys, ys <+: xs → InI128 (acc + (ys.map f).sum) := by
  induction xs generalizing acc with
  | nil =>
    simp only [List.foldlM_nil, pure_eq_ok, List.map_nil, List.sum_nil, add_zero, List.prefix_nil,
      forall_eq]
    exact ⟨fun same => ⟨same.symm, start⟩, fun h => h.1.symm⟩
  | cons a rest ih =>
    rw [List.foldlM_cons, bind_eq_ok]
    simp only [i128_eq_ok]
    constructor
    · rintro ⟨_, ⟨fits, rfl⟩, h⟩
      obtain ⟨rfl, running⟩ := (ih fits).mp h
      refine ⟨by rw [List.map_cons, List.sum_cons, add_assoc], fun ys le => ?_⟩
      obtain rfl | ⟨tail, rfl, shorter⟩ := List.prefix_cons_iff.mp le
      · simpa using start
      · rw [List.map_cons, List.sum_cons, ← add_assoc]
        exact running tail shorter
    · rintro ⟨rfl, running⟩
      have fits : InI128 (acc + f a) := by
        simpa using running [a] (List.prefix_iff_eq_take.mpr (by simp))
      refine ⟨_, ⟨fits, rfl⟩, (ih fits).mpr ⟨by rw [List.map_cons, List.sum_cons, add_assoc],
        fun ys le => ?_⟩⟩
      have total := running (a :: ys) (List.prefix_cons_inj a |>.mpr le)
      rwa [List.map_cons, List.sum_cons, ← add_assoc] at total

end Arithmetic

/-- `require_auth`: the transaction carries the address's authorization of this call. -/
def requireAuth {E : Type} (env : Env) (a : Address) : Except (Failure E) Unit :=
  ensure (env.authorized a = true) .trap

@[simp] theorem requireAuth_eq_ok {E : Type} {env : Env} {a : Address} {u : Unit} :
    (requireAuth env a : Except (Failure E) Unit) = .ok u ↔ env.authorized a = true :=
  ensure_eq_ok

section Unrefused

variable {E α β : Type}

/-- The contract does not refuse: whatever fails, fails in the host. -/
def Unrefused (x : Except (Failure E) α) : Prop := ∀ e, x ≠ .error (.error e)

theorem unrefused_ok (a : α) : Unrefused (.ok a : Except (Failure E) α) := nofun

theorem unrefused_trap : Unrefused (.error .trap : Except (Failure E) α) := nofun

theorem Unrefused.bind {x : Except (Failure E) α} {f : α → Except (Failure E) β}
    (first : Unrefused x) (rest : ∀ a, x = .ok a → Unrefused (f a)) : Unrefused (x >>= f) := by
  cases x with
  | error failure =>
    intro e h
    exact first e (by cases h; rfl)
  | ok a => exact rest a rfl

theorem unrefused_of_pass {x : Except (Failure E) α} {a : α} (pass : x = .ok a) : Unrefused x := by
  rw [pass]
  exact unrefused_ok a

theorem i128_unrefused (x : ℤ) : Unrefused (i128 x : Except (Failure E) ℤ) := by
  unfold i128
  split
  · exact unrefused_ok x
  · exact unrefused_trap

theorem requireAuth_unrefused (env : Env) (a : Address) :
    Unrefused (requireAuth env a : Except (Failure E) Unit) := by
  unfold requireAuth ensure
  split
  · exact unrefused_ok ()
  · exact unrefused_trap

end Unrefused

end Zicket.Host
