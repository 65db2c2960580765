import Mathlib.Data.Set.Function

/-! Challenges of a hash chain: every block of data is hashed behind the challenge before it. On
strings that a hash does not confuse, the last challenge determines all blocks. -/

namespace Zicket.Foundation

variable {γ : Type} (hash : List UInt8 → γ) (encode : γ → List UInt8)

def absorb (challenge : γ) (block : List UInt8) : γ := hash (encode challenge ++ block)

def squeeze (challenge : γ) (blocks : List (List UInt8)) : γ :=
  blocks.foldl (absorb hash encode) challenge

def absorbed (challenge : γ) : List (List UInt8) → List (List UInt8)
  | [] => []
  | block :: blocks =>
    (encode challenge ++ block) :: absorbed (absorb hash encode challenge block) blocks

variable {hash encode} {challenge challenge' : γ} {blocks blocks' more : List (List UInt8)}

@[simp] theorem squeeze_nil : squeeze hash encode challenge [] = challenge := rfl

@[simp] theorem squeeze_cons (block : List UInt8) :
    squeeze hash encode challenge (block :: blocks) =
      squeeze hash encode (absorb hash encode challenge block) blocks := rfl

theorem squeeze_append : squeeze hash encode challenge (blocks ++ more) =
    squeeze hash encode (squeeze hash encode challenge blocks) more :=
  List.foldl_append

@[simp] theorem absorbed_length :
    (absorbed hash encode challenge blocks).length = blocks.length := by
  induction blocks generalizing challenge with
  | nil => rfl
  | cons block blocks ih => simp [absorbed, ih]

/-- Encodings of one length, and a hash that takes the strings of the two chains to different
challenges: the chains agree from the start. -/
theorem squeeze_inj (encode_inj : Function.Injective encode)
    (width : ∀ a b, (encode a).length = (encode b).length)
    (free : ∀ s ∈ absorbed hash encode challenge blocks,
      ∀ t ∈ absorbed hash encode challenge' blocks', hash s = hash t → s = t)
    (lengths : blocks.length = blocks'.length)
    (same : squeeze hash encode challenge blocks = squeeze hash encode challenge' blocks') :
    challenge = challenge' ∧ blocks = blocks' := by
  induction blocks generalizing challenge challenge' blocks' with
  | nil =>
    obtain rfl := List.length_eq_zero_iff.mp lengths.symm
    exact ⟨same, rfl⟩
  | cons block blocks ih =>
    cases blocks' with
    | nil => cases lengths
    | cons block' blocks' =>
      have later := ih (fun s first t second => free s (.tail _ first) t (.tail _ second))
        (Nat.succ.inj lengths) same
      have strings : encode challenge ++ block = encode challenge' ++ block' :=
        free _ (.head _) _ (.head _) later.1
      obtain ⟨before, here⟩ := List.append_inj strings (width _ _)
      rw [encode_inj before, here, later.2]
      exact ⟨rfl, rfl⟩

end Zicket.Foundation
