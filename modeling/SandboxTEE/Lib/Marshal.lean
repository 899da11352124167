import Mathlib.Data.List.Basic

/-! # Marshalling by two lists of copies

One side appends pieces of a record to a buffer, the other reads pieces of the buffer into a
record of its own.  The two agree when each copy in reads as much as its copy out has written.
-/

namespace SandboxTEE.Lib.Marshal

variable {β σ τ : Type}

/-- `memcpy(p, ..., len); p += len` -/
structure CopyOut (β σ : Type) where
  len : Nat
  bytes : σ → List β
  length_bytes : ∀ s, (bytes s).length = len

/-- `memcpy(..., p, len); p += len` -/
structure CopyIn (β τ : Type) where
  len : Nat
  put : List β → τ → τ

def marshal (outs : List (CopyOut β σ)) (s : σ) : List β := outs.flatMap fun o => o.bytes s

/-- The record and the offset behind the last copy.  A piece that may not be read is left out. -/
def unmarshal (ins : List (CopyIn β τ)) (read : Nat → Nat → Option (List β)) (p : Nat) (t : τ) :
    τ × Nat :=
  ins.foldl (fun (t, p) i => (((read p i.len).map fun bytes => i.put bytes t).getD t, p + i.len))
    (t, p)

theorem unmarshal_cons (i : CopyIn β τ) (ins : List (CopyIn β τ))
    (read : Nat → Nat → Option (List β)) (p : Nat) (t : τ) :
    unmarshal (i :: ins) read p t = unmarshal ins read (p + i.len)
      (((read p i.len).map fun bytes => i.put bytes t).getD t) := rfl

/-- A copy out and its copy in at once. -/
def transfer (outs : List (CopyOut β σ)) (ins : List (CopyIn β τ)) (s : σ) (t : τ) : τ :=
  (outs.zip ins).foldl (fun t (o, i) => i.put (o.bytes s) t) t

/-- A buffer of which `read` gives any piece. -/
def Holds (read : Nat → Nat → Option (List β)) (p : Nat) (bytes : List β) : Prop :=
  ∀ front piece behind, bytes = front ++ (piece ++ behind) →
    read (p + front.length) piece.length = some piece

variable {p : Nat} {read : Nat → Nat → Option (List β)}

theorem Holds.tail {first rest : List β} (h : Holds read p (first ++ rest)) :
    Holds read (p + first.length) rest := by
  intro front piece behind split
  have := h (first ++ front) piece behind (by rw [split, List.append_assoc])
  rwa [List.length_append, ← Nat.add_assoc] at this

/-- Copies of the same lengths in the same order lose nothing. -/
theorem unmarshal_marshal {outs : List (CopyOut β σ)} {ins : List (CopyIn β τ)} (s : σ) (t : τ)
    (lockstep : outs.map CopyOut.len = ins.map CopyIn.len) (holds : Holds read p (marshal outs s)) :
    unmarshal ins read p t = (transfer outs ins s t, p + (marshal outs s).length) := by
  induction outs generalizing ins p t with
  | nil =>
    cases ins with
    | nil => rfl
    | cons i ins => cases lockstep
  | cons o outs ih =>
    cases ins with
    | nil => cases lockstep
    | cons i ins =>
      obtain ⟨len, rest⟩ := List.cons.inj lockstep
      rw [marshal, List.flatMap_cons] at holds ⊢
      have here : read p i.len = some (o.bytes s) := by
        have := holds [] (o.bytes s) _ rfl
        rwa [o.length_bytes, len] at this
      have behind := holds.tail
      rw [o.length_bytes, len] at behind
      rw [unmarshal_cons, here, ih _ rest behind, List.length_append, o.length_bytes, len,
        ← Nat.add_assoc]
      rfl

end SandboxTEE.Lib.Marshal
