import SandboxTEE.Validator.Replacement

/-! # Copying one instruction (`nccopycode.c`)

Other threads may execute the instruction while it is copied.  So it is written in one store where all
that changes lies in an aligned word; otherwise a HLT stands in front of it while the rest is written, and
before each of these steps all processors are serialized, which may fail.
-/

namespace SandboxTEE.DynamicText

open SandboxTEE.Validator

abbrev Bytes := Nat → BitVec 8

def kTrustAligned : Nat := 8
def kTrustUnaligned : Nat := 1
def kInstructionFetchSize : Nat := 8

/-- The code by its addresses, and how often `SerializeAllProcessors` has been called. -/
structure CopyState where
  mem : Bytes
  serializations : Nat

/-- `memcpy(dst, src, n)` -/
def memcpy (dst : Nat) (src : Bytes) (n : Nat) (mem : Bytes) : Bytes := fun a =>
  if dst ≤ a ∧ a < dst + n then src (a - dst) else mem a

def isAligned (dst size align : Nat) : Bool := dst / align == (dst + size - 1) / align

/-- The offset to start the write at. -/
def isTrustedWrite (dst size writesize : Nat) : Option Nat :=
  if size > writesize then none
  else if isAligned dst size kInstructionFetchSize = false then none
  else if writesize ≤ kTrustAligned ∧ isAligned dst size writesize = true then some (dst % writesize)
  else if writesize ≤ kTrustUnaligned then some 0
  else none

/-- `onestore_memmove4` and `onestore_memmove8`, with what is around the bytes that change. -/
def onestoreMemmove (writesize offset dst : Nat) (src : Bytes) (size : Nat) (mem : Bytes) : Bytes :=
  let tmp := memcpy offset src size fun i => mem (dst - offset + i)
  memcpy (dst - offset) tmp writesize mem

/-- The slow path: `size` bytes change at `dst`, of the instruction at `firstbyte`. -/
def copySlowly (serialize : Nat → Bool) (firstbyteP dst : Nat) (src : Bytes) (size : Nat) (s : CopyState) :
    Bool × CopyState :=
  let halted := Function.update s.mem firstbyteP naclHaltOpcode
  if serialize s.serializations = false then (false, ⟨halted, s.serializations + 1⟩)
  else
    -- not the first byte
    let firstbyte := if dst = firstbyteP then src 0 else s.mem firstbyteP
    let copied :=
      if dst = firstbyteP then memcpy (dst + 1) (fun i => src (i + 1)) (size - 1) halted
      else memcpy dst src size halted
    if serialize (s.serializations + 1) = false then (false, ⟨copied, s.serializations + 2⟩)
    else (true, ⟨Function.update copied firstbyteP firstbyte, s.serializations + 2⟩)

/-- Scroll to the first changed byte, from the `i`-th on, with `n` bytes left. -/
def scrollToChanged (same : Nat → Bool) : Nat → Nat → Nat
  | _, 0 => 0
  | i, n + 1 => if same i = true then scrollToChanged same (i + 1) n + 1 else 0

/-- Trim identical bytes at the end of those from the `first` on. -/
def trimEnd (same : Nat → Bool) (first : Nat) : Nat → Nat
  | 0 => 0
  | n + 1 => if same (first + n) = true then trimEnd same first n else n + 1

/-- `NaClCopyInstruction`; `serialize` tells which calls of `SerializeAllProcessors` succeed. -/
def naClCopyInstruction (serialize : Nat → Bool) : CopyInstructionFunc CopyState := fun s dst src size =>
  let same := fun i => s.mem (dst + i) == src i
  let first := scrollToChanged same 0 size
  if first = size then (true, s)
  else
    let changed := trimEnd same first (size - first)
    let src := fun i => src (first + i)
    if changed = 1 then (true, { s with mem := Function.update s.mem (dst + first) (src 0) })
    else
      match isTrustedWrite (dst + first) changed 4 with
      | some offset =>
        (true, { s with mem := onestoreMemmove 4 offset (dst + first) src changed s.mem })
      | none =>
        match isTrustedWrite (dst + first) changed 8 with
        | some offset =>
          (true, { s with mem := onestoreMemmove 8 offset (dst + first) src changed s.mem })
        | none => copySlowly serialize dst (dst + first) src changed s

/-! ## What is written -/

variable {mem src : Bytes} {dst size : Nat}

variable {writesize : Nat}

theorem onestoreMemmove_eq (positive : 0 < writesize) (nonempty : 0 < size)
    (aligned : isAligned dst size writesize = true) :
    onestoreMemmove writesize (dst % writesize) dst src size mem = memcpy dst src size mem := by
  have word := Nat.div_add_mod dst writesize
  have inside : dst + size - 1 < writesize * ((dst + size - 1) / writesize + 1) :=
    Nat.lt_mul_div_succ _ positive
  rw [← beq_iff_eq.mp aligned, Nat.mul_succ] at inside
  funext a
  simp only [onestoreMemmove, memcpy]
  by_cases stored : dst - dst % writesize ≤ a ∧ a < dst - dst % writesize + writesize
  · rw [if_pos stored]
    by_cases changed : dst ≤ a ∧ a < dst + size
    · rw [if_pos changed, if_pos (by omega)]
      congr 1
      omega
    · rw [if_neg changed, if_neg (by omega)]
      congr 1
      omega
  · rw [if_neg stored, if_neg (by omega)]

theorem isTrustedWrite_some {offset : Nat} (wide : 1 < writesize)
    (trusted : isTrustedWrite dst size writesize = some offset) :
    offset = dst % writesize ∧ isAligned dst size writesize = true := by
  unfold isTrustedWrite at trusted
  split at trusted
  · cases trusted
  split at trusted
  · cases trusted
  split at trusted
  · next aligned =>
    cases trusted
    exact ⟨rfl, aligned.2⟩
  · rw [if_neg (show ¬ writesize ≤ kTrustUnaligned from Nat.not_le.mpr wide)] at trusted
    cases trusted

variable {serialize : Nat → Bool} {s : CopyState}

theorem copySlowly_eq {firstbyteP : Nat} (behind : firstbyteP ≤ dst) (nonempty : 0 < size)
    (ok : (copySlowly serialize firstbyteP dst src size s).1 = true) :
    (copySlowly serialize firstbyteP dst src size s).2.mem = memcpy dst src size s.mem := by
  unfold copySlowly at ok ⊢
  dsimp only at ok ⊢
  split at ok
  · cases ok
  next first =>
  rw [if_neg first]
  split at ok
  · cases ok
  next second =>
  rw [if_neg second]
  dsimp only
  funext a
  by_cases here : a = firstbyteP
  · subst here
    rw [Function.update_self]
    by_cases start : dst = a
    · rw [if_pos start, memcpy, if_pos (by omega), start, Nat.sub_self]
    · rw [if_neg start, memcpy, if_neg (by omega)]
  · rw [Function.update_of_ne here]
    by_cases start : dst = firstbyteP
    · rw [if_pos start]
      simp only [memcpy, Function.update_of_ne here]
      by_cases inside : dst ≤ a ∧ a < dst + size
      · rw [if_pos inside, if_pos (by omega)]
        congr 1
        omega
      · rw [if_neg inside, if_neg (by omega)]
    · rw [if_neg start]
      simp only [memcpy, Function.update_of_ne here]

/-- Bytes at both ends that are the same already need not be copied. -/
theorem memcpy_trim {first changed : Nat} (fits : first + changed ≤ size)
    (start : ∀ i < first, mem (dst + i) = src i)
    (stop : ∀ i, first + changed ≤ i → i < size → mem (dst + i) = src i) :
    memcpy (dst + first) (fun i => src (first + i)) changed mem = memcpy dst src size mem := by
  funext a
  simp only [memcpy]
  by_cases inside : dst ≤ a ∧ a < dst + size
  · have there : dst + (a - dst) = a := Nat.add_sub_cancel' inside.1
    rw [if_pos inside]
    split
    · next copied =>
      congr 1
      omega
    · next left =>
      by_cases before : a - dst < first
      · rw [← start _ before, there]
      · rw [← stop (a - dst) (by omega) (by omega), there]
  · rw [if_neg inside, if_neg (by omega)]

theorem scrollToChanged_spec (same : Nat → Bool) (i n : Nat) :
    scrollToChanged same i n ≤ n ∧ (∀ j < scrollToChanged same i n, same (i + j) = true) ∧
      (scrollToChanged same i n < n → same (i + scrollToChanged same i n) = false) := by
  induction n generalizing i with
  | zero => simp [scrollToChanged]
  | succ n ih =>
    obtain ⟨within, before, changed⟩ := ih (i + 1)
    rw [scrollToChanged]
    split
    · next here =>
      refine ⟨Nat.succ_le_succ within, fun j less => ?_, fun less => ?_⟩
      · cases j with
        | zero => exact here
        | succ j =>
          rw [← Nat.add_assoc, Nat.add_right_comm]
          exact before j (Nat.lt_of_succ_lt_succ less)
      · rw [← Nat.add_assoc, Nat.add_right_comm]
        exact changed (Nat.lt_of_succ_lt_succ less)
    · next here => exact ⟨Nat.zero_le _, fun j none => absurd none (Nat.not_lt_zero j), fun _ => by simpa using here⟩

theorem trimEnd_spec (same : Nat → Bool) (first n : Nat) :
    trimEnd same first n ≤ n ∧ (∀ j, trimEnd same first n ≤ j → j < n → same (first + j) = true) ∧
      (0 < n → same first = false → 0 < trimEnd same first n) := by
  induction n with
  | zero => simp [trimEnd]
  | succ n ih =>
    obtain ⟨within, behind, changed⟩ := ih
    rw [trimEnd]
    split
    · next here =>
      refine ⟨Nat.le_succ_of_le within, fun j more less => ?_, fun _ differs => ?_⟩
      · rcases Nat.lt_succ_iff_lt_or_eq.mp less with before | rfl
        · exact behind j more before
        · exact here
      · cases n with
        | zero => exact absurd here (by simpa using differs)
        | succ n => exact changed n.succ_pos differs
    · exact ⟨Nat.le_refl _, fun j more less => absurd less (Nat.not_lt.mpr more), fun _ _ => n.succ_pos⟩

theorem naClCopyInstruction_eq (ok : (naClCopyInstruction serialize s dst src size).1 = true) :
    (naClCopyInstruction serialize s dst src size).2.mem = memcpy dst src size s.mem := by
  unfold naClCopyInstruction at ok ⊢
  dsimp only at ok ⊢
  generalize same_eq : (fun i => s.mem (dst + i) == src i) = same at ok ⊢
  have agree : ∀ i, same i = true → s.mem (dst + i) = src i := fun i true_at => by
    rw [← same_eq] at true_at
    exact beq_iff_eq.mp true_at
  obtain ⟨within, before, differs⟩ := scrollToChanged_spec same 0 size
  simp only [Nat.zero_add] at before differs
  generalize scrollToChanged same 0 size = first at ok within before differs ⊢
  split at ok
  · next identical =>
    subst identical
    rw [if_pos rfl]
    funext a
    rw [memcpy]
    split
    · next inside =>
      rw [← agree _ (before (a - dst) (by omega)), Nat.add_sub_cancel' inside.1]
    · rfl
  next more =>
  rw [if_neg more]
  obtain ⟨fits, behind, positive⟩ := trimEnd_spec same first (size - first)
  have nonempty := positive (by omega) (differs (by omega))
  generalize trimEnd same first (size - first) = changed at ok fits behind nonempty ⊢
  have trim : memcpy (dst + first) (fun i => src (first + i)) changed s.mem = memcpy dst src size s.mem := by
    refine memcpy_trim (by omega) (fun i less => agree i (before i less)) fun i past less => ?_
    have there : first + (i - first) = i := by omega
    rw [← there]
    exact agree _ (behind (i - first) (by omega) (by omega))
  rw [← trim]
  split at ok
  · next one =>
    subst one
    rw [if_pos rfl]
    dsimp only
    funext a
    by_cases here : a = dst + first
    · rw [here, Function.update_self, memcpy, if_pos (by omega), Nat.sub_self]
    · rw [Function.update_of_ne here, memcpy, if_neg (by omega)]
  next several =>
  rw [if_neg several]
  cases word : isTrustedWrite (dst + first) changed 4 with
  | some offset =>
    obtain ⟨rfl, aligned⟩ := isTrustedWrite_some (by decide) word
    exact onestoreMemmove_eq (by decide) nonempty aligned
  | none =>
    cases double : isTrustedWrite (dst + first) changed 8 with
    | some offset =>
      obtain ⟨rfl, aligned⟩ := isTrustedWrite_some (by decide) double
      exact onestoreMemmove_eq (by decide) nonempty aligned
    | none =>
      simp only [word, double] at ok
      exact copySlowly_eq (Nat.le_add_right ..) nonempty ok

/-- A copy that succeeds writes the instruction and nothing else. -/
theorem naClCopyInstruction_copies (serialize : Nat → Bool) (base : Nat) :
    CopyInstructionFunc.Copies (fun s dst => naClCopyInstruction serialize s (base + dst)) base
      CopyState.mem := by
  intro s dst src size ok a
  dsimp only at ok ⊢
  rw [naClCopyInstruction_eq ok]
  rfl

/-- No copy fails while all processors can be serialized. -/
theorem naClCopyInstruction_total (always : ∀ n, serialize n = true) (s : CopyState) (dst : Nat)
    (src : Bytes) (size : Nat) : (naClCopyInstruction serialize s dst src size).1 = true := by
  unfold naClCopyInstruction copySlowly
  simp only [always, Bool.true_eq_false, if_false]
  split
  · rfl
  · split
    · rfl
    · split
      · rfl
      · split <;> rfl

end SandboxTEE.DynamicText
