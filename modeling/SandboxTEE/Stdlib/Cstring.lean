import Mathlib.Data.List.Basic

/-! # C strings of the enclave's stdlib

A buffer is a list of bytes, memory a function from addresses to bytes.  The string a
buffer holds is what stands before its first NUL.
-/

namespace SandboxTEE.Stdlib

abbrev Byte := UInt8

abbrev Memory := Nat → Byte

/-- The string a buffer holds. -/
def cstr (buf : List Byte) : List Byte := buf.takeWhile fun b => b ≠ 0

def strlen (buf : List Byte) : Nat := (cstr buf).length

/-- `strncpy(dst, src, n)`: the first `n` bytes, padded with NULs behind the first NUL. -/
def strncpy (mem : Memory) : Nat → Nat → List Byte
  | _, 0 => []
  | src, n + 1 =>
    if mem src = 0 then List.replicate (n + 1) 0 else mem src :: strncpy mem (src + 1) n

/-- The NUL-terminated string `s` stands at address `a`. -/
def HoldsString (mem : Memory) : Nat → List Byte → Prop
  | a, [] => mem a = 0
  | a, b :: s => b ≠ 0 ∧ mem a = b ∧ HoldsString mem (a + 1) s

theorem HoldsString.not_mem {mem : Memory} : ∀ {a : Nat} {s : List Byte},
    HoldsString mem a s → (0 : Byte) ∉ s
  | _, [], _ => List.not_mem_nil
  | _, b :: s, h => fun mem => by
    rcases List.mem_cons.mp mem with zero | mem
    · exact h.1 zero.symm
    · exact h.2.2.not_mem mem

theorem cstr_append {s rest : List Byte} (h : (0 : Byte) ∉ s) : cstr (s ++ 0 :: rest) = s := by
  induction s with
  | nil => simp [cstr]
  | cons b s ih =>
    have nonzero : b ≠ 0 := fun zero => h (zero ▸ List.mem_cons_self)
    have ih := ih fun mem => h (List.mem_cons_of_mem b mem)
    rw [cstr] at ih ⊢
    rw [List.cons_append, List.takeWhile_cons_of_pos (by simpa using nonzero), ih]

/-- A string that fits is copied whole and padded. -/
theorem strncpy_fits {mem : Memory} : ∀ {src n : Nat} {s : List Byte}, HoldsString mem src s →
    s.length < n → strncpy mem src n = s ++ List.replicate (n - s.length) 0
  | _, 0, _, _, h => absurd h (Nat.not_lt_zero _)
  | src, n + 1, [], holds, _ => by
    rw [strncpy, if_pos (show mem src = 0 from holds)]
    rfl
  | src, n + 1, b :: s, holds, h => by
    have nonzero : ¬ mem src = 0 := by
      rw [holds.2.1]
      exact holds.1
    rw [strncpy, if_neg nonzero, holds.2.1, strncpy_fits holds.2.2 (Nat.lt_of_succ_lt_succ h),
      List.cons_append, List.length_cons, Nat.succ_sub_succ]

/-- A string that does not fit fills the buffer with bytes other than NUL. -/
theorem strncpy_long {mem : Memory} : ∀ {src n : Nat} {s : List Byte}, HoldsString mem src s →
    n ≤ s.length → strncpy mem src n = s.take n
  | _, 0, _, _, _ => by rw [strncpy, List.take_zero]
  | _, n + 1, [], _, h => absurd h (by simp)
  | src, n + 1, b :: s, holds, h => by
    have nonzero : ¬ mem src = 0 := by
      rw [holds.2.1]
      exact holds.1
    rw [strncpy, if_neg nonzero, holds.2.1, strncpy_long holds.2.2 (Nat.le_of_succ_le_succ h),
      List.take_succ_cons]

end SandboxTEE.Stdlib
