import Mathlib.Data.List.Basic
import Mathlib.Tactic.Ring

/-! # Little-endian numbers

A number written in `k` bytes, the lowest one first, and what can be read back from bytes that
start with one.
-/

namespace SandboxTEE.Lib

def leBytes : Nat → Nat → List (BitVec 8)
  | 0, _ => []
  | k + 1, n => BitVec.ofNat 8 n :: leBytes k (n / 256)

@[simp] theorem length_leBytes (k n : Nat) : (leBytes k n).length = k := by
  induction k generalizing n with
  | zero => rfl
  | succ k ih => rw [leBytes, List.length_cons, ih]

variable {n m k : Nat}

theorem leBytes_inj (hn : n < 256 ^ k) (hm : m < 256 ^ k) (same : leBytes k n = leBytes k m) :
    n = m := by
  induction k generalizing n m with
  | zero => omega
  | succ k ih =>
    obtain ⟨low, high⟩ := List.cons.inj same
    have low := congrArg BitVec.toNat low
    rw [BitVec.toNat_ofNat, BitVec.toNat_ofNat] at low
    rw [Nat.pow_succ] at hn hm
    have := ih (Nat.div_lt_of_lt_mul (by rwa [Nat.mul_comm])) (Nat.div_lt_of_lt_mul (by
      rwa [Nat.mul_comm])) high
    omega

variable {rest rest' : List (BitVec 8)}

theorem leBytes_append_inj (hn : n < 256 ^ k) (hm : m < 256 ^ k)
    (same : leBytes k n ++ rest = leBytes k m ++ rest') : n = m ∧ rest = rest' := by
  obtain ⟨front, behind⟩ := List.append_inj same (by simp)
  exact ⟨leBytes_inj hn hm front, behind⟩

/-- The bytes of a 64-bit number. -/
def leBytes64 (x : BitVec 64) : List (BitVec 8) := leBytes 8 x.toNat

@[simp] theorem length_leBytes64 (x : BitVec 64) : (leBytes64 x).length = 8 := length_leBytes ..

variable {x y : BitVec 64}

theorem leBytes64_append_inj (same : leBytes64 x ++ rest = leBytes64 y ++ rest') :
    x = y ∧ rest = rest' := by
  obtain ⟨number, behind⟩ := leBytes_append_inj x.isLt y.isLt same
  exact ⟨BitVec.eq_of_toNat_eq number, behind⟩

theorem leBytes64_inj (same : leBytes64 x = leBytes64 y) : x = y :=
  BitVec.eq_of_toNat_eq (leBytes_inj x.isLt y.isLt same)

/-! ## Reading back -/

/-- The number that bytes stand for. -/
def leValue : List (BitVec 8) → Nat
  | [] => 0
  | b :: bs => b.toNat + 256 * leValue bs

theorem leValue_leBytes (k n : Nat) : leValue (leBytes k n) = n % 256 ^ k := by
  induction k generalizing n with
  | zero => rw [Nat.pow_zero, Nat.mod_one, leBytes, leValue]
  | succ k ih =>
    rw [leBytes, leValue, ih, BitVec.toNat_ofNat, show 256 ^ (k + 1) = 256 * 256 ^ k from Nat.pow_succ',
      Nat.mod_mul]

/-- A word of `n` bytes. -/
abbrev Word (n : Nat) := BitVec (8 * n)

/-- Its bytes in memory. -/
def Word.bytes {n : Nat} (v : Word n) : List (BitVec 8) := leBytes n v.toNat

def Word.ofBytes (n : Nat) (bytes : List (BitVec 8)) : Word n := BitVec.ofNat (8 * n) (leValue bytes)

@[simp] theorem Word.length_bytes (v : Word n) : v.bytes.length = n := length_leBytes ..

@[simp] theorem Word.ofBytes_bytes (v : Word n) : Word.ofBytes n v.bytes = v := by
  have bound : v.toNat < 256 ^ n := by
    have := v.isLt
    rwa [Nat.pow_mul] at this
  rw [Word.ofBytes, Word.bytes, leValue_leBytes, Nat.mod_eq_of_lt bound, BitVec.ofNat_toNat,
    BitVec.setWidth_eq]

theorem leBytes_leValue (bs : List (BitVec 8)) : leBytes bs.length (leValue bs) = bs := by
  induction bs with
  | nil => rfl
  | cons b bs ih =>
    have low : BitVec.ofNat 8 (b.toNat + 256 * leValue bs) = b := by
      apply BitVec.eq_of_toNat_eq
      rw [BitVec.toNat_ofNat, Nat.add_mul_mod_self_left, Nat.mod_eq_of_lt b.isLt]
    have high : (b.toNat + 256 * leValue bs) / 256 = leValue bs := by
      rw [Nat.add_mul_div_left _ _ (by decide), Nat.div_eq_of_lt b.isLt, Nat.zero_add]
    rw [List.length_cons, leValue, leBytes, low, high, ih]

theorem leBytes_mod (k n : Nat) : leBytes k (n % 256 ^ k) = leBytes k n := by
  have same := leBytes_leValue (leBytes k n)
  rwa [length_leBytes, leValue_leBytes] at same

theorem Word.bytes_ofBytes {bs : List (BitVec 8)} (length : bs.length = n) :
    (Word.ofBytes n bs).bytes = bs := by
  rw [Word.bytes, Word.ofBytes, BitVec.toNat_ofNat, Nat.pow_mul, leBytes_mod, ← length,
    leBytes_leValue]

end SandboxTEE.Lib
