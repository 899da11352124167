import Mathlib.Algebra.Group.Nat.Defs
import SandboxTEE.Lib.Text

/-! # Base64

Each three bytes are a number of 24 bits, which is written as four digits of six bits.  One or
two bytes at the end are filled up with zero bits, and the digits without any bit of theirs are
padding.
-/

namespace SandboxTEE.Lib.Base64

def alphabet : List UInt8 :=
  ascii "ABCDEFGHIJKLMNOPQRSTUVWXYZabcdefghijklmnopqrstuvwxyz0123456789+/"

def digit (sextet : Nat) : UInt8 := alphabet.getD sextet 0

/-- The character `=`. -/
def pad : UInt8 := 61

/-- The number of three bytes. -/
def group (b1 b2 b3 : UInt8) : Nat := b1.toNat * 2 ^ 16 + b2.toNat * 2 ^ 8 + b3.toNat

/-- The digit of weight `2 ^ (6 * place)`. -/
def digitAt (group place : Nat) : UInt8 := digit (group / 2 ^ (6 * place) % 64)

def encode : List UInt8 → List UInt8
  | b1 :: b2 :: b3 :: rest =>
    digitAt (group b1 b2 b3) 3 :: digitAt (group b1 b2 b3) 2 :: digitAt (group b1 b2 b3) 1 ::
      digitAt (group b1 b2 b3) 0 :: encode rest
  | [b1, b2] =>
    [digitAt (group b1 b2 0) 3, digitAt (group b1 b2 0) 2, digitAt (group b1 b2 0) 1, pad]
  | [b1] => [digitAt (group b1 0 0) 3, digitAt (group b1 0 0) 2, pad, pad]
  | [] => []

/-- Four characters for each three bytes, and for the rest. -/
theorem length_encode : ∀ bytes : List UInt8, (encode bytes).length = (bytes.length + 2) / 3 * 4
  | _ :: _ :: _ :: rest => by
    simp only [encode, List.length_cons, length_encode rest]
    omega
  | [_, _] => by simp [encode]
  | [_] => by simp [encode]
  | [] => by simp [encode]

theorem digit_ne_zero {sextet : Nat} (small : sextet < 64) : digit sextet ≠ 0 :=
  (by decide +kernel : ∀ sextet < 64, digit sextet ≠ 0) sextet small

theorem digitAt_ne_zero (group place : Nat) : digitAt group place ≠ 0 :=
  digit_ne_zero (Nat.mod_lt _ (by decide))

theorem encode_ne_zero : ∀ {bytes : List UInt8}, (0 : UInt8) ∉ encode bytes
  | _ :: _ :: _ :: rest, member => by
    simp only [encode, List.mem_cons] at member
    rcases member with zero | zero | zero | zero | member
    · exact digitAt_ne_zero _ _ zero.symm
    · exact digitAt_ne_zero _ _ zero.symm
    · exact digitAt_ne_zero _ _ zero.symm
    · exact digitAt_ne_zero _ _ zero.symm
    · exact encode_ne_zero member
  | [_, _], member => by
    simp only [encode, List.mem_cons, List.not_mem_nil, or_false] at member
    rcases member with zero | zero | zero | zero
    · exact digitAt_ne_zero _ _ zero.symm
    · exact digitAt_ne_zero _ _ zero.symm
    · exact digitAt_ne_zero _ _ zero.symm
    · exact absurd zero (by decide)
  | [_], member => by
    simp only [encode, List.mem_cons, List.not_mem_nil, or_false] at member
    rcases member with zero | zero | zero | zero
    · exact digitAt_ne_zero _ _ zero.symm
    · exact digitAt_ne_zero _ _ zero.symm
    · exact absurd zero (by decide)
    · exact absurd zero (by decide)
  | [], member => List.not_mem_nil member

end SandboxTEE.Lib.Base64
