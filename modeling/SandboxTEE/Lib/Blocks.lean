import Mathlib.Data.List.Basic

/-! # Blocks laid end to end

Blocks of given sizes stand one behind the other.  `locate` finds the block a position falls
into by taking the size of each block off the position, until what is left is less than a block.
-/

namespace SandboxTEE.Lib

variable (size : Nat → Nat)

/-- What `n` blocks from number `first` on take together. -/
def spanOf : Nat → Nat → Nat
  | _, 0 => 0
  | first, n + 1 => size first + spanOf (first + 1) n

/-- The block and the position in it, after at most `blocks` blocks. -/
def locate : Nat → Nat → Nat → Nat × Nat
  | 0, index, left => (index, left)
  | blocks + 1, index, left =>
    if size index ≤ left then locate blocks (index + 1) (left - size index) else (index, left)

theorem spanOf_succ (first n : Nat) :
    spanOf size first (n + 1) = size first + spanOf size (first + 1) n := rfl

variable {size}

theorem spanOf_congr {other : Nat → Nat} : ∀ {n first : Nat},
    (∀ i, first ≤ i → i < first + n → size i = other i) → spanOf size first n = spanOf other first n
  | 0, _, _ => rfl
  | n + 1, first, same => by
    rw [spanOf_succ, spanOf_succ, same first (Nat.le_refl first) (by omega),
      spanOf_congr fun i low high => same i (by omega) (by omega)]

theorem locate_congr {other : Nat → Nat} : ∀ {blocks index left : Nat},
    (∀ i, index ≤ i → i < index + blocks → size i = other i) →
    locate size blocks index left = locate other blocks index left
  | 0, _, _, _ => rfl
  | blocks + 1, index, left, same => by
    rw [locate, locate, same index (Nat.le_refl index) (by omega),
      locate_congr fun i low high => same i (by omega) (by omega)]

/-- A position in front of the end of the blocks falls into one of them, behind all the earlier
    ones. -/
theorem locate_spec : ∀ {blocks index left : Nat}, left < spanOf size index blocks →
    ∃ n < blocks, (locate size blocks index left).1 = index + n ∧
      spanOf size index n + (locate size blocks index left).2 = left ∧
      (locate size blocks index left).2 < size (index + n)
  | 0, _, left, inside => absurd inside (Nat.not_lt_zero left)
  | blocks + 1, index, left, inside => by
    rw [locate]
    by_cases passed : size index ≤ left
    · rw [if_pos passed]
      rw [spanOf_succ] at inside
      obtain ⟨n, bound, block, position, fits⟩ :=
        @locate_spec blocks (index + 1) (left - size index) (by omega)
      refine ⟨n + 1, Nat.succ_lt_succ bound, ?_, ?_, ?_⟩
      · rw [block, Nat.add_assoc, Nat.add_comm 1]
      · rw [spanOf_succ, Nat.add_assoc, position, Nat.add_sub_cancel' passed]
      · rwa [Nat.add_assoc, Nat.add_comm 1] at fits
    · rw [if_neg passed]
      exact ⟨0, Nat.succ_pos blocks, rfl, Nat.zero_add left, Nat.lt_of_not_le passed⟩

end SandboxTEE.Lib
