import Mathlib.Algebra.Group.Int.Defs
import Mathlib.Algebra.GroupWithZero.Nat
import Mathlib.Data.List.Basic

/-! # Word-packed bitmaps (`bitmap.h`)

A bitmap is an array of 64-bit words (`NACL_HOST_WORDSIZE` is 64).  Each operation is
the masking of the source; beside it stands what it does to single bits.  A word
outside the array reads as zero and cannot be written.
-/

namespace SandboxTEE.Validator

def naclHostWordsize : Nat := 64

abbrev BitmapWord := BitVec 64

abbrev Bitmap := List BitmapWord

/-- `bitmap[i]`. -/
def Bitmap.word (bitmap : Bitmap) (i : Nat) : BitmapWord := bitmap.getD i 0

/-- `calloc` of enough words for `indexes` bits. -/
def bitmapAllocate (indexes : Nat) : Bitmap :=
  List.replicate ((indexes + naclHostWordsize - 1) / naclHostWordsize) 0

def bitmapIsBitSet (bitmap : Bitmap) (index : Nat) : Bool :=
  (bitmap.word (index / naclHostWordsize) &&& (1#64 <<< (index % naclHostWordsize))) != 0

def bitmapSetBit (bitmap : Bitmap) (index : Nat) : Bitmap :=
  bitmap.modify (index / naclHostWordsize) fun w => w ||| (1#64 <<< (index % naclHostWordsize))

def bitmapClearBit (bitmap : Bitmap) (index : Nat) : Bitmap :=
  bitmap.modify (index / naclHostWordsize) fun w => w &&& ~~~(1#64 <<< (index % naclHostWordsize))

/-- All the bits must be in a single word. -/
def bitmapClearBits (bitmap : Bitmap) (index bits : Nat) : Bitmap :=
  bitmap.modify (index / naclHostWordsize) fun w =>
    w &&& ~~~(((1#64 <<< bits) - 1) <<< (index % naclHostWordsize))

/-! ## Single bits -/

theorem one_shiftLeft_getLsbD (i j : Nat) (hi : i < 64) :
    (1#64 <<< i).getLsbD j = decide (j = i) := by
  rw [BitVec.getLsbD_shiftLeft, BitVec.getLsbD_one]
  by_cases h : j = i
  · subst h
    simp [hi]
  · rcases Nat.lt_or_ge j i with lt | ge
    · simp [h, lt]
    · have : j - i ≠ 0 := by omega
      simp [h, this]

variable {bits : Nat}

/-- The mask `(1 << bits) - 1` has its low `bits` bits set. -/
theorem lowMask_getLsbD (j : Nat) (hbits : bits < 64) :
    ((1#64 <<< bits) - 1).getLsbD j = decide (j < bits) := by
  have mask : (1#64 <<< bits) - 1 = BitVec.ofNat 64 (2 ^ bits - 1) := by
    have lt : 2 ^ bits < 2 ^ 64 := Nat.pow_lt_pow_right (by decide) hbits
    have pos : 0 < 2 ^ bits := Nat.two_pow_pos bits
    apply BitVec.eq_of_toNat_eq
    rw [BitVec.toNat_sub, BitVec.toNat_shiftLeft, BitVec.toNat_ofNat]
    simp only [BitVec.ofNat_eq_ofNat, BitVec.toNat_ofNat, Nat.one_mod, Nat.shiftLeft_eq]
    omega
  rw [mask, BitVec.getLsbD_ofNat, Nat.testBit_two_pow_sub_one]
  by_cases h : j < bits
  · simp [h, show j < 64 by omega]
  · simp [h]

theorem bitmapIsBitSet_eq (bitmap : Bitmap) (index : Nat) :
    bitmapIsBitSet bitmap index = (bitmap.word (index / 64)).getLsbD (index % 64) := by
  have hlt : index % 64 < 64 := Nat.mod_lt _ (by decide)
  rw [bitmapIsBitSet, naclHostWordsize]
  generalize bitmap.word (index / 64) = w
  cases hbit : w.getLsbD (index % 64) with
  | true =>
    have nonzero : w &&& (1#64 <<< (index % 64)) ≠ 0 := by
      intro zero
      have := congrArg (fun v : BitVec 64 => v.getLsbD (index % 64)) zero
      simp only [BitVec.getLsbD_and, hbit, one_shiftLeft_getLsbD _ _ hlt] at this
      simp at this
    simpa using nonzero
  | false =>
    have zero : w &&& (1#64 <<< (index % 64)) = 0 := by
      apply BitVec.eq_of_getLsbD_eq
      intro i _
      rw [BitVec.getLsbD_and, one_shiftLeft_getLsbD _ _ hlt]
      by_cases h : i = index % 64
      · subst h
        simp [hbit]
      · simp [h]
    simp [zero]

@[simp] theorem bitmapAllocate_isBitSet (indexes index : Nat) :
    bitmapIsBitSet (bitmapAllocate indexes) index = false := by
  have zero : (bitmapAllocate indexes).word (index / 64) = 0 := by
    rw [Bitmap.word, bitmapAllocate, List.getD_eq_getElem?_getD, List.getElem?_replicate]
    split <;> rfl
  rw [bitmapIsBitSet_eq, zero]
  simp

theorem modify_word (bitmap : Bitmap) (f : BitmapWord → BitmapWord) (i j : Nat) :
    Bitmap.word (bitmap.modify i f) j =
      if i = j ∧ j < bitmap.length then f (bitmap.word j) else bitmap.word j := by
  simp only [Bitmap.word, List.getD_eq_getElem?_getD, List.getElem?_modify]
  by_cases hij : i = j
  · subst hij
    rcases Nat.lt_or_ge i bitmap.length with lt | ge
    · simp [lt]
    · simp [Nat.not_lt.mpr ge]
  · simp [hij]

variable {index : Nat} {bitmap : Bitmap}

/-- Setting bit `index` of an array that holds it sets that bit only. -/
theorem bitmapSetBit_isBitSet (inside : index / 64 < bitmap.length) (k : Nat) :
    bitmapIsBitSet (bitmapSetBit bitmap index) k = (bitmapIsBitSet bitmap k || decide (k = index)) := by
  rw [bitmapIsBitSet_eq, bitmapIsBitSet_eq]
  simp only [bitmapSetBit, naclHostWordsize, modify_word]
  have hlt : index % 64 < 64 := Nat.mod_lt _ (by decide)
  by_cases hword : index / 64 = k / 64
  · rw [if_pos ⟨hword, hword ▸ inside⟩, BitVec.getLsbD_or, one_shiftLeft_getLsbD _ _ hlt]
    congr 1
    by_cases h : k = index
    · simp [h]
    · have : k % 64 ≠ index % 64 := by omega
      simp [h, this]
  · rw [if_neg (fun h => hword h.1)]
    have : k ≠ index := fun h => hword (by rw [h])
    simp [this]

/-- Setting a bit sets no other bit, whatever the array holds. -/
theorem bitmapSetBit_isBitSet_imp {k : Nat}
    (h : bitmapIsBitSet (bitmapSetBit bitmap index) k = true) :
    bitmapIsBitSet bitmap k = true ∨ k = index := by
  rcases Nat.lt_or_ge (index / 64) bitmap.length with inside | outside
  · rw [bitmapSetBit_isBitSet inside] at h
    simpa using h
  · rw [bitmapSetBit, List.modify_eq_self (by simpa [naclHostWordsize] using outside)] at h
    exact Or.inl h

/-- Clearing `bits` bits from `index`, all in one word, clears exactly these bits. -/
theorem bitmapClearBits_isBitSet (bitmap : Bitmap) (hbits : bits < 64)
    (oneWord : index % 64 + bits ≤ 64) (k : Nat) :
    bitmapIsBitSet (bitmapClearBits bitmap index bits) k =
      (bitmapIsBitSet bitmap k && !decide (index ≤ k ∧ k < index + bits)) := by
  rw [bitmapIsBitSet_eq, bitmapIsBitSet_eq]
  simp only [bitmapClearBits, naclHostWordsize, modify_word]
  have hk : k % 64 < 64 := Nat.mod_lt _ (by decide)
  by_cases hword : index / 64 = k / 64
  · rcases Nat.lt_or_ge (k / 64) bitmap.length with inside | outside
    · rw [if_pos ⟨hword, inside⟩, BitVec.getLsbD_and, BitVec.getLsbD_not,
        BitVec.getLsbD_shiftLeft, lowMask_getLsbD _ hbits]
      congr 1
      by_cases h : index ≤ k ∧ k < index + bits
      · have h₁ : ¬ k % 64 < index % 64 := by omega
        have h₂ : k % 64 - index % 64 < bits := by omega
        simp [h, h₁, h₂, hk]
      · by_cases h₁ : k % 64 < index % 64
        · simp [h, h₁, hk]
        · have h₂ : ¬ k % 64 - index % 64 < bits := by omega
          simp [h, h₂, hk]
    · rw [if_neg (fun h => absurd h.2 (Nat.not_lt.mpr outside)), Bitmap.word,
        List.getD_eq_getElem?_getD, List.getElem?_eq_none outside]
      simp
  · rw [if_neg (fun h => hword h.1)]
    have : ¬ (index ≤ k ∧ k < index + bits) := by omega
    simp [this]

theorem bitmapClearBit_eq (bitmap : Bitmap) (index : Nat) :
    bitmapClearBit bitmap index = bitmapClearBits bitmap index 1 := rfl

theorem bitmapClearBit_isBitSet (bitmap : Bitmap) (index k : Nat) :
    bitmapIsBitSet (bitmapClearBit bitmap index) k =
      (bitmapIsBitSet bitmap k && !decide (k = index)) := by
  rw [bitmapClearBit_eq, bitmapClearBits_isBitSet _ (by decide) (by omega)]
  congr 2
  exact decide_eq_decide.mpr (by omega)

@[simp] theorem length_bitmapSetBit (bitmap : Bitmap) (index : Nat) :
    (bitmapSetBit bitmap index).length = bitmap.length := List.length_modify ..

end SandboxTEE.Validator
