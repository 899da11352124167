import Mathlib.Algebra.Group.Nat.Defs

/-! # Low bits

The last `k` bits of a word are kept by every conversion to a width that still has them, and add
and multiply by themselves; a word is a multiple of `2 ^ k` when they are zero.
-/

namespace SandboxTEE.Lib

variable {k w v : Nat} {a b : BitVec w}

/-- A multiple of `2 ^ k`. -/
def AlignedTo (k : Nat) (a : BitVec w) : Prop := a.setWidth k = 0#k

instance (k : Nat) (a : BitVec w) : Decidable (AlignedTo k a) :=
  inferInstanceAs (Decidable (_ = _))

theorem alignedTo_iff : AlignedTo k a ↔ 2 ^ k ∣ a.toNat := by
  unfold AlignedTo
  rw [← BitVec.toNat_inj, BitVec.toNat_setWidth]
  exact (Nat.dvd_iff_mod_eq_zero).symm

theorem toNat_and_not (a mask : BitVec w) :
    (a &&& ~~~mask).toNat + (a &&& mask).toNat = a.toNat := by
  have apart : (a &&& ~~~mask) &&& (a &&& mask) = 0#w := by
    ext i within
    simp only [BitVec.getElem_and, BitVec.getElem_not, BitVec.getElem_zero]
    cases a[i] <;> cases mask[i] <;> rfl
  rw [← BitVec.toNat_add_of_and_eq_zero apart, BitVec.add_eq_or_of_and_eq_zero _ _ apart]
  congr 1
  ext i within
  simp only [BitVec.getElem_or, BitVec.getElem_and, BitVec.getElem_not]
  cases a[i] <;> cases mask[i] <;> rfl

namespace AlignedTo

theorem add (fits : k ≤ w) (left : AlignedTo k a) (right : AlignedTo k b) :
    AlignedTo k (a + b) := by
  unfold AlignedTo at *
  rw [BitVec.setWidth_add a b fits, left, right, BitVec.add_zero]

theorem add_left_iff (fits : k ≤ w) (left : AlignedTo k a) :
    AlignedTo k (a + b) ↔ AlignedTo k b := by
  unfold AlignedTo at *
  rw [BitVec.setWidth_add a b fits, left, BitVec.zero_add]

theorem mul_left (fits : k ≤ w) (left : AlignedTo k a) : AlignedTo k (a * b) := by
  unfold AlignedTo at *
  rw [BitVec.setWidth_mul a b fits, left, BitVec.zero_mul]

theorem setWidth_iff (fits : k ≤ v) : AlignedTo k (a.setWidth v) ↔ AlignedTo k a := by
  unfold AlignedTo
  rw [BitVec.setWidth_setWidth_of_le a fits]

theorem signExtend_iff (fits : k ≤ w) (wider : w ≤ v) :
    AlignedTo k (a.signExtend v) ↔ AlignedTo k a := by
  have same : (a.signExtend v).setWidth k = a.setWidth k := by
    apply BitVec.eq_of_getLsbD_eq
    intro i small
    rw [BitVec.getLsbD_setWidth, BitVec.getLsbD_setWidth, BitVec.getLsbD_signExtend,
      if_pos (Nat.lt_of_lt_of_le small fits), decide_eq_true (Nat.lt_of_lt_of_le small (Nat.le_trans fits wider)),
      Bool.true_and]
  unfold AlignedTo
  rw [same]

end AlignedTo

/-! ## Rounding up -/

/-- What is missing to the next multiple of `2 ^ k`. -/
def padding (k n : Nat) : Nat := (2 ^ k - n % 2 ^ k) % 2 ^ k

theorem padding_lt (k n : Nat) : padding k n < 2 ^ k := Nat.mod_lt _ (Nat.two_pow_pos k)

theorem dvd_add_padding (k n : Nat) : 2 ^ k ∣ n + padding k n := by
  have below := Nat.mod_lt n (Nat.two_pow_pos k)
  have split := Nat.div_add_mod n (2 ^ k)
  rcases Nat.eq_zero_or_pos (n % 2 ^ k) with multiple | rest
  · rw [padding, multiple, Nat.sub_zero, Nat.mod_self, Nat.add_zero]
    exact Nat.dvd_of_mod_eq_zero multiple
  · rw [padding, Nat.mod_eq_of_lt (by omega)]
    refine ⟨n / 2 ^ k + 1, ?_⟩
    rw [Nat.mul_add, Nat.mul_one]
    omega

theorem add_padding_le {k n m : Nat} (multiple : 2 ^ k ∣ m) (above : n ≤ m) :
    n + padding k n ≤ m := by
  have := padding_lt k n
  have apart := (Nat.dvd_sub (dvd_add_padding k n) multiple)
  apply Nat.not_lt.mp
  intro below
  have := Nat.le_of_dvd (by omega) apart
  omega

/-- `-(2 ^ k)` clears the low bits. -/
theorem toNat_and_neg_twoPow (fits : k < w) (a : BitVec w) :
    (a &&& -BitVec.twoPow w k).toNat + a.toNat % 2 ^ k = a.toNat := by
  have mask : -BitVec.twoPow w k = ~~~(BitVec.twoPow w k - 1#w) := by
    rw [BitVec.not_sub_one_eq_not_add_one, BitVec.neg_eq_not_add]
  have low : (BitVec.twoPow w k - 1#w).toNat = 2 ^ k - 1 := by
    have := Nat.two_pow_pos k
    have := Nat.pow_lt_pow_right (by decide : 1 < 2) fits
    have one : 1 % 2 ^ w = 1 := Nat.mod_eq_of_lt (by omega)
    rw [BitVec.toNat_sub_of_le, BitVec.toNat_twoPow_of_lt fits, BitVec.toNat_ofNat, one]
    rw [BitVec.le_def, BitVec.toNat_twoPow_of_lt fits, BitVec.toNat_ofNat, one]
    omega
  have split := toNat_and_not a (BitVec.twoPow w k - 1#w)
  rwa [← mask, BitVec.toNat_and a (BitVec.twoPow w k - 1#w), low,
    Nat.and_two_pow_sub_one_eq_mod] at split

/-- `(a + 2 ^ k - 1) & -(2 ^ k)` -/
theorem toNat_roundUp (fits : k < w) (a : BitVec w) :
    ((a + BitVec.twoPow w k - 1#w) &&& -BitVec.twoPow w k).toNat =
      (a.toNat + padding k a.toNat) % 2 ^ w := by
  have positive := Nat.two_pow_pos k
  have power := Nat.pow_lt_pow_right (by decide : 1 < 2) fits
  have sum : (a + BitVec.twoPow w k - 1#w).toNat = (a.toNat + (2 ^ k - 1)) % 2 ^ w := by
    have one : 1 % 2 ^ w = 1 := Nat.mod_eq_of_lt (by omega)
    rw [BitVec.toNat_sub, BitVec.toNat_add, BitVec.toNat_twoPow_of_lt fits, BitVec.toNat_ofNat, one,
      Nat.add_mod_mod, ← Nat.add_mod_right (a.toNat + (2 ^ k - 1))]
    congr 1
    omega
  have cleared := toNat_and_neg_twoPow fits (a + BitVec.twoPow w k - 1#w)
  have small := a.isLt
  have rest := padding_lt k a.toNat
  rw [sum] at cleared
  rcases Nat.lt_or_ge (a.toNat + (2 ^ k - 1)) (2 ^ w) with inside | wraps
  · obtain ⟨q, multiple⟩ := dvd_add_padding k a.toNat
    have low : (a.toNat + (2 ^ k - 1)) % 2 ^ k = 2 ^ k - 1 - padding k a.toNat := by
      have : a.toNat + (2 ^ k - 1) = 2 ^ k - 1 - padding k a.toNat + 2 ^ k * q := by omega
      rw [this, Nat.add_mul_mod_self_left, Nat.mod_eq_of_lt (by omega)]
    rw [Nat.mod_eq_of_lt inside, low] at cleared
    rw [Nat.mod_eq_of_lt (by omega)]
    omega
  · -- the next multiple is `2 ^ w`
    have next : a.toNat + padding k a.toNat = 2 ^ w := by
      have whole : 2 ^ k ∣ 2 ^ w := Nat.pow_dvd_pow 2 (Nat.le_of_lt fits)
      apply Nat.le_antisymm (add_padding_le whole (Nat.le_of_lt small))
      apply Nat.not_lt.mp
      intro below
      have := Nat.le_of_dvd (by omega) (Nat.dvd_sub whole (dvd_add_padding k a.toNat))
      omega
    have wrapped : (a.toNat + (2 ^ k - 1)) % 2 ^ w = a.toNat + (2 ^ k - 1) - 2 ^ w := by
      rw [Nat.mod_eq_sub_mod wraps, Nat.mod_eq_of_lt (by omega)]
    have low : (a.toNat + (2 ^ k - 1) - 2 ^ w) % 2 ^ k = a.toNat + (2 ^ k - 1) - 2 ^ w :=
      Nat.mod_eq_of_lt (by omega)
    rw [wrapped, low] at cleared
    rw [next, Nat.mod_self]
    omega

end SandboxTEE.Lib
