import Mathlib.Tactic.Ring

/-! # Numbers in two parts

A number is kept as `hi * base + lo` with `0 ≤ lo < base`, as a time is in seconds and a fraction of
a second: the difference with a borrow, the two parts of a number, and what it is to be rounded to
a unit.
-/

namespace SandboxTEE.Lib

structure TwoPart where
  hi : Int
  lo : Int

namespace TwoPart

variable {base : Int}

def value (base : Int) (t : TwoPart) : Int := t.hi * base + t.lo

def Normal (base : Int) (t : TwoPart) : Prop := 0 ≤ t.lo ∧ t.lo < base

/-- The parts of a number. -/
def split (base v : Int) : TwoPart := ⟨v / base, v % base⟩

/-- The difference, with one `hi` borrowed where the low parts do not suffice. -/
def sub (base : Int) (a b : TwoPart) : TwoPart :=
  if a.lo - b.lo < 0 then ⟨a.hi - b.hi - 1, a.lo - b.lo + base⟩ else ⟨a.hi - b.hi, a.lo - b.lo⟩

theorem Normal.eq_split {t : TwoPart} (normal : t.Normal base) : t = split base (t.value base) := by
  have pos : 0 < base := lt_of_le_of_lt normal.1 normal.2
  have high : t.value base / base = t.hi := by
    rw [value, add_comm, Int.add_mul_ediv_right _ _ pos.ne',
      Int.ediv_eq_zero_of_lt normal.1 normal.2, zero_add]
  have low : t.value base % base = t.lo := by
    rw [value, add_comm, Int.add_mul_emod_self_right, Int.emod_eq_of_lt normal.1 normal.2]
  rw [split, high, low]

theorem value_sub (a b : TwoPart) : (sub base a b).value base = a.value base - b.value base := by
  unfold sub value
  split
  · ring
  · ring

theorem Normal.sub {a b : TwoPart} (ha : a.Normal base) (hb : b.Normal base) :
    (sub base a b).Normal base := by
  obtain ⟨a₁, a₂⟩ := ha
  obtain ⟨b₁, b₂⟩ := hb
  unfold TwoPart.sub
  split
  · exact ⟨by simp only; omega, by simp only; omega⟩
  · exact ⟨by simp only; omega, by simp only; omega⟩

/-- A normal number has the sign of its high part. -/
theorem Normal.hi_nonneg_iff {t : TwoPart} (normal : t.Normal base) :
    0 ≤ t.hi ↔ 0 ≤ t.value base := by
  have pos : 0 < base := lt_of_le_of_lt normal.1 normal.2
  have high : t.hi = t.value base / base := congrArg TwoPart.hi normal.eq_split
  rw [high]
  exact Int.ediv_nonneg_iff_of_pos pos

end TwoPart

/-- `y` is `x`, up or down to a multiple of the unit. -/
def RoundedTo (unit x y : Int) : Prop := unit ∣ y ∧ x - unit < y ∧ y < x + unit

end SandboxTEE.Lib
