import Mathlib.Data.Option.Basic

/-! # Lock words

A word that is zero while nobody holds it.  Who writes over a zero holds it from then on, and a zero
gives it up; a write over another value than zero changes nothing about the holder.
-/

namespace SandboxTEE.Lib

structure LockWord (ι : Type) where
  value : BitVec 32
  holder : Option ι
  free_iff : value = 0 ↔ holder = none

namespace LockWord

variable {ι : Type} {w : LockWord ι} {t : ι} {v : BitVec 32}

def free : LockWord ι where
  value := 0
  holder := none
  free_iff := Iff.intro (fun _ => rfl) (fun _ => rfl)

/-- The holder when `t` has written `v`. -/
def holderAfter (w : LockWord ι) (t : ι) (v : BitVec 32) : Option ι :=
  if v = 0 then none else if w.value = 0 then some t else w.holder

theorem holderAfter_eq_none : v = 0 ↔ w.holderAfter t v = none := by
  unfold holderAfter
  split
  · next zero => exact iff_of_true zero rfl
  · next used =>
    refine iff_of_false used ?_
    split
    · exact Option.some_ne_none t
    · next taken => exact fun none => taken (w.free_iff.mpr none)

def store (w : LockWord ι) (t : ι) (v : BitVec 32) : LockWord ι where
  value := v
  holder := w.holderAfter t v
  free_iff := holderAfter_eq_none

/-- Compare with `old` and exchange for `v`. -/
def cmpxchg (w : LockWord ι) (t : ι) (old v : BitVec 32) : LockWord ι :=
  if w.value = old then w.store t v else w

theorem holder_store_zero : (w.store t 0).holder = none := rfl

theorem holder_store_free (free : w.value = 0) (used : v ≠ 0) : (w.store t v).holder = some t :=
  (if_neg used).trans (if_pos free)

theorem holder_store_taken (taken : w.value ≠ 0) (used : v ≠ 0) : (w.store t v).holder = w.holder :=
  (if_neg used).trans (if_neg taken)

theorem holder_cmpxchg {old : BitVec 32} (taken : old ≠ 0) (used : v ≠ 0) :
    (w.cmpxchg t old v).holder = w.holder := by
  unfold cmpxchg
  split
  · next same =>
    apply holder_store_taken _ used
    rwa [same]
  · rfl

theorem value_ne_zero (holds : w.holder = some t) : w.value ≠ 0 := fun zero => by
  rw [w.free_iff.mp zero] at holds
  cases holds

theorem exists_holder (taken : w.value ≠ 0) : ∃ t, w.holder = some t :=
  Option.ne_none_iff_exists'.mp fun none => taken (w.free_iff.mpr none)

/-! ## What one access does to the holder -/

/-- An access of `t`, after which `t` holds the word or does not, as `after` says, and which nobody
    else takes the word by, or loses it. -/
structure Move (w w' : LockWord ι) (t : ι) (after : Bool) : Prop where
  self : w'.holder = some t ↔ after = true
  other : ∀ u, u ≠ t → (w'.holder = some u ↔ w.holder = some u)

namespace Move

variable {w' : LockWord ι} {b : Bool}

theorem stay (here : w.holder = some t ↔ b = true) : Move w w t b where
  self := here
  other := fun _ _ => Iff.rfl

theorem take (free : w.value = 0) (used : v ≠ 0) : Move w (w.store t v) t true where
  self := by
    rw [holder_store_free free used]
    simp
  other := fun u ne => by
    rw [holder_store_free free used, w.free_iff.mp free]
    simp [ne.symm]

theorem contend (taken : w.value ≠ 0) (used : v ≠ 0) (here : w.holder = some t ↔ b = true) :
    Move w (w.store t v) t b where
  self := by rwa [holder_store_taken taken used]
  other := fun u _ => by rw [holder_store_taken taken used]

theorem cmpxchg {old : BitVec 32} (taken : old ≠ 0) (used : v ≠ 0)
    (here : w.holder = some t ↔ b = true) : Move w (w.cmpxchg t old v) t b := by
  unfold LockWord.cmpxchg
  split
  · next same =>
    apply contend _ used here
    rwa [same]
  · exact stay here

theorem release (holds : w.holder = some t) : Move w (w.store t 0) t false where
  self := by
    rw [holder_store_zero]
    simp
  other := fun u ne => by
    rw [holder_store_zero, holds]
    simp [ne.symm]

/-- Who moves from holding the word to not holding it leaves it free. -/
theorem holder_eq_none (move : Move w w' t false) (holds : w.holder = some t) :
    w'.holder = none := by
  cases holder : w'.holder with
  | none => rfl
  | some u =>
    by_cases same : u = t
    · rw [same] at holder
      cases move.self.mp holder
    · have before := (move.other u same).mp holder
      rw [holds] at before
      exact absurd (Option.some.inj before).symm same

end Move

end LockWord

end SandboxTEE.Lib
