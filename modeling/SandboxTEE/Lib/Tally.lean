import Mathlib.Algebra.Order.BigOperators.Group.Finset
import Mathlib.Algebra.BigOperators.Group.Finset.Piecewise

/-! # Counting threads by their places

Each of finitely many threads is at a place.  `tally p places` is the number of threads whose place
satisfies `p`; it changes by the place that one thread leaves and the one it comes to
(`tally_update`).  A wake goes to one of the threads that sleep, if there are any (`Wakes`).
-/

namespace SandboxTEE.Lib

variable {ι P : Type} [Fintype ι]

def tally (p : P → Bool) (places : ι → P) : Nat := ∑ t, (p (places t)).toNat

/-- The thread that a wake goes to. -/
def Wakes (asleep : P → Bool) (places : ι → P) : Option ι → Prop
  | some t => asleep (places t) = true
  | none => ∀ t, asleep (places t) = false

instance (asleep : P → Bool) (places : ι → P) : (woken : Option ι) → Decidable (Wakes asleep places woken)
  | some _ => inferInstanceAs (Decidable (_ = _))
  | none => inferInstanceAs (Decidable (∀ _, _))

section

variable {p : P → Bool} {places : ι → P}

theorem toNat_le_tally (t : ι) : (p (places t)).toNat ≤ tally p places := by
  apply Finset.single_le_sum (f := fun t => (p (places t)).toNat)
  · exact fun u _ => Nat.zero_le _
  · exact Finset.mem_univ t

theorem tally_pos {t : ι} (here : p (places t) = true) : 0 < tally p places := by
  have counted := @toNat_le_tally _ _ _ p places t
  rw [here] at counted
  exact counted

theorem tally_eq_zero : tally p places = 0 ↔ ∀ t, p (places t) = false := by
  simp [tally]

variable [DecidableEq ι]

theorem sum_update (f : ι → Nat) (t : ι) (n : Nat) :
    ∑ u, Function.update f t n u + f t = ∑ u, f u + n := by
  rw [Finset.sum_update_of_mem (Finset.mem_univ t), ← Finset.add_sum_erase _ f (Finset.mem_univ t),
    Finset.sdiff_singleton_eq_erase]
  omega

/-- What one thread that moves from its place to `place` changes. -/
theorem tally_update (p : P → Bool) (places : ι → P) (t : ι) (place : P) :
    tally p (Function.update places t place) + (p (places t)).toNat =
      tally p places + (p place).toNat := by
  have moved : (fun u => (p (Function.update places t place u)).toNat) =
      Function.update (fun u => (p (places u)).toNat) t (p place).toNat := by
    funext u
    by_cases here : u = t
    · subst here
      simp
    · simp [here]
  unfold tally
  rw [moved]
  exact sum_update _ t _

end

end SandboxTEE.Lib
