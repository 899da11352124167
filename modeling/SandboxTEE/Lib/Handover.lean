import SandboxTEE.Lib.Tally

/-! # Sleepers that are not forgotten

Threads sleep on a word.  A sleeper is minded while the word is such that whoever changes it will wake
somebody (`contended`), or while some thread is at a place from which it will issue a wake, or make the word
contended again.
-/

namespace SandboxTEE.Lib

variable {ι P : Type} {sleeps minds : P → Bool} {contended contended' : Prop} {places : ι → P} {t : ι}
  {place : P}

def Minded (sleeps minds : P → Bool) (contended : Prop) (places : ι → P) : Prop :=
  (∃ t, sleeps (places t) = true) → contended ∨ ∃ t, minds (places t) = true

namespace Minded

variable [DecidableEq ι]

theorem move (minded : Minded sleeps minds contended places)
    (after : contended' ∨ minds place = true ∨
      (sleeps place = false ∧ minds (places t) = false ∧ (contended → contended'))) :
    Minded sleeps minds contended' (Function.update places t place) := by
  rintro ⟨u, asleep⟩
  rcases after with now | mine | ⟨awake, free, kept⟩
  · exact .inl now
  · exact .inr ⟨t, by rwa [Function.update_self]⟩
  rw [Function.update_apply] at asleep
  split at asleep
  · rw [awake] at asleep
    cases asleep
  · cases minded ⟨u, asleep⟩ with
    | inl was => exact .inl (kept was)
    | inr some =>
      obtain ⟨v, minds⟩ := some
      have other : v ≠ t := by
        rintro rfl
        rw [free] at minds
        cases minds
      exact .inr ⟨v, by rwa [Function.update_of_ne other]⟩

/-- A wake is issued, and the thread that it reaches minds the others. -/
theorem wake {woken : Option ι} {awake : P → P} (wakes : Wakes sleeps places woken)
    (minding : ∀ p, sleeps p = true → minds (awake p) = true) (self : sleeps (places t) = false)
    (place_awake : sleeps place = false) : Minded sleeps minds contended
      (Function.update (woken.elim places fun u => Function.update places u (awake (places u))) t
        place) := by
  cases woken with
  | none =>
    rintro ⟨u, asleep⟩
    dsimp only [Option.elim_none] at asleep
    rw [Function.update_apply] at asleep
    split at asleep
    · rw [place_awake] at asleep
      cases asleep
    · rw [wakes u] at asleep
      cases asleep
  | some u =>
    have asleep : sleeps (places u) = true := wakes
    have other : u ≠ t := by
      rintro rfl
      rw [self] at asleep
      cases asleep
    intro _
    refine .inr ⟨u, ?_⟩
    dsimp only [Option.elim_some]
    rw [Function.update_of_ne other, Function.update_self]
    exact minding (places u) asleep

end Minded

end SandboxTEE.Lib
