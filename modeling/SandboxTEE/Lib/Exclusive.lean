import Mathlib.Data.Finset.Insert
import Mathlib.Data.Finset.Erase

/-! # Exclusive holders

Holders hold at most one resource each.  While every resource in use has exactly one holder, and
nobody holds a resource that is not in use, a holder may acquire a fresh resource, release its own,
or change in any other way.
-/

namespace SandboxTEE.Lib

variable {ι ρ : Type}

structure Exclusive (holds : ι → Option ρ) (inUse : Finset ρ) : Prop where
  held : ∀ i r, holds i = some r → r ∈ inUse
  unique : ∀ i j r, holds i = some r → holds j = some r → i = j
  covered : ∀ r ∈ inUse, ∃ i, holds i = some r

namespace Exclusive

variable {holds : ι → Option ρ} {inUse : Finset ρ} {i : ι} {r : ρ}

theorem existsUnique (h : Exclusive holds inUse) (mem : r ∈ inUse) : ∃! i, holds i = some r := by
  obtain ⟨i, held⟩ := h.covered r mem
  exact ⟨i, held, fun j held' => h.unique j i r held' held⟩

variable [DecidableEq ι]

variable [DecidableEq ρ]

theorem acquire (h : Exclusive holds inUse) (idle : holds i = none) (fresh : r ∉ inUse) :
    Exclusive (Function.update holds i (some r)) (insert r inUse) where
  held := fun j q held => by
    rw [Function.update_apply] at held
    split at held
    · cases held
      exact Finset.mem_insert_self ..
    · exact Finset.mem_insert_of_mem (h.held j q held)
  unique := fun j k q held held' => by
    rw [Function.update_apply] at held held'
    split at held
    · next left =>
      cases held
      split at held'
      · next right => exact left.trans right.symm
      · exact absurd (h.held k r held') fresh
    · split at held'
      · cases held'
        exact absurd (h.held j r held) fresh
      · exact h.unique j k q held held'
  covered := fun q mem => by
    cases Finset.mem_insert.mp mem with
    | inl same => exact ⟨i, by rw [same, Function.update_self]⟩
    | inr old =>
      obtain ⟨j, held⟩ := h.covered q old
      have other : j ≠ i := by
        rintro rfl
        rw [idle] at held
        cases held
      exact ⟨j, by rw [Function.update_of_ne other, held]⟩

theorem release (h : Exclusive holds inUse) (held : holds i = some r) :
    Exclusive (Function.update holds i none) (inUse.erase r) where
  held := fun j q held' => by
    rw [Function.update_apply] at held'
    split at held'
    · cases held'
    · next other =>
      refine Finset.mem_erase.mpr ⟨?_, h.held j q held'⟩
      rintro rfl
      exact other (h.unique j i q held' held)
  unique := fun j k q held' held'' => by
    rw [Function.update_apply] at held' held''
    split at held'
    · cases held'
    · split at held''
      · cases held''
      · exact h.unique j k q held' held''
  covered := fun q mem => by
    obtain ⟨other, old⟩ := Finset.mem_erase.mp mem
    obtain ⟨j, held'⟩ := h.covered q old
    refine ⟨j, ?_⟩
    rw [Function.update_of_ne ?_, held']
    rintro rfl
    rw [held] at held'
    exact other (Option.some.inj held').symm

end Exclusive

end SandboxTEE.Lib
