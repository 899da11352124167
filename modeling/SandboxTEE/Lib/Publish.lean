import Mathlib.Data.List.Basic

/-! # Publishing in two phases

Cells are written that others may read at any time.  The cells of a group are reached through one
of them, its guard, which is closed to begin with.  First the other cells are written, in any
order, then, behind a barrier, the guards: whatever the order inside a phase, nobody finds a guard
open and the group incomplete.
-/

namespace SandboxTEE.Lib

variable {A V : Type} [DecidableEq A]

/-- Memory after the writes, in their order. -/
def writeAll (mem : A → V) (ws : List (A × V)) : A → V :=
  ws.foldl (fun mem w => Function.update mem w.1 w.2) mem

variable {mem : A → V} {ws bodies guards : List (A × V)} {a : A}

theorem writeAll_of_unwritten (unwritten : ∀ w ∈ ws, w.1 ≠ a) : writeAll mem ws a = mem a := by
  induction ws generalizing mem with
  | nil => rfl
  | cons w ws ih =>
    have other : a ≠ w.1 := (unwritten w List.mem_cons_self).symm
    change writeAll (Function.update mem w.1 w.2) ws a = mem a
    rw [ih fun v hv => unwritten v (List.mem_cons_of_mem w hv), Function.update_of_ne other]

/-- When every write stores the final value of its cell, a written cell has it. -/
theorem writeAll_of_written (final : A → V) (agree : ∀ w ∈ ws, w.2 = final w.1) (written : ∃ w ∈ ws, w.1 = a) :
    writeAll mem ws a = final a := by
  induction ws generalizing mem with
  | nil =>
    obtain ⟨w, hw, -⟩ := written
    cases hw
  | cons w ws ih =>
    change writeAll (Function.update mem w.1 w.2) ws a = final a
    have agree' := fun v hv => agree v (List.mem_cons_of_mem w hv)
    by_cases later : ∃ v ∈ ws, v.1 = a
    · exact ih agree' later
    · -- the first write is the only one
      obtain ⟨v, hv, here⟩ := written
      cases hv with
      | head =>
        rw [writeAll_of_unwritten fun u hu same => later ⟨u, hu, same⟩, ← here,
          Function.update_self, agree w List.mem_cons_self]
      | tail _ hv => exact absurd ⟨v, hv, here⟩ later

/-- What has been written at some time: some of the bodies, in any order, or behind the barrier all
    of them and some of the guards. -/
inductive Visible (bodies guards : List (A × V)) : List (A × V) → Prop
  | before {ws : List (A × V)} (some_bodies : ws ⊆ bodies) : Visible bodies guards ws
  | after {ws vs : List (A × V)} (only : ws ⊆ bodies) (all : bodies ⊆ ws) (some_guards : vs ⊆ guards) :
      Visible bodies guards (ws ++ vs)

omit [DecidableEq A] in
/-- In particular each prefix of the program order. -/
theorem visible_of_initial (pre : ws <+: bodies ++ guards) : Visible bodies guards ws := by
  obtain ⟨rest, eq⟩ := pre
  cases List.append_eq_append_iff.mp eq with
  | inl inside =>
    obtain ⟨_, rfl, -⟩ := inside
    exact .before (List.subset_append_left _ _)
  | inr beyond =>
    obtain ⟨_, rfl, rfl⟩ := beyond
    exact .after (List.Subset.refl _) (List.Subset.refl _) (List.subset_append_left _ _)

/-- A group is closed, as its guard has not been written, or it is complete. -/
theorem Visible.closed_or_complete (visible : Visible bodies guards ws)
    (final : A → V) (agree : ∀ w ∈ bodies ++ guards, w.2 = final w.1) (guard : A) (group : A → Prop)
    (closed : ∀ w ∈ bodies, w.1 ≠ guard)
    (covers : ∀ c, group c → mem c = final c ∨ ∃ w ∈ bodies, w.1 = c) :
    writeAll mem ws guard = mem guard ∨ ∀ c, group c → writeAll mem ws c = final c := by
  cases visible with
  | before some_bodies =>
    exact Or.inl (writeAll_of_unwritten fun w hw => closed w (some_bodies hw))
  | @after ws vs only all some_guards =>
    refine Or.inr fun c hc => ?_
    have agree' : ∀ w ∈ ws ++ vs, w.2 = final w.1 := fun w hw => by
      cases List.mem_append.mp hw with
      | inl hw => exact agree w (List.mem_append_left _ (only hw))
      | inr hw => exact agree w (List.mem_append_right _ (some_guards hw))
    by_cases written : ∃ w ∈ ws ++ vs, w.1 = c
    · exact writeAll_of_written final agree' written
    · rw [writeAll_of_unwritten fun w hw same => written ⟨w, hw, same⟩]
      cases covers c hc with
      | inl already => exact already
      | inr body =>
        obtain ⟨w, hw, here⟩ := body
        exact absurd ⟨w, List.mem_append_left _ (all hw), here⟩ written

end SandboxTEE.Lib
