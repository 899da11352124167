import Mathlib.Data.List.Perm.Subperm
import Mathlib.Data.List.Nodup
import Mathlib.Data.List.Range
import Mathlib.Logic.Equiv.Basic

/-! # Array cells and in-place rearrangement

An array that is updated in place is a function from indices to values.  An
in-place algorithm that only exchanges cells inside a window `[lo, hi)` is
described by `Moves lo hi`: the new array reads the old one through a
permutation that fixes every index outside the window.  The relation composes,
grows with its window, and carries any predicate that holds on the window.
-/

namespace SandboxTEE.Lib

variable {α β : Type}

/-- The cells of an array, by index. -/
abbrev Cells (α : Type) := Nat → α

/-! ## Exchanging two cells -/

/-- `t = *a; *a = *b; *b = t`. -/
def swap (c : Cells α) (i j : Nat) : Cells α :=
  Function.update (Function.update c i (c j)) j (c i)

theorem swap_apply (c : Cells α) (i j k : Nat) :
    swap c i j k = if k = j then c i else if k = i then c j else c k := by
  simp only [swap, Function.update_apply]

@[simp] theorem swap_left (c : Cells α) (i j : Nat) : swap c i j i = c j := by
  rw [swap_apply]
  split
  · next same => rw [same]
  · rw [if_pos rfl]

@[simp] theorem swap_right (c : Cells α) (i j : Nat) : swap c i j j = c i := by
  rw [swap_apply, if_pos rfl]

variable {k : Nat}

theorem swap_other (c : Cells α) {i j : Nat} (hi : k ≠ i) (hj : k ≠ j) : swap c i j k = c k := by
  rw [swap_apply, if_neg hj, if_neg hi]

theorem swap_eq_comp (c : Cells α) (i j : Nat) : swap c i j = c ∘ Equiv.swap i j := by
  funext k
  rw [swap_apply, Function.comp_apply, Equiv.swap_apply_def]
  by_cases hi : k = i
  · subst hi
    by_cases hj : k = j
    · rw [if_pos hj, if_pos rfl, hj]
    · rw [if_neg hj, if_pos rfl, if_pos rfl]
  · by_cases hj : k = j
    · rw [if_pos hj, if_neg hi, if_pos hj]
    · rw [if_neg hj, if_neg hi, if_neg hi, if_neg hj]

/-! ## Rearranging a window -/

/-- `c'` is `c` with the cells of `[lo, hi)` permuted among themselves. -/
def Moves (lo hi : Nat) (c c' : Cells α) : Prop :=
  ∃ σ : Equiv.Perm Nat, (∀ k, σ k ≠ k → lo ≤ k ∧ k < hi) ∧ c' = c ∘ σ

theorem Moves.refl (lo hi : Nat) (c : Cells α) : Moves lo hi c c :=
  ⟨Equiv.refl Nat, fun _ h => absurd rfl h, rfl⟩

variable {c c' : Cells α} {lo hi : Nat}

theorem Moves.trans {c'' : Cells α} (h₁ : Moves lo hi c c') (h₂ : Moves lo hi c' c'') :
    Moves lo hi c c'' := by
  obtain ⟨σ, hσ, rfl⟩ := h₁
  obtain ⟨τ, hτ, rfl⟩ := h₂
  refine ⟨τ.trans σ, fun k moved => ?_, rfl⟩
  by_cases fixed : τ k = k
  · refine hσ k fun h => moved ?_
    rw [Equiv.trans_apply, fixed, h]
  · exact hτ k fixed

theorem Moves.mono {lo' hi' : Nat} (h : Moves lo hi c c') (hlo : lo' ≤ lo) (hhi : hi ≤ hi') :
    Moves lo' hi' c c' := by
  obtain ⟨σ, hσ, rfl⟩ := h
  refine ⟨σ, fun k moved => ?_, rfl⟩
  obtain ⟨h₁, h₂⟩ := hσ k moved
  omega

theorem Moves.swap {lo hi i j : Nat} (c : Cells α) (hi₁ : lo ≤ i) (hi₂ : i < hi)
    (hj₁ : lo ≤ j) (hj₂ : j < hi) : Moves lo hi c (swap c i j) := by
  refine ⟨Equiv.swap i j, fun k moved => ?_, swap_eq_comp c i j⟩
  by_cases hki : k = i
  · subst hki
    exact ⟨hi₁, hi₂⟩
  · by_cases hkj : k = j
    · subst hkj
      exact ⟨hj₁, hj₂⟩
    · exact absurd (Equiv.swap_apply_of_ne_of_ne hki hkj) moved

theorem Moves.outside (h : Moves lo hi c c') (out : k < lo ∨ hi ≤ k) : c' k = c k := by
  obtain ⟨σ, hσ, rfl⟩ := h
  by_cases fixed : σ k = k
  · rw [Function.comp_apply, fixed]
  · obtain ⟨h₁, h₂⟩ := hσ k fixed
    omega

private theorem perm_mem_window {σ : Equiv.Perm Nat} (hσ : ∀ k, σ k ≠ k → lo ≤ k ∧ k < hi)
    (h₁ : lo ≤ k) (h₂ : k < hi) : lo ≤ σ k ∧ σ k < hi := by
  by_cases fixed : σ k = k
  · rw [fixed]
    exact ⟨h₁, h₂⟩
  · exact hσ (σ k) fun h => fixed (σ.injective h)

/-- Every cell of the window holds a value that the window held before. -/
theorem Moves.inside {lo hi : Nat} {c c' : Cells α} (h : Moves lo hi c c') {k : Nat}
    (h₁ : lo ≤ k) (h₂ : k < hi) : ∃ m, lo ≤ m ∧ m < hi ∧ c' k = c m := by
  obtain ⟨σ, hσ, rfl⟩ := h
  obtain ⟨h₃, h₄⟩ := perm_mem_window hσ h₁ h₂
  exact ⟨σ k, h₃, h₄, rfl⟩

/-- A predicate on the values of the window survives its rearrangement. -/
theorem Moves.all {P : α → Prop} (h : Moves lo hi c c') (all : ∀ k, lo ≤ k → k < hi → P (c k)) :
    ∀ k, lo ≤ k → k < hi → P (c' k) := by
  intro k h₁ h₂
  obtain ⟨m, h₃, h₄, eq⟩ := h.inside h₁ h₂
  rw [eq]
  exact all m h₃ h₄

/-! ## Arrays as lists -/

/-- The first `n` cells. -/
def Cells.toList (c : Cells α) (n : Nat) : List α := (List.range n).map c

@[simp] theorem Cells.length_toList (c : Cells α) (n : Nat) : (c.toList n).length = n := by
  simp [Cells.toList]

/-- The cells of a list; past its end they hold `default`. -/
def cellsOf [Inhabited α] (l : List α) : Cells α := fun k => l.getD k default

theorem cellsOf_lt [Inhabited α] (l : List α) (h : k < l.length) : cellsOf l k = l[k] := by
  simp [cellsOf, h]

@[simp] theorem toList_cellsOf [Inhabited α] (l : List α) :
    Cells.toList (cellsOf l) l.length = l := by
  refine List.ext_getElem (by simp) fun k h₁ h₂ => ?_
  simp only [Cells.toList, List.getElem_map, List.getElem_range]
  exact cellsOf_lt l h₂

/-- Rearranging the first `n` cells permutes them as a list. -/
theorem Moves.toList_perm {n : Nat} (h : Moves 0 n c c') : (c'.toList n).Perm (c.toList n) := by
  obtain ⟨σ, hσ, rfl⟩ := h
  have permuted : ((List.range n).map σ).Perm (List.range n) := by
    refine (List.perm_ext_iff_of_nodup ?_ List.nodup_range).mpr fun k => ?_
    · exact List.Nodup.map σ.injective List.nodup_range
    · simp only [List.mem_map, List.mem_range]
      constructor
      · rintro ⟨m, hm, rfl⟩
        exact (perm_mem_window hσ (Nat.zero_le m) hm).2
      · intro hk
        refine ⟨σ.symm k, ?_, σ.apply_symm_apply k⟩
        by_cases fixed : σ (σ.symm k) = σ.symm k
        · rwa [← fixed, σ.apply_symm_apply]
        · exact (hσ _ fixed).2
  have mapped := permuted.map c
  rwa [List.map_map] at mapped

/-! ## Sorted windows -/

/-- The window `[lo, hi)` is non-decreasing in the key. -/
def SortedOn [LE β] (key : α → β) (c : Cells α) (lo hi : Nat) : Prop :=
  ∀ i j, lo ≤ i → i < j → j < hi → key (c i) ≤ key (c j)

variable {key : α → β}

theorem SortedOn.of_length_le_one [LE β] (small : hi ≤ lo + 1) : SortedOn key c lo hi := by
  intro i j h₁ h₂ h₃
  omega

/-- Sortedness of a window only reads the window. -/
theorem SortedOn.congr [LE β] (h : SortedOn key c lo hi)
    (same : ∀ k, lo ≤ k → k < hi → c' k = c k) : SortedOn key c' lo hi := by
  intro i j h₁ h₂ h₃
  rw [same i h₁ (by omega), same j (by omega) h₃]
  exact h i j h₁ h₂ h₃

theorem SortedOn.pairwise_toList [LE β] {n : Nat} (h : SortedOn key c 0 n) :
    (c.toList n).Pairwise (fun x y => key x ≤ key y) := by
  rw [Cells.toList, List.pairwise_map]
  refine List.pairwise_lt_range.imp_of_mem fun {i j} _ hj hij => ?_
  exact h i j (Nat.zero_le i) hij (List.mem_range.mp hj)

end SandboxTEE.Lib
