import SandboxTEE.Stdlib.Qsort

/-! # Correctness of `bsearch`

The comparator need not be an order: it is enough that along the array its sign never
rises.  Then `bsearch` finds an element that compares equal whenever there is one.
-/

namespace SandboxTEE.Stdlib

variable {α κ : Type}

/-- Along the array the comparison with `key` goes from "move right" over "equal" to
    "move left". -/
def Falling (compar : κ → α → Int) (key : κ) (l : List α) : Prop :=
  l.Pairwise fun x y => (0 < compar key y → 0 < compar key x) ∧
    (compar key x < 0 → compar key y < 0)

/-- What a search has excluded: the elements before `base` are too small for the key, those
    from `limit` on too large. -/
structure Excluded (compar : κ → α → Int) (key : κ) (l : List α) (base limit : Nat) : Prop where
  inside : limit ≤ l.length
  below : ∀ i x, i < base → l[i]? = some x → 0 < compar key x
  above : ∀ i x, limit ≤ i → l[i]? = some x → compar key x < 0

variable {compar : κ → α → Int} {key : κ} {l : List α}

theorem Excluded.none_left {base : Nat} (excluded : Excluded compar key l base base) :
    ∀ x ∈ l, compar key x ≠ 0 := by
  intro x hx
  obtain ⟨i, at_i⟩ := List.getElem?_of_mem hx
  cases Nat.lt_or_ge i base with
  | inl before =>
    have := excluded.below i x before at_i
    omega
  | inr behind =>
    have := excluded.above i x behind at_i
    omega

theorem Falling.below {i p : Nat} {x y : α} (falling : Falling compar key l)
    (le : i ≤ p) (at_i : l[i]? = some x) (at_p : l[p]? = some y) (pos : 0 < compar key y) :
    0 < compar key x := by
  obtain ⟨hi, rfl⟩ := List.getElem?_eq_some_iff.mp at_i
  obtain ⟨hp, rfl⟩ := List.getElem?_eq_some_iff.mp at_p
  cases Nat.lt_or_eq_of_le le with
  | inl lt => exact (List.pairwise_iff_getElem.mp falling i p hi hp lt).1 pos
  | inr eq =>
    subst eq
    exact pos

theorem Falling.above {i p : Nat} {x y : α} (falling : Falling compar key l)
    (le : p ≤ i) (at_i : l[i]? = some x) (at_p : l[p]? = some y) (neg : compar key y < 0) :
    compar key x < 0 := by
  obtain ⟨hi, rfl⟩ := List.getElem?_eq_some_iff.mp at_i
  obtain ⟨hp, rfl⟩ := List.getElem?_eq_some_iff.mp at_p
  cases Nat.lt_or_eq_of_le le with
  | inl lt => exact (List.pairwise_iff_getElem.mp falling p i hp hi lt).2 neg
  | inr eq =>
    subst eq
    exact neg

/-- The outcome of a search: an index that compares equal, or nothing does. -/
def Searched (compar : κ → α → Int) (key : κ) (l : List α) : Option Nat → Prop
  | some i => ∃ x, l[i]? = some x ∧ compar key x = 0
  | none => ∀ x ∈ l, compar key x ≠ 0

theorem bsearchLoop_spec (falling : Falling compar key l) : ∀ (fuel base lim : Nat), lim < fuel →
    Excluded compar key l base (base + lim) →
    Searched compar key l (bsearchLoop compar key l fuel base lim)
  | 0, _, _, enough, _ => absurd enough (Nat.not_lt_zero _)
  | fuel + 1, base, lim, enough, excluded => by
    rw [bsearchLoop]
    split
    · next zero =>
      subst zero
      exact excluded.none_left
    · next nonzero =>
      have inside : base + lim / 2 < l.length := by
        have := excluded.inside
        omega
      have at_p : l[base + lim / 2]? = some l[base + lim / 2] := List.getElem?_eq_getElem inside
      generalize l[base + lim / 2] = x at at_p
      simp only [at_p]
      split
      · -- the key lies behind `p`
        next pos =>
        refine bsearchLoop_spec falling fuel _ _ (by omega) ⟨?_, ?_, ?_⟩
        · have := excluded.inside
          omega
        · intro i y before at_i
          exact falling.below (by omega) at_i at_p pos
        · intro i y behind at_i
          exact excluded.above i y (by omega) at_i
      · next notPos =>
        split
        · next zero => exact ⟨x, at_p, zero⟩
        · -- the key lies before `p`
          next nonzero' =>
          refine bsearchLoop_spec falling fuel _ _ (by omega) ⟨?_, ?_, ?_⟩
          · omega
          · exact excluded.below
          · intro i y behind at_i
            exact falling.above behind at_i at_p (by omega)

/-- `bsearch` finds an equal element if there is one. -/
theorem bsearch_spec (falling : Falling compar key l) :
    Searched compar key l (bsearch compar key l) := by
  refine bsearchLoop_spec falling _ 0 l.length (Nat.lt_succ_self _) ⟨by omega, ?_, ?_⟩
  · exact fun i x before _ => absurd before (Nat.not_lt_zero i)
  · intro i x behind at_i
    rw [List.getElem?_eq_none (by omega)] at at_i
    cases at_i

end SandboxTEE.Stdlib
