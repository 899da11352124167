import Mathlib.Data.List.Basic
import Mathlib.Logic.Function.Iterate

/-! # Run-length sequences

Items that are repeated a number of times each, or forever, and a cursor that goes along them one
element at a time.
-/

namespace SandboxTEE.Lib

variable {α : Type}

/-- Element `k` of the sequence, `none` behind its end.  An item without a number repeats forever. -/
def element : List (α × Option Nat) → Nat → Option α
  | [], _ => none
  | (a, none) :: _, _ => some a
  | (a, some n) :: items, k => if k < n then some a else element items (k - n)

/-- Forever becomes `limit` times. -/
def capped (limit : Nat) (items : List (α × Option Nat)) : List (α × Nat) :=
  items.map fun item => (item.1, item.2.getD limit)

/-- All the numbers are finite. -/
def counted (items : List (α × Nat)) : List (α × Option Nat) :=
  items.map fun item => (item.1, some item.2)

theorem element_capped (limit : Nat) : ∀ (items : List (α × Option Nat)) {k : Nat}, k < limit →
    element (counted (capped limit items)) k = element items k
  | [], _, _ => rfl
  | (a, none) :: _, _, early => if_pos early
  | (a, some n) :: items, k, early => by
    have rest := element_capped limit items (k := k - n) (by omega)
    simp only [counted, capped, List.map_cons, Option.getD_some, element]
    split
    · rfl
    · exact rest

/-! ## A cursor -/

structure Cursor where
  item : Nat
  used : Nat

namespace Cursor

def start : Cursor := ⟨0, 0⟩

def current (items : List (α × Nat)) (c : Cursor) : Option α := items[c.item]?.map Prod.fst

/-- To the next item when the number of this one is reached. -/
def next (items : List (α × Nat)) (c : Cursor) : Cursor :=
  match items[c.item]? with
  | none => c
  | some item => if item.2 ≤ c.used + 1 then ⟨c.item + 1, 0⟩ else ⟨c.item, c.used + 1⟩

variable {items : List (α × Nat)} {c : Cursor} {k : Nat}

/-- What is in front of the cursor is the sequence from element `k` on. -/
structure At (items : List (α × Nat)) (k : Nat) (c : Cursor) : Prop where
  inside : ∀ item, items[c.item]? = some item → c.used < item.2
  ahead : ∀ j, element (counted (items.drop c.item)) (c.used + j) = element (counted items) (k + j)

theorem at_start (positive : ∀ item ∈ items, 0 < item.2) : At items 0 start where
  inside := fun item found => positive item (List.mem_of_getElem? found)
  ahead := fun _ => rfl

theorem drop_of_getElem? {item : α × Nat} {i : Nat} (found : items[i]? = some item) :
    items.drop i = item :: items.drop (i + 1) := by
  obtain ⟨inside, rfl⟩ := List.getElem?_eq_some_iff.mp found
  exact List.drop_eq_getElem_cons inside

theorem At.next (positive : ∀ item ∈ items, 0 < item.2) (here : At items k c) :
    At items (k + 1) (c.next items) := by
  unfold Cursor.next
  cases found : items[c.item]? with
  | none =>
    have out := List.getElem?_eq_none_iff.mp found
    refine ⟨here.inside, fun j => ?_⟩
    rw [← Nat.add_right_comm, Nat.add_assoc, ← here.ahead, List.drop_eq_nil_of_le out]
    rfl
  | some item =>
    have used := here.inside item found
    have ahead := here.ahead
    rw [drop_of_getElem? found] at ahead
    simp only
    split
    · next last =>
      refine ⟨fun item' found' => positive item' (List.mem_of_getElem? found'), fun j => ?_⟩
      have count : c.used + 1 = item.2 := Nat.le_antisymm used last
      have step := ahead (j + 1)
      rw [show c.used + (j + 1) = item.2 + j by omega] at step
      simp only [counted, List.map_cons, element, Nat.not_lt.mpr (Nat.le_add_right item.2 j),
        if_false, Nat.add_sub_cancel_left] at step
      rw [Nat.zero_add, Nat.add_right_comm, Nat.add_assoc]
      exact step
    · next more =>
      refine ⟨fun item' found' => ?_, fun j => ?_⟩
      · rw [found] at found'
        cases found'
        exact Nat.not_le.mp more
      · rw [drop_of_getElem? found, Nat.add_assoc, Nat.add_assoc, Nat.add_comm 1 j]
        exact ahead (j + 1)

theorem at_iterate (positive : ∀ item ∈ items, 0 < item.2) (k : Nat) :
    At items k ((Cursor.next items)^[k] start) := by
  induction k with
  | zero => exact at_start positive
  | succ k ih =>
    rw [Function.iterate_succ_apply']
    exact ih.next positive

theorem At.current (here : At items k c) : c.current items = element (counted items) k := by
  have now := here.ahead 0
  rw [Nat.add_zero, Nat.add_zero] at now
  rw [← now]
  unfold Cursor.current
  cases found : items[c.item]? with
  | none =>
    rw [List.drop_eq_nil_of_le (List.getElem?_eq_none_iff.mp found)]
    rfl
  | some item =>
    rw [drop_of_getElem? found]
    exact (if_pos (here.inside item found)).symm

/-- After `k` steps the cursor is at element `k`. -/
theorem current_iterate (positive : ∀ item ∈ items, 0 < item.2) (k : Nat) :
    ((Cursor.next items)^[k] start).current items = element (counted items) k :=
  (at_iterate positive k).current

end Cursor

end SandboxTEE.Lib
