import Mathlib.Algebra.GroupWithZero.Nat
import Mathlib.Order.Interval.Finset.Nat

/-! # Falling lists of intervals

Half-open intervals of numbers, from high to low with gaps between them, and the set that a list of
them covers.
-/

namespace SandboxTEE.Lib

structure HalfOpen where
  bottom : Nat
  top : Nat
deriving DecidableEq

namespace HalfOpen

def points (v : HalfOpen) : Finset Nat := Finset.Ico v.bottom v.top

def length (v : HalfOpen) : Nat := v.top - v.bottom

variable {v w : HalfOpen} {l l' : List HalfOpen} {a : Nat}

@[simp] theorem mem_points : a ∈ v.points ↔ v.bottom ≤ a ∧ a < v.top := Finset.mem_Ico

/-- What a list covers. -/
def cover : List HalfOpen → Finset Nat
  | [] => ∅
  | v :: l => v.points ∪ cover l

@[simp] theorem mem_cover : a ∈ cover l ↔ ∃ v ∈ l, v.bottom ≤ a ∧ a < v.top := by
  induction l with
  | nil => simp [cover]
  | cons v l ih => simp [cover, ih]

theorem cover_append : cover (l ++ l') = cover l ∪ cover l' := by
  ext a
  simp only [mem_cover, Finset.mem_union, List.mem_append, or_and_right, exists_or]

theorem cover_reverse : cover l.reverse = cover l := by
  ext a
  simp only [mem_cover, List.mem_reverse]

theorem cover_cons : cover (v :: l) = v.points ∪ cover l := rfl

/-! ## Falling lists -/

/-- Every interval starts above the end of the next one. -/
structure Falling (l : List HalfOpen) : Prop where
  proper : ∀ v ∈ l, v.bottom < v.top
  apart : l.Pairwise fun hi lo => lo.top < hi.bottom

theorem falling_nil : Falling [] where
  proper := by simp
  apart := List.Pairwise.nil

theorem falling_cons : Falling (v :: l) ↔
    v.bottom < v.top ∧ (∀ w ∈ l, w.top < v.bottom) ∧ Falling l := by
  constructor
  · rintro ⟨proper, apart⟩
    obtain ⟨first, rest⟩ := List.forall_mem_cons.mp proper
    obtain ⟨below, apart⟩ := List.pairwise_cons.mp apart
    exact ⟨first, below, rest, apart⟩
  · rintro ⟨first, below, falling⟩
    exact ⟨List.forall_mem_cons.mpr ⟨first, falling.proper⟩, List.pairwise_cons.mpr ⟨below, falling.apart⟩⟩

theorem falling_append : Falling (l ++ l') ↔
    Falling l ∧ Falling l' ∧ ∀ v ∈ l, ∀ w ∈ l', w.top < v.bottom := by
  constructor
  · rintro ⟨proper, apart⟩
    obtain ⟨left, right, across⟩ := List.pairwise_append.mp apart
    obtain ⟨first, second⟩ := List.forall_mem_append.mp proper
    exact ⟨⟨first, left⟩, ⟨second, right⟩, across⟩
  · rintro ⟨left, right, across⟩
    exact ⟨List.forall_mem_append.mpr ⟨left.proper, right.proper⟩,
      List.pairwise_append.mpr ⟨left.apart, right.apart, across⟩⟩

/-- Of two intervals one lies below the other, with a gap. -/
theorem Falling.separate (falling : Falling l) (hv : v ∈ l) (hw : w ∈ l) :
    v = w ∨ v.top < w.bottom ∨ w.top < v.bottom := by
  induction l with
  | nil => cases hv
  | cons u l ih =>
    obtain ⟨_, below, rest⟩ := falling_cons.mp falling
    rcases List.mem_cons.mp hv with rfl | hv'
    · rcases List.mem_cons.mp hw with rfl | hw'
      · exact .inl rfl
      · exact .inr (.inr (below w hw'))
    · rcases List.mem_cons.mp hw with rfl | hw'
      · exact .inr (.inl (below v hv'))
      · exact ih rest hv' hw'

/-- What lies below every interval of a list is not covered. -/
theorem disjoint_cover (falling : ∀ w ∈ l, w.top ≤ v.bottom) : Disjoint v.points (cover l) := by
  rw [Finset.disjoint_left]
  intro a inside covered
  obtain ⟨w, member, _, above⟩ := mem_cover.mp covered
  have := falling w member
  have := (mem_points.mp inside).1
  omega

theorem card_cover (falling : Falling l) : (cover l).card = (l.map length).sum := by
  induction l with
  | nil => rfl
  | cons v l ih =>
    obtain ⟨_, below, rest⟩ := falling_cons.mp falling
    rw [cover_cons, Finset.card_union_of_disjoint (disjoint_cover fun w member => (below w member).le),
      ih rest, points, Nat.card_Ico]
    rfl

end HalfOpen

end SandboxTEE.Lib
