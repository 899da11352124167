import SandboxTEE.Lib.Run
import SandboxTEE.IntervalMultiset.RangeTree

/-! # Interval multisets, their two implementations and their purpose

`NaClIntervalMultiset` is an interface of three operations, behind which stands the
range tree or a linked list of intervals.  What it is for is said by the abstract
multiset: an overlap query asks for a present interval that meets the given one.
-/

namespace SandboxTEE.IntervalMultiset

open Lib

/-- The two numbers of a call; also a `struct NaClIntervalNode` of the list. -/
structure Interval where
  left : Nat
  right : Nat
  deriving DecidableEq

/-- A closed interval of `uint32_t`. -/
structure Interval.Proper (x : Interval) : Prop where
  ordered : x.left ≤ x.right
  bounded : x.right < 2 ^ 32

/-! ## The list -/

def naClIntervalListMultisetAddInterval (intervals : List Interval) (firstVal lastVal : Nat) :
    Except Failure (List Interval) :=
  .ok (⟨firstVal, lastVal⟩ :: intervals)

def naClIntervalListMultisetRemoveInterval (intervals : List Interval)
    (firstVal lastVal : Nat) : Except Failure (List Interval) :=
  match intervals with
  | [] => .error .intervalNotFound
  | p :: rest =>
    if p.left = firstVal ∧ lastVal = p.right then .ok rest
    else do
      let rest ← naClIntervalListMultisetRemoveInterval rest firstVal lastVal
      .ok (p :: rest)

def naClIntervalListMultisetOverlapsWith (intervals : List Interval)
    (firstVal lastVal : Nat) : Bool :=
  match intervals with
  | [] => false
  | p :: rest =>
    if p.left ≤ lastVal ∧ firstVal ≤ p.right then true
    else naClIntervalListMultisetOverlapsWith rest firstVal lastVal

/-! ## The interface -/

/-- `struct NaClIntervalMultisetVtbl`, but the destructor. -/
structure NaClIntervalMultisetVtbl (σ : Type) where
  addInterval : σ → Nat → Nat → Except Failure σ
  removeInterval : σ → Nat → Nat → Except Failure σ
  overlapsWith : σ → Nat → Nat → Bool

def kNaClIntervalRangeTreeVtbl : NaClIntervalMultisetVtbl Tree where
  addInterval := naClIntervalRangeTreeAddInterval
  removeInterval := naClIntervalRangeTreeRemoveInterval
  overlapsWith := naClIntervalRangeTreeOverlapsWith

def kNaClIntervalListMultisetVtbl : NaClIntervalMultisetVtbl (List Interval) where
  addInterval := naClIntervalListMultisetAddInterval
  removeInterval := naClIntervalListMultisetRemoveInterval
  overlapsWith := naClIntervalListMultisetOverlapsWith

inductive Op where
  | addInterval (x : Interval)
  | removeInterval (x : Interval)
  | overlapsWith (x : Interval)

variable {σ : Type}

/-- One call through the interface; the answers to the queries are kept in order. -/
def NaClIntervalMultisetVtbl.step (vtbl : NaClIntervalMultisetVtbl σ) (s : σ × List Bool) :
    Op → Except Failure (σ × List Bool)
  | .addInterval x => do
    let intervals ← vtbl.addInterval s.1 x.left x.right
    .ok (intervals, s.2)
  | .removeInterval x => do
    let intervals ← vtbl.removeInterval s.1 x.left x.right
    .ok (intervals, s.2)
  | .overlapsWith x => .ok (s.1, s.2 ++ [vtbl.overlapsWith s.1 x.left x.right])

/-! ## The abstract multiset -/

/-- Some present interval meets `[first, last]`. -/
def Meets (present : Multiset Interval) (x : Interval) : Prop :=
  ∃ y ∈ present, y.left ≤ x.right ∧ x.left ≤ y.right

instance (present : Multiset Interval) (x : Interval) : Decidable (Meets present x) :=
  Multiset.decidableExistsMultiset

/-- The present intervals and the answers given so far. -/
abbrev Spec := Multiset Interval × List Bool

def Spec.step (s : Spec) : Op → Spec
  | .addInterval x => (x ::ₘ s.1, s.2)
  | .removeInterval x => (s.1.erase x, s.2)
  | .overlapsWith x => (s.1, s.2 ++ [decide (Meets s.1 x)])

/-- A call that keeps fewer than `2^31` intervals, and removes a present one only. -/
def Spec.Allowed (s : Spec) : Op → Prop
  | .addInterval _ => s.1.card + 1 < 2 ^ 31
  | .removeInterval x => x ∈ s.1
  | .overlapsWith _ => True

instance (s : Spec) (op : Op) : Decidable (s.Allowed op) := by
  cases op <;> unfold Spec.Allowed <;> infer_instance

/-- A call on a closed interval of `uint32_t`. -/
def Op.Proper : Op → Prop
  | .addInterval x | .removeInterval x | .overlapsWith x => x.Proper

/-! ## The list implements the multiset -/

theorem naClIntervalListMultisetRemoveInterval_spec {intervals : List Interval} {x : Interval}
    (member : x ∈ intervals) :
    ∃ rest, naClIntervalListMultisetRemoveInterval intervals x.left x.right = .ok rest ∧
      (rest : Multiset Interval) = (intervals : Multiset Interval).erase x := by
  induction intervals with
  | nil => cases member
  | cons p intervals ih =>
    rw [naClIntervalListMultisetRemoveInterval]
    by_cases same : p = x
    · subst same
      exact ⟨intervals, by simp, by simp⟩
    · have differs : ¬(p.left = x.left ∧ x.right = p.right) := by
        intro ⟨left, right⟩
        cases p
        cases x
        simp_all
      have inTail : x ∈ intervals := by
        cases List.mem_cons.mp member with
        | inl head => exact absurd head.symm same
        | inr tail => exact tail
      obtain ⟨rest, removed, rest_eq⟩ := ih inTail
      refine ⟨p :: rest, by rw [if_neg differs, removed]; rfl, ?_⟩
      rw [← Multiset.cons_coe, rest_eq, ← Multiset.cons_coe,
        Multiset.erase_cons_tail _ same]

theorem naClIntervalListMultisetOverlapsWith_eq (intervals : List Interval) (x : Interval) :
    naClIntervalListMultisetOverlapsWith intervals x.left x.right = decide (Meets intervals x) := by
  induction intervals with
  | nil => simp [naClIntervalListMultisetOverlapsWith, Meets]
  | cons p intervals ih =>
    rw [naClIntervalListMultisetOverlapsWith, ih]
    by_cases here : p.left ≤ x.right ∧ x.left ≤ p.right
    · simp [here, Meets]
    · simp [here, Meets]

/-- The list holds the present intervals. -/
def ListHolds (s : List Interval × List Bool) (t : Spec) : Prop :=
  (s.1 : Multiset Interval) = t.1 ∧ s.2 = t.2

theorem list_step_refines {s : List Interval × List Bool} {t : Spec} {op : Op}
    (holds : ListHolds s t) (allowed : t.Allowed op) :
    ∃ s', kNaClIntervalListMultisetVtbl.step s op = .ok s' ∧ ListHolds s' (t.step op) := by
  obtain ⟨intervals, answers⟩ := s
  obtain ⟨present, answers'⟩ := t
  obtain ⟨rfl, rfl⟩ := holds
  cases op with
  | addInterval x => exact ⟨_, rfl, rfl, rfl⟩
  | removeInterval x =>
    obtain ⟨rest, removed, rest_eq⟩ := naClIntervalListMultisetRemoveInterval_spec allowed
    refine ⟨(rest, answers), ?_, rest_eq, rfl⟩
    simp only [NaClIntervalMultisetVtbl.step, kNaClIntervalListMultisetVtbl, removed]
    rfl
  | overlapsWith x =>
    refine ⟨_, rfl, rfl, ?_⟩
    simp only [kNaClIntervalListMultisetVtbl, Spec.step, naClIntervalListMultisetOverlapsWith_eq]

end SandboxTEE.IntervalMultiset
