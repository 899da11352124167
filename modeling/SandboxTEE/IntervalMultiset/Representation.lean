import Mathlib.Order.Bounds.Basic
import SandboxTEE.IntervalMultiset.Multisets
import SandboxTEE.IntervalMultiset.TreeShape

/-! # The representation invariant of the range tree

A tree represents the deltas and use counts of end points when it is valid, sorted, and
holds exactly the used ones, each with its two counters as 32-bit words.  Adding and
removing an interval change the uses of its two end points, so the invariant holds along
every run; below `2^31` intervals no counter wraps, and it can be read without modulus.
-/

namespace SandboxTEE.IntervalMultiset

open Lib

/-! ## Uses of end points -/

def starts (present : Multiset Interval) (v : Nat) : Nat := (present.map Interval.left).count v

def ends (present : Multiset Interval) (v : Nat) : Nat := (present.map Interval.right).count v

def uses (present : Multiset Interval) (v : Nat) : Nat := starts present v + ends present v

/-- What a probe point gains in containment when it passes `v`. -/
def delta (present : Multiset Interval) (v : Nat) : Int := starts present v - ends present v

theorem starts_cons (x : Interval) (present : Multiset Interval) (v : Nat) :
    starts (x ::ₘ present) v = starts present v + if v = x.left then 1 else 0 := by
  rw [starts, Multiset.map_cons, Multiset.count_cons, starts]

theorem ends_cons (x : Interval) (present : Multiset Interval) (v : Nat) :
    ends (x ::ₘ present) v = ends present v + if v = x.right then 1 else 0 := by
  rw [ends, Multiset.map_cons, Multiset.count_cons, ends]

theorem uses_cons (x : Interval) (present : Multiset Interval) : uses (x ::ₘ present) = fun v =>
      (uses present v + if v = x.left then 1 else 0) + if v = x.right then 1 else 0 := by
  funext v
  simp only [uses, starts_cons, ends_cons]
  ring

theorem delta_cons (x : Interval) (present : Multiset Interval) : delta (x ::ₘ present) = fun v =>
      (delta present v + if v = x.left then 1 else 0) + if v = x.right then -1 else 0 := by
  funext v
  simp only [delta, starts_cons, ends_cons]
  split <;> split <;> push_cast <;> ring

theorem starts_le_card (present : Multiset Interval) (v : Nat) :
    starts present v ≤ present.card := by
  rw [starts, ← Multiset.card_map Interval.left present]
  exact Multiset.count_le_card _ _

theorem ends_le_card (present : Multiset Interval) (v : Nat) : ends present v ≤ present.card := by
  rw [ends, ← Multiset.card_map Interval.right present]
  exact Multiset.count_le_card _ _

theorem uses_le (present : Multiset Interval) (v : Nat) : uses present v ≤ 2 * present.card := by
  have := starts_le_card present v
  have := ends_le_card present v
  simp only [uses]
  omega

theorem delta_eq_zero_of_unused {present : Multiset Interval} {v : Nat}
    (unused : uses present v = 0) : delta present v = 0 := by
  simp only [uses, delta] at *
  omega

theorem uses_pos_iff {present : Multiset Interval} {v : Nat} :
    uses present v ≠ 0 ↔ ∃ x ∈ present, v = x.left ∨ v = x.right := by
  rw [uses, starts, ends, Ne, Nat.add_eq_zero_iff, Multiset.count_eq_zero, Multiset.count_eq_zero,
    Multiset.mem_map, Multiset.mem_map]
  constructor
  · intro used
    by_contra unused
    refine used ⟨?_, ?_⟩
    · intro ⟨x, member, left⟩
      exact unused ⟨x, member, .inl left.symm⟩
    · intro ⟨x, member, right⟩
      exact unused ⟨x, member, .inr right.symm⟩
  · intro ⟨x, member, endPoint⟩ ⟨noStart, noEnd⟩
    cases endPoint with
    | inl left => exact noStart ⟨x, member, left.symm⟩
    | inr right => exact noEnd ⟨x, member, right.symm⟩

/-- Over distinct points, the counts add up to the number of elements among them. -/
theorem sum_count_eq_countP (values : Multiset Nat) {points : List Nat} (nodup : points.Nodup) :
    (points.map fun v => (values.count v : Int)).sum = values.countP (· ∈ points) := by
  induction points with
  | nil => simp
  | cons p points ih =>
    obtain ⟨absent, nodup⟩ := List.nodup_cons.mp nodup
    rw [List.map_cons, List.sum_cons, ih nodup]
    norm_cast
    rw [Multiset.count, Multiset.countP_eq_card_filter, Multiset.countP_eq_card_filter,
      Multiset.countP_eq_card_filter, ← Multiset.card_add, Multiset.filter_add_filter]
    have disjoint : values.filter (fun a => p = a ∧ a ∈ points) = 0 :=
      Multiset.filter_eq_nil.mpr fun a _ ⟨same, member⟩ => absent (same ▸ member)
    rw [disjoint, Multiset.add_zero]
    congr 1
    exact Multiset.filter_congr fun a _ => by rw [List.mem_cons, eq_comm]

/-- Over distinct points, the deltas add up to the starts minus the ends among them. -/
theorem sum_delta (present : Multiset Interval) {points : List Nat} (nodup : points.Nodup) :
    (points.map (delta present)).sum =
      present.countP (·.left ∈ points) - present.countP (·.right ∈ points) := by
  have left := sum_count_eq_countP (present.map Interval.left) nodup
  have right := sum_count_eq_countP (present.map Interval.right) nodup
  rw [Multiset.countP_map, ← Multiset.countP_eq_card_filter] at left right
  rw [← left, ← right]
  clear left right nodup
  induction points with
  | nil => rfl
  | cons p points ih =>
    simp only [List.map_cons, List.sum_cons, ih, delta, starts, ends]
    ring

/-! ## Representation -/

/-- The tree holds the used end points, with these deltas and use counts. -/
structure Represents (t : Tree) (δ : Nat → Int) (n : Nat → Nat) : Prop where
  valid : Valid t
  sorted : SortedKeys (entries t)
  entry : ∀ v, find v (entries t) =
    if n v = 0 then none else some (BitVec.ofInt 32 (δ v), BitVec.ofNat 32 (n v))

theorem represents_nil : Represents .nil (delta 0) (uses 0) where
  valid := trivial
  sorted := List.Pairwise.nil
  entry := fun v => by simp [uses, starts, ends]

variable {t : Tree} {δ : Nat → Int} {n : Nat → Nat} {v : Nat} {s : Int}

theorem naClAvlTreeInsert_represents (rep : Represents t δ n) (unused : n v = 0 → δ v = 0) :
    ∃ t' higher, naClAvlTreeInsert (naClIntervalRangeTreeNodeInit v (BitVec.ofInt 32 s)) t =
        .ok (t', higher) ∧ Represents t' (fun u => δ u + if u = v then s else 0)
        (fun u => n u + if u = v then 1 else 0) := by
  obtain ⟨t', higher, result, inserted⟩ :=
    naClAvlTreeInsert_spec (fresh_init v (BitVec.ofInt 32 s)) t rep.valid rep.sorted
  refine ⟨t', higher, result, inserted.valid, ?_, fun u => ?_⟩
  · rw [inserted.entries_eq]
    exact rep.sorted.insertWith
  · rw [inserted.entries_eq, find_insertWith rep.sorted]
    simp only [naClIntervalRangeTreeNodeInit]
    by_cases here : u = v
    · subst here
      rw [if_pos rfl, rep.entry]
      by_cases zero : n u = 0
      · simp [zero, unused zero]
      · simp [zero, mergeUse, BitVec.ofInt_add, BitVec.ofNat_add]
    · simp [here, rep.entry]

/-- A use can be removed when it is there and the use count has not wrapped. -/
theorem naClIntervalRangeTreeRemoveVal_represents
    (rep : Represents t (fun u => δ u + if u = v then s else 0)
      (fun u => n u + if u = v then 1 else 0)) (bounded : n v + 1 < 2 ^ 32) :
    ∃ t', naClIntervalRangeTreeRemoveVal t v (BitVec.ofInt 32 s) = .ok t' ∧ Represents t' δ n := by
  have stored : find v (entries t) =
      some (BitVec.ofInt 32 (δ v + s), BitVec.ofNat 32 (n v + 1)) := by
    simpa using rep.entry v
  obtain ⟨t', p, changed, result, shrunk⟩ :=
    naClAvlTreeExtract_spec (naClIntervalRangeTreeNodeInit v (BitVec.ofInt 32 s)) t rep.valid
      rep.sorted (by simp [naClIntervalRangeTreeNodeInit, stored])
  refine ⟨t', ?_, shrunk.valid, ?_, fun u => ?_⟩
  · simp only [naClIntervalRangeTreeRemoveVal, result]
    rfl
  · rw [shrunk.entries_eq]
    exact rep.sorted.updateAt
  · rw [shrunk.entries_eq, find_updateAt rep.sorted]
    change (if u = v then (find v (entries t)).bind (dropUse (BitVec.ofInt 32 s)) else _) = _
    by_cases here : u = v
    · subst here
      have pred : BitVec.ofNat 32 (n u + 1) - 1 = BitVec.ofNat 32 (n u) := by
        rw [BitVec.ofNat_add]
        exact add_sub_cancel_right _ _
      have zero_iff : BitVec.ofNat 32 (n u) = 0 ↔ n u = 0 := by
        rw [← BitVec.toNat_inj, BitVec.toNat_ofNat, Nat.mod_eq_of_lt (by omega)]
        rfl
      rw [if_pos rfl, stored, Option.bind_some, dropUse, pred]
      by_cases zero : n u = 0
      · simp [zero]
      · rw [if_pos (fun isZero => zero (zero_iff.mp isZero)), if_neg zero, BitVec.ofInt_add,
          add_sub_cancel_right]
    · simp [here, rep.entry]

variable {present : Multiset Interval} {x : Interval}

/-- The tree represents the multiset of the present intervals. -/
abbrev Holds (t : Tree) (present : Multiset Interval) : Prop :=
  Represents t (delta present) (uses present)

theorem naClIntervalRangeTreeAddInterval_holds (holds : Holds t present) :
    ∃ t', naClIntervalRangeTreeAddInterval t x.left x.right = .ok t' ∧
      Holds t' (x ::ₘ present) := by
  obtain ⟨t₁, _, first, rep₁⟩ := naClAvlTreeInsert_represents (v := x.left) (s := 1) holds
    delta_eq_zero_of_unused
  obtain ⟨t₂, _, last, rep₂⟩ := naClAvlTreeInsert_represents (v := x.right) (s := -1) rep₁ (by
    intro unused
    have zero : uses present x.right = 0 := by omega
    rw [delta_eq_zero_of_unused zero]
    split at unused
    · omega
    · simp_all)
  refine ⟨t₂, ?_, ?_⟩
  · have first : naClAvlTreeInsert (naClIntervalRangeTreeNodeInit x.left 1) t = _ := first
    have last : naClAvlTreeInsert (naClIntervalRangeTreeNodeInit x.right (-1)) t₁ = _ := last
    simp only [naClIntervalRangeTreeAddInterval, first, bind, Except.bind, last]
  · rw [Holds, delta_cons, uses_cons]
    exact rep₂

theorem naClIntervalRangeTreeRemoveInterval_holds (holds : Holds t (x ::ₘ present))
    (few : present.card + 1 < 2 ^ 31) :
    ∃ t', naClIntervalRangeTreeRemoveInterval t x.left x.right = .ok t' ∧ Holds t' present := by
  rw [Holds, delta_cons, uses_cons] at holds
  have leftUses := uses_le present x.left
  have rightUses := uses_le present x.right
  obtain ⟨t₁, last, rep₁⟩ := naClIntervalRangeTreeRemoveVal_represents holds (by
    split <;> omega)
  obtain ⟨t₂, first, rep₂⟩ := naClIntervalRangeTreeRemoveVal_represents rep₁ (by omega)
  refine ⟨t₂, ?_, rep₂⟩
  have last : naClIntervalRangeTreeRemoveVal t x.right (-1) = _ := last
  have first : naClIntervalRangeTreeRemoveVal t₁ x.left 1 = _ := first
  simp only [naClIntervalRangeTreeRemoveInterval, last, bind, Except.bind, first]

end SandboxTEE.IntervalMultiset
