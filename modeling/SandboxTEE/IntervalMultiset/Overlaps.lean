import SandboxTEE.IntervalMultiset.TreeInvariant

/-! # Overlap queries of the range tree

The search for a point adds up the deltas of the end points to its left, which is the
number of present intervals around it, and finds the gap it lies in.  An interval meets
the present ones exactly when one of its ends is covered, or its ends lie in different
gaps; so every run gets from the tree the answers of the list and of the abstract
multiset.
-/

namespace SandboxTEE.IntervalMultiset

open Lib

/-! ## The gap of a point -/

/-- One more than the last point before `v`, or `leftRange` when there is none. -/
def gapLeft (points : List Nat) (leftRange v : Nat) : Nat :=
  match points with
  | [] => leftRange
  | p :: points => if v < p then leftRange else gapLeft points ((p + 1) % 2 ^ 32) v

variable {rest points : List Nat} {p leftRange : Nat}

theorem gapLeft_append_of_lt {v : Nat} (before : v < p) :
    gapLeft (points ++ p :: rest) leftRange v = gapLeft points leftRange v := by
  induction points generalizing leftRange with
  | nil => simp [gapLeft, before]
  | cons q points ih => simp only [List.cons_append, gapLeft, ih]

theorem gapLeft_append_of_gt {v : Nat} (behind : ∀ q ∈ points, q < v) (behindRoot : p < v) :
    gapLeft (points ++ p :: rest) leftRange v = gapLeft rest ((p + 1) % 2 ^ 32) v := by
  induction points generalizing leftRange with
  | nil => rw [List.nil_append, gapLeft, if_neg behindRoot.not_gt]
  | cons q points ih =>
    rw [List.cons_append, gapLeft, if_neg (behind q (by simp)).not_gt]
    exact ih fun r member => behind r (by simp [member])

theorem le_gapLeft {v : Nat} (sorted : points.Pairwise (· < ·)) (bounded : v < 2 ^ 32)
    (notLess : ∀ p ∈ points, leftRange ≤ p) (apart : v ∉ points) :
    leftRange ≤ gapLeft points leftRange v := by
  induction points generalizing leftRange with
  | nil => exact le_rfl
  | cons p points ih =>
    rw [List.pairwise_cons] at sorted
    rw [gapLeft]
    split
    · exact le_rfl
    · have differs : v ≠ p := fun same => apart (by simp [same])
      have wraps : (p + 1) % 2 ^ 32 = p + 1 := Nat.mod_eq_of_lt (by omega)
      have here : leftRange ≤ p := notLess p (by simp)
      have behind : (p + 1) % 2 ^ 32 ≤ gapLeft points ((p + 1) % 2 ^ 32) v := by
        refine ih sorted.2 (fun q member => ?_) fun member => apart (by simp [member])
        have := sorted.1 q member
        omega
      omega

/-- Two points lie in the same gap when no point separates them. -/
theorem gapLeft_eq_iff {u v : Nat} (sorted : points.Pairwise (· < ·)) (ordered : u ≤ v)
    (bounded : v < 2 ^ 32) (notLess : ∀ p ∈ points, leftRange ≤ p) (apartU : u ∉ points)
    (apartV : v ∉ points) : gapLeft points leftRange u = gapLeft points leftRange v ↔
      ∀ p ∈ points, p < u ∨ v < p := by
  induction points generalizing leftRange with
  | nil => simp [gapLeft]
  | cons p points ih =>
    rw [List.pairwise_cons] at sorted
    have differsU : u ≠ p := fun same => apartU (by simp [same])
    have differsV : v ≠ p := fun same => apartV (by simp [same])
    have apartU' : u ∉ points := fun member => apartU (by simp [member])
    have apartV' : v ∉ points := fun member => apartV (by simp [member])
    rw [gapLeft, gapLeft]
    by_cases afterV : v < p
    · -- both before the first point
      rw [if_pos (by omega), if_pos afterV]
      refine ⟨fun _ q member => ?_, fun _ => rfl⟩
      cases List.mem_cons.mp member with
      | inl head => exact .inr (head ▸ afterV)
      | inr inTail => exact .inr (afterV.trans (sorted.1 q inTail))
    · have wraps : (p + 1) % 2 ^ 32 = p + 1 := Nat.mod_eq_of_lt (by omega)
      have notLess' : ∀ q ∈ points, (p + 1) % 2 ^ 32 ≤ q := by
        intro q member
        have := sorted.1 q member
        omega
      rw [if_neg afterV]
      by_cases afterU : u < p
      · -- the first point separates them
        have greater := le_gapLeft sorted.2 bounded notLess' apartV'
        have here := notLess p (by simp)
        rw [if_pos afterU]
        constructor
        · intro same
          omega
        · intro separated
          have := separated p (by simp)
          omega
      · rw [if_neg afterU, ih sorted.2 notLess' apartU' apartV']
        simp only [List.mem_cons, forall_eq_or_imp]
        exact ⟨fun rest => ⟨.inl (by omega), rest⟩, fun both => both.2⟩

/-! ## The search -/

variable {δ : Nat → Int} {t : Tree} {v : Nat}

theorem naClAvlTreeFindValue_of_mem (sorted : (values t).Pairwise (· < ·)) (member : v ∈ values t)
    (leftDelta : BitVec 32) (leftRange : Nat) :
    (naClAvlTreeFindValue t leftDelta leftRange v).1 ≠ 0 := by
  induction t generalizing leftDelta leftRange with
  | nil => cases member
  | node d l r leftIh rightIh =>
    rw [values_node, List.pairwise_append, List.pairwise_cons] at sorted
    obtain ⟨sortedL, ⟨above, sortedR⟩, between⟩ := sorted
    rw [values_node, List.mem_append, List.mem_cons] at member
    rw [naClAvlTreeFindValue]
    by_cases less : v < d.value
    · rw [if_pos less]
      refine leftIh sortedL ?_ _ _
      obtain inLeft | root | inRight := member
      · exact inLeft
      · omega
      · exact absurd (above v inRight) less.not_gt
    · rw [if_neg less]
      by_cases same : v = d.value
      · rw [if_pos same]
        simp only
        split
        · decide
        · assumption
      · rw [if_neg same]
        refine rightIh sortedR ?_ _ _
        obtain inLeft | root | inRight := member
        · have := between v inLeft d.value (by simp)
          omega
        · exact absurd root same
        · exact inRight

/-- Between the end points, the search adds up the deltas to the left and finds the gap. -/
theorem naClAvlTreeFindValue_of_not_mem (valid : Valid t)
    (sorted : (values t).Pairwise (· < ·)) (deltas : DeltasAre δ t) (apart : v ∉ values t)
    (leftDelta : BitVec 32) (leftRange : Nat) : naClAvlTreeFindValue t leftDelta leftRange v =
      (leftDelta + BitVec.ofInt 32 (((values t).filter (· < v)).map δ).sum,
        some (gapLeft (values t) leftRange v)) := by
  induction t generalizing leftDelta leftRange with
  | nil => simp [naClAvlTreeFindValue, gapLeft]
  | node d l r leftIh rightIh =>
    obtain ⟨-, validL, validR⟩ := valid_node.mp valid
    obtain ⟨deltasL, root, deltasR⟩ := deltasAre_node.mp deltas
    rw [values_node, List.pairwise_append, List.pairwise_cons] at sorted
    obtain ⟨sortedL, ⟨above, sortedR⟩, between⟩ := sorted
    simp only [values_node, List.mem_append, List.mem_cons, not_or] at apart
    obtain ⟨apartL, differs, apartR⟩ := apart
    rw [naClAvlTreeFindValue, values_node, List.filter_append, List.filter_cons]
    by_cases less : v < d.value
    · have noneRight : (values r).filter (· < v) = [] := by
        refine List.filter_eq_nil_iff.mpr fun w member => ?_
        have := above w member
        simp only [decide_eq_true_eq]
        omega
      rw [if_pos less, leftIh validL sortedL deltasL apartL, gapLeft_append_of_lt less, noneRight,
        if_neg (by simpa using less.le), List.append_nil]
    · have greater : d.value < v := by omega
      have behind : ∀ w ∈ values l, w < v := fun w member =>
        (between w member d.value (by simp)).trans greater
      have allLeft : (values l).filter (· < v) = values l :=
        List.filter_eq_self.mpr fun w member => by simpa using behind w member
      rw [if_neg less, if_neg differs, rightIh validR sortedR deltasR apartR,
        gapLeft_append_of_gt behind greater, allLeft, if_pos (by simpa using greater),
        subtreeDelta_eq validL deltasL, root, List.map_append, List.map_cons, List.sum_append,
        List.sum_cons, BitVec.ofInt_add, BitVec.ofInt_add]
      simp only [add_assoc]

/-! ## Containment -/

/-- Some present interval contains the point. -/
def Covers (present : Multiset Interval) (v : Nat) : Prop :=
  ∃ x ∈ present, x.left ≤ v ∧ v ≤ x.right

variable {present : Multiset Interval}

/-- Starts minus ends on the left of a point: the intervals that reach across it. -/
theorem countP_left_sub_right (ordered : ∀ x ∈ present, x.left ≤ x.right) (v : Nat) :
    (present.countP (·.left < v) : Int) - present.countP (·.right < v) =
      present.countP fun x => x.left < v ∧ v ≤ x.right := by
  induction present using Multiset.induction with
  | empty => rfl
  | cons x present ih =>
    have here := ordered x (Multiset.mem_cons_self x present)
    have rest := ih fun y member => ordered y (Multiset.mem_cons_of_mem member)
    simp only [Multiset.countP_cons]
    push_cast
    split_ifs <;> omega

/-- The count of a search from the root is zero exactly outside of the intervals, and
    then the search tells the gap. -/
theorem naClAvlTreeFindValue_root (holds : Holds t present) (few : present.card < 2 ^ 31)
    (ordered : ∀ x ∈ present, x.left ≤ x.right) (v : Nat) :
    ((naClAvlTreeFindValue t 0 0 v).1 ≠ 0 ↔ Covers present v) ∧ (¬Covers present v → v ∉ values t ∧
      (naClAvlTreeFindValue t 0 0 v).2 = some (gapLeft (values t) 0 v)) := by
  have invariant := holds.invariant few
  by_cases member : v ∈ values t
  · have covered : Covers present v := by
      obtain ⟨x, memberX, endPoint⟩ := (invariant.endPoints v).mp member
      have := ordered x memberX
      exact ⟨x, memberX, by omega, by omega⟩
    exact ⟨iff_of_true (naClAvlTreeFindValue_of_mem invariant.searchTree member _ _) covered,
      fun uncovered => absurd covered uncovered⟩
  · have deltas : DeltasAre (delta present) t := by
      intro d inTree
      rw [← BitVec.toInt_inj, invariant.containmentDeltas d inTree]
      have single := toInt_sum_delta few (List.nodup_singleton d.value)
      simpa using single.symm
    have found := naClAvlTreeFindValue_of_not_mem holds.valid invariant.searchTree deltas member 0 0
    have nodup : ((values t).filter (· < v)).Nodup :=
      (values_nodup holds.sorted).filter _
    have left : present.countP (·.left ∈ (values t).filter (· < v)) =
        present.countP (·.left < v) := by
      refine Multiset.countP_congr rfl fun x memberX => ?_
      have := (invariant.endPoints x.left).mpr ⟨x, memberX, .inl rfl⟩
      simp [List.mem_filter, this]
    have right : present.countP (·.right ∈ (values t).filter (· < v)) =
        present.countP (·.right < v) := by
      refine Multiset.countP_congr rfl fun x memberX => ?_
      have := (invariant.endPoints x.right).mpr ⟨x, memberX, .inr rfl⟩
      simp [List.mem_filter, this]
    have sum : (((values t).filter (· < v)).map (delta present)).sum =
        present.countP fun x => x.left < v ∧ v ≤ x.right := by
      rw [sum_delta present nodup, left, right, countP_left_sub_right ordered]
    have count_iff : present.countP (fun x => x.left < v ∧ v ≤ x.right) ≠ 0 ↔
        Covers present v := by
      rw [← Nat.pos_iff_ne_zero, Multiset.countP_pos]
      constructor
      · intro ⟨x, memberX, before, behind⟩
        exact ⟨x, memberX, before.le, behind⟩
      · intro ⟨x, memberX, before, behind⟩
        have differs : x.left ≠ v := fun same =>
          member (same ▸ (invariant.endPoints x.left).mpr ⟨x, memberX, .inl rfl⟩)
        exact ⟨x, memberX, by omega, behind⟩
    have word := toInt_sum_delta few nodup
    rw [found]
    refine ⟨?_, fun _ => ⟨member, rfl⟩⟩
    rw [← count_iff, zero_add, Ne, Ne, ← BitVec.toInt_inj, word, sum]
    simp

/-- A query answers whether some present interval meets the given one. -/
theorem naClIntervalRangeTreeOverlapsWith_eq (holds : Holds t present)
    (few : present.card < 2 ^ 31) (ordered : ∀ x ∈ present, x.left ≤ x.right) {x : Interval}
    (proper : x.Proper) :
    naClIntervalRangeTreeOverlapsWith t x.left x.right = decide (Meets present x) := by
  obtain ⟨countL, gapL⟩ := naClAvlTreeFindValue_root holds few ordered x.left
  obtain ⟨countR, gapR⟩ := naClAvlTreeFindValue_root holds few ordered x.right
  have := proper.ordered
  simp only [naClIntervalRangeTreeOverlapsWith]
  by_cases coveredL : Covers present x.left
  · obtain ⟨y, memberY, before, behind⟩ := coveredL
    have meets : Meets present x := ⟨y, memberY, by omega, behind⟩
    rw [if_pos (countL.mpr ⟨y, memberY, before, behind⟩), decide_eq_true meets]
  · rw [if_neg fun nonzero => coveredL (countL.mp nonzero)]
    by_cases coveredR : Covers present x.right
    · obtain ⟨y, memberY, before, behind⟩ := coveredR
      have meets : Meets present x := ⟨y, memberY, before, by omega⟩
      rw [if_pos (countR.mpr ⟨y, memberY, before, behind⟩), decide_eq_true meets]
    · rw [if_neg fun nonzero => coveredR (countR.mp nonzero)]
      obtain ⟨apartL, gapL⟩ := gapL coveredL
      obtain ⟨apartR, gapR⟩ := gapR coveredR
      have invariant := holds.invariant few
      have gaps := gapLeft_eq_iff invariant.searchTree proper.ordered proper.bounded
        (fun p _ => p.zero_le) apartL apartR
      -- a present interval that meets the query lies inside of it
      have separated : (∀ p ∈ values t, p < x.left ∨ x.right < p) ↔ ¬Meets present x := by
        constructor
        · intro outside ⟨y, memberY, before, behind⟩
          have leftEnd := outside y.left ((invariant.endPoints _).mpr ⟨y, memberY, .inl rfl⟩)
          have notLeft : ¬(y.left ≤ x.left ∧ x.left ≤ y.right) := fun both =>
            coveredL ⟨y, memberY, both⟩
          omega
        · intro disjoint p member
          obtain ⟨y, memberY, endPoint⟩ := (invariant.endPoints p).mp member
          have orderedY := ordered y memberY
          by_contra inside
          exact disjoint ⟨y, memberY, by omega, by omega⟩
      rw [gapL, gapR]
      by_cases meets : Meets present x
      · have differ : gapLeft (values t) 0 x.left ≠ gapLeft (values t) 0 x.right :=
          fun same => separated.mp (gaps.mp same) meets
        rw [if_neg fun same => differ (Option.some.inj same), decide_eq_true meets]
      · rw [if_pos (congrArg some (gaps.mpr (separated.mpr meets))), decide_eq_false meets]

/-! ## Runs -/

/-- The tree represents the present intervals, which are closed intervals of `uint32_t`,
    and has given the answers of the multiset. -/
structure TreeAnswers (s : Tree × List Bool) (t : Spec) : Prop where
  holds : TreeHolds s t
  proper : ∀ x ∈ t.1, x.Proper
  answers_eq : s.2 = t.2

theorem rangeTree_step_answers {s : Tree × List Bool} {t : Spec} {op : Op}
    (related : TreeAnswers s t) (allowed : t.Allowed op ∧ op.Proper) :
    ∃ s', kNaClIntervalRangeTreeVtbl.step s op = .ok s' ∧ TreeAnswers s' (t.step op) := by
  obtain ⟨s', stepped, holds'⟩ := rangeTree_step_holds related.holds allowed.1
  refine ⟨s', stepped, holds', ?_, ?_⟩
  · intro y member
    cases op with
    | addInterval x =>
      cases Multiset.mem_cons.mp member with
      | inl new => exact new ▸ allowed.2
      | inr old => exact related.proper y old
    | removeInterval x => exact related.proper y (Multiset.mem_of_mem_erase member)
    | overlapsWith x => exact related.proper y member
  · have answers_eq := related.answers_eq
    cases op with
    | addInterval x =>
      simp only [NaClIntervalMultisetVtbl.step, bind, Except.bind] at stepped
      split at stepped
      · cases stepped
      · cases stepped
        exact answers_eq
    | removeInterval x =>
      simp only [NaClIntervalMultisetVtbl.step, bind, Except.bind] at stepped
      split at stepped
      · cases stepped
      · cases stepped
        exact answers_eq
    | overlapsWith x =>
      cases stepped
      obtain ⟨holds, few⟩ := related.holds
      have answer := naClIntervalRangeTreeOverlapsWith_eq holds few
        (fun y member => (related.proper y member).ordered) allowed.2
      simp only [kNaClIntervalRangeTreeVtbl, Spec.step, answer, answers_eq]

/-- On every sequence of calls on closed intervals, fewer than `2^31` of them present at
    once, the tree and the list run without failing and give the same answers, those of
    the abstract multiset. -/
theorem rangeTree_agrees_with_list (ops : List Op)
    (admitted : Admitted Spec.step (fun s op => s.Allowed op ∧ op.Proper) (0, []) ops) :
    ∃ root intervals,
      ops.foldlM kNaClIntervalRangeTreeVtbl.step (.nil, []) =
        .ok (root, (ops.foldl Spec.step (0, [])).2) ∧
      ops.foldlM kNaClIntervalListMultisetVtbl.step ([], []) =
        .ok (intervals, (ops.foldl Spec.step (0, [])).2) := by
  have treeStart : TreeAnswers (.nil, []) (0, []) := ⟨treeHolds_init, by simp, rfl⟩
  have listStart : ListHolds ([], []) (0, []) := ⟨rfl, rfl⟩
  obtain ⟨⟨root, answers⟩, treeRun, treeAnswers⟩ :=
    foldlM_refines (P := fun s op => Spec.Allowed s op ∧ op.Proper) (f := Spec.step)
      (fun _ _ _ => rangeTree_step_answers) ops _ _ treeStart admitted
  obtain ⟨⟨intervals, answers'⟩, listRun, -, listAnswers⟩ :=
    foldlM_refines (P := fun s op => Spec.Allowed s op ∧ op.Proper) (f := Spec.step)
      (fun _ _ _ holds allowed => list_step_refines holds allowed.1) ops _ _ listStart admitted
  have same := treeAnswers.answers_eq
  simp only at same listAnswers
  exact ⟨root, intervals, same ▸ treeRun, listAnswers ▸ listRun⟩

theorem rangeTree_agrees_with_list_gap :
    ∃ root intervals,
      [Op.addInterval ⟨1, 5⟩, .addInterval ⟨8, 4294967295⟩, .overlapsWith ⟨6, 7⟩,
        .overlapsWith ⟨0, 8⟩].foldlM kNaClIntervalRangeTreeVtbl.step (.nil, []) =
        .ok (root, [false, true]) ∧
      [Op.addInterval ⟨1, 5⟩, .addInterval ⟨8, 4294967295⟩, .overlapsWith ⟨6, 7⟩,
        .overlapsWith ⟨0, 8⟩].foldlM kNaClIntervalListMultisetVtbl.step ([], []) =
        .ok (intervals, [false, true]) :=
  rangeTree_agrees_with_list [.addInterval ⟨1, 5⟩, .addInterval ⟨8, 4294967295⟩,
    .overlapsWith ⟨6, 7⟩, .overlapsWith ⟨0, 8⟩]
    ⟨⟨by decide, by decide, by decide⟩, ⟨by decide, by decide, by decide⟩,
      ⟨by decide, by decide, by decide⟩, ⟨by decide, by decide, by decide⟩, trivial⟩

end SandboxTEE.IntervalMultiset
