import SandboxTEE.IntervalMultiset.Representation

/-! # The invariant of the range tree along runs

A valid, sorted tree has in every node the least and greatest value of its subtree and
the sum of its deltas.  So in every run of fewer than `2^31` present intervals the tree
is an AVL search tree over the end points in use, all of whose fields say what they are
meant to say, and no removal of a present interval fails.  The bound is needed: use
counts are 32-bit words, and they wrap.
-/

namespace SandboxTEE.IntervalMultiset

open Lib

def values (t : Tree) : List Nat := (inorder t).map NodeData.value

@[simp] theorem values_nil : values .nil = [] := rfl

@[simp] theorem values_node (d : NodeData) (l r : Tree) :
    values (.node d l r) = values l ++ d.value :: values r := by simp [values]

theorem keys_entries (t : Tree) : (entries t).map Prod.fst = values t := by
  simp [entries, values, NodeData.entry]

variable {t : Tree}

theorem sorted_iff : SortedKeys (entries t) ↔ (values t).Pairwise (· < ·) := by
  rw [← keys_entries, List.pairwise_map]
  rfl

theorem values_nodup (sorted : SortedKeys (entries t)) : (values t).Nodup :=
  (sorted_iff.mp sorted).imp fun less => less.ne

/-- The deltas at the nodes of a tree, as words. -/
def DeltasAre (δ : Nat → Int) (t : Tree) : Prop :=
  ∀ d ∈ inorder t, d.valueContainmentDelta = BitVec.ofInt 32 (δ d.value)

variable {δ : Nat → Int}

variable {d : NodeData} {l r : Tree}

theorem deltasAre_node : DeltasAre δ (.node d l r) ↔
      DeltasAre δ l ∧ d.valueContainmentDelta = BitVec.ofInt 32 (δ d.value) ∧ DeltasAre δ r := by
  simp only [DeltasAre, inorder_node, List.mem_append, List.mem_cons]
  constructor
  · intro all
    exact ⟨fun e inLeft => all e (.inl inLeft), all d (.inr (.inl rfl)),
      fun e inRight => all e (.inr (.inr inRight))⟩
  · rintro ⟨left, root, right⟩ e (inLeft | rfl | inRight)
    · exact left e inLeft
    · exact root
    · exact right e inRight

/-- The cumulative delta of a subtree is the sum of its deltas. -/
theorem subtreeDelta_eq (valid : Valid t) (deltas : DeltasAre δ t) :
    subtreeDelta t = BitVec.ofInt 32 ((values t).map δ).sum := by
  induction t with
  | nil => rfl
  | node d l r leftIh rightIh =>
    obtain ⟨⟨-, stats⟩, validL, validR⟩ := valid_node.mp valid
    obtain ⟨deltasL, root, deltasR⟩ := deltasAre_node.mp deltas
    have sum : d.subtreeContainmentDelta =
        d.valueContainmentDelta + subtreeDelta l + subtreeDelta r :=
      (congrArg NodeData.subtreeContainmentDelta stats).symm
    rw [subtreeDelta, sum, root, leftIh validL deltasL, rightIh validR deltasR, values_node,
      List.map_append, List.sum_append, List.map_cons, List.sum_cons, ← BitVec.ofInt_add,
      ← BitVec.ofInt_add]
    congr 1
    ring

theorem rangeLeft_isLeast (valid : Valid (.node d l r))
    (sorted : (values (.node d l r)).Pairwise (· < ·)) :
    IsLeast {v | v ∈ values (.node d l r)} d.rangeLeft := by
  induction l generalizing d r with
  | nil =>
    have left_eq : d.rangeLeft = d.value :=
      (congrArg NodeData.rangeLeft (valid_node.mp valid).1.2).symm
    rw [values_node, values_nil, List.nil_append, List.pairwise_cons] at sorted
    refine ⟨by simp [left_eq], fun v member => ?_⟩
    simp only [values_node, values_nil, List.nil_append, List.mem_cons,
      Set.mem_ofPred_eq] at member
    cases member with
    | inl root => exact (left_eq.trans root.symm).le
    | inr inRight => exact left_eq ▸ (sorted.1 v inRight).le
  | node e ll lr leftIh rightIh =>
    obtain ⟨⟨-, stats⟩, validL, -⟩ := valid_node.mp valid
    have left_eq : d.rangeLeft = e.rangeLeft := (congrArg NodeData.rangeLeft stats).symm
    rw [values_node d, List.pairwise_append, List.pairwise_cons] at sorted
    obtain ⟨sortedL, ⟨above, -⟩, between⟩ := sorted
    obtain ⟨memberL, least⟩ := leftIh validL sortedL
    have belowRoot : e.rangeLeft < d.value := between _ memberL _ (by simp)
    rw [left_eq]
    refine ⟨?_, fun v member => ?_⟩
    · rw [Set.mem_ofPred_eq, values_node d]
      exact List.mem_append_left _ memberL
    · simp only [values_node d, List.mem_append, List.mem_cons, Set.mem_ofPred_eq] at member
      obtain inLeft | root | inRight := member
      · exact least inLeft
      · exact root ▸ belowRoot.le
      · exact (belowRoot.trans (above v inRight)).le

theorem rangeRight_isGreatest (valid : Valid (.node d l r))
    (sorted : (values (.node d l r)).Pairwise (· < ·)) :
    IsGreatest {v | v ∈ values (.node d l r)} d.rangeRight := by
  induction r generalizing d l with
  | nil =>
    have right_eq : d.rangeRight = d.value :=
      (congrArg NodeData.rangeRight (valid_node.mp valid).1.2).symm
    rw [values_node, List.pairwise_append] at sorted
    refine ⟨by simp [right_eq], fun v member => ?_⟩
    simp only [values_node, values_nil, List.mem_append, List.mem_singleton,
      Set.mem_ofPred_eq] at member
    cases member with
    | inl inLeft => exact right_eq ▸ (sorted.2.2 v inLeft _ (by simp)).le
    | inr root => exact (root.trans right_eq.symm).le
  | node e rl rr leftIh rightIh =>
    obtain ⟨⟨-, stats⟩, -, validR⟩ := valid_node.mp valid
    have right_eq : d.rangeRight = e.rangeRight := (congrArg NodeData.rangeRight stats).symm
    rw [values_node d, List.pairwise_append, List.pairwise_cons] at sorted
    obtain ⟨-, ⟨above, sortedR⟩, between⟩ := sorted
    obtain ⟨memberR, greatest⟩ := rightIh validR sortedR
    have aboveRoot : d.value < e.rangeRight := above _ memberR
    rw [right_eq]
    refine ⟨?_, fun v member => ?_⟩
    · rw [Set.mem_ofPred_eq, values_node d]
      exact List.mem_append_right _ (List.mem_cons_of_mem _ memberR)
    · simp only [values_node d, List.mem_append, List.mem_cons, Set.mem_ofPred_eq] at member
      obtain inLeft | root | inRight := member
      · exact ((between v inLeft _ (by simp)).trans aboveRoot).le
      · exact root ▸ aboveRoot.le
      · exact greatest inRight

/-- What holds at the root of every valid and sorted tree holds at every node of one. -/
theorem everywhere_of_valid {Q : NodeData → Tree → Tree → Prop}
    (root : ∀ d l r, Valid (.node d l r) → (values (.node d l r)).Pairwise (· < ·) →
      DeltasAre δ (.node d l r) → Q d l r) (valid : Valid t) (sorted : (values t).Pairwise (· < ·))
    (deltas : DeltasAre δ t) : Everywhere Q t := by
  induction t with
  | nil => trivial
  | node d l r leftIh rightIh =>
    obtain ⟨-, validL, validR⟩ := valid_node.mp valid
    obtain ⟨deltasL, -, deltasR⟩ := deltasAre_node.mp deltas
    obtain ⟨sortedL, sortedRest, -⟩ := List.pairwise_append.mp (values_node d l r ▸ sorted)
    exact ⟨root d l r valid sorted deltas, leftIh validL sortedL deltasL,
      rightIh validR (List.pairwise_cons.mp sortedRest).2 deltasR⟩

/-! ## The invariant -/

/-- What the fields of the tree say about the present intervals. -/
structure RangeTreeInvariant (t : Tree) (present : Multiset Interval) : Prop where
  searchTree : (values t).Pairwise (· < ·)
  endPoints : ∀ v, v ∈ values t ↔ ∃ x ∈ present, v = x.left ∨ v = x.right
  balanced : Everywhere Balanced t
  refcounts : ∀ d ∈ inorder t, d.refcount.toNat = uses present d.value
  containmentDeltas : ∀ d ∈ inorder t, d.valueContainmentDelta.toInt = delta present d.value
  cumulative : Everywhere (fun d l r =>
    IsLeast {v | v ∈ values (.node d l r)} d.rangeLeft ∧
    IsGreatest {v | v ∈ values (.node d l r)} d.rangeRight ∧
    d.subtreeContainmentDelta.toInt = ((values (.node d l r)).map (delta present)).sum) t

/-- A 32-bit word reads back a sum of deltas of fewer than `2^31` intervals. -/
theorem toInt_sum_delta {present : Multiset Interval} (few : present.card < 2 ^ 31)
    {points : List Nat} (nodup : points.Nodup) :
    (BitVec.ofInt 32 (points.map (delta present)).sum).toInt =
      (points.map (delta present)).sum := by
  have left := Multiset.countP_le_card (fun x : Interval => x.left ∈ points) present
  have right := Multiset.countP_le_card (fun x : Interval => x.right ∈ points) present
  have sum := sum_delta present nodup
  refine BitVec.toInt_ofInt_eq_self (by decide) ?_ ?_ <;> omega

theorem Holds.invariant {present : Multiset Interval} (holds : Holds t present)
    (few : present.card < 2 ^ 31) : RangeTreeInvariant t present := by
  have sorted := sorted_iff.mp holds.sorted
  have stored : ∀ d ∈ inorder t, uses present d.value ≠ 0 ∧
      d.valueContainmentDelta = BitVec.ofInt 32 (delta present d.value) ∧
      d.refcount = BitVec.ofNat 32 (uses present d.value) := by
    intro d member
    have found := find_eq_some_of_mem holds.sorted (List.mem_map_of_mem member)
    rw [NodeData.entry, holds.entry] at found
    split at found
    · cases found
    · rename_i used
      simp only [Option.some.injEq, Prod.mk.injEq] at found
      exact ⟨used, found.1.symm, found.2.symm⟩
  have deltas : DeltasAre (delta present) t := fun d member => (stored d member).2.1
  refine ⟨sorted, fun v => ?_, ?_, fun d member => ?_, fun d member => ?_, ?_⟩
  · rw [← uses_pos_iff, ← keys_entries, ← find_isSome_iff, holds.entry]
    split <;> simp_all
  · exact holds.valid.mono fun d l r ok _ _ => ok.1
  · have bound := uses_le present d.value
    rw [(stored d member).2.2, BitVec.toNat_ofNat, Nat.mod_eq_of_lt (by omega)]
  · have single := toInt_sum_delta few (List.nodup_singleton d.value)
    simp only [List.map_cons, List.map_nil, List.sum_cons, List.sum_nil, add_zero] at single
    rw [(stored d member).2.1, single]
  · refine everywhere_of_valid (fun d l r valid sorted deltas => ?_) holds.valid sorted deltas
    refine ⟨rangeLeft_isLeast valid sorted, rangeRight_isGreatest valid sorted, ?_⟩
    have sum := subtreeDelta_eq valid deltas
    rw [subtreeDelta] at sum
    rw [sum, toInt_sum_delta few (sorted.imp fun less => less.ne)]

/-! ## Runs -/

/-- The tree of a state represents the present intervals, few enough to be counted. -/
def TreeHolds (s : Tree × List Bool) (t : Spec) : Prop :=
  Holds s.1 t.1 ∧ t.1.card < 2 ^ 31

theorem treeHolds_init : TreeHolds (.nil, []) (0, []) := ⟨represents_nil, by simp⟩

theorem rangeTree_step_holds {s : Tree × List Bool} {t : Spec} {op : Op}
    (holds : TreeHolds s t) (allowed : t.Allowed op) :
    ∃ s', kNaClIntervalRangeTreeVtbl.step s op = .ok s' ∧ TreeHolds s' (t.step op) := by
  obtain ⟨root, answers⟩ := s
  obtain ⟨present, answers'⟩ := t
  obtain ⟨holds, few⟩ := holds
  cases op with
  | addInterval x =>
    obtain ⟨root', added, holds'⟩ := naClIntervalRangeTreeAddInterval_holds (x := x) holds
    refine ⟨(root', answers), ?_, holds', ?_⟩
    · simp only [NaClIntervalMultisetVtbl.step, kNaClIntervalRangeTreeVtbl, added]
      rfl
    · simp only [Spec.step, Multiset.card_cons]
      exact allowed
  | removeInterval x =>
    have present_eq := Multiset.cons_erase allowed
    have card_eq := Multiset.card_erase_add_one allowed
    simp only at present_eq card_eq few holds
    rw [← present_eq] at holds
    obtain ⟨root', removed, holds'⟩ := naClIntervalRangeTreeRemoveInterval_holds holds (by omega)
    refine ⟨(root', answers), ?_, holds', ?_⟩
    · simp only [NaClIntervalMultisetVtbl.step, kNaClIntervalRangeTreeVtbl, removed]
      rfl
    · simp only [Spec.step]
      omega
  | overlapsWith x => exact ⟨_, rfl, holds, few⟩

/-- After every sequence of calls that keeps fewer than `2^31` intervals, the invariant
    holds, and a present interval can be removed. -/
theorem rangeTree_invariant (ops : List Op)
    (admitted : Admitted Spec.step Spec.Allowed (0, []) ops) :
    ∃ root answers,
      ops.foldlM kNaClIntervalRangeTreeVtbl.step (.nil, []) = .ok (root, answers) ∧
      RangeTreeInvariant root (ops.foldl Spec.step (0, [])).1 ∧
      ∀ x ∈ (ops.foldl Spec.step (0, [])).1,
        ∃ root', kNaClIntervalRangeTreeVtbl.removeInterval root x.left x.right = .ok root' := by
  obtain ⟨⟨root, answers⟩, run, holds, few⟩ :=
    foldlM_refines (fun _ _ _ => rangeTree_step_holds) ops _ _ treeHolds_init admitted
  refine ⟨root, answers, run, holds.invariant few, fun x member => ?_⟩
  have card_eq := Multiset.card_erase_add_one member
  rw [← Multiset.cons_erase member] at holds
  obtain ⟨root', removed, -⟩ := naClIntervalRangeTreeRemoveInterval_holds holds (by omega)
  exact ⟨root', removed⟩

theorem rangeTree_invariant_nested :
    ∃ root answers,
      [Op.addInterval ⟨1, 5⟩, .addInterval ⟨5, 9⟩, .removeInterval ⟨1, 5⟩].foldlM
        kNaClIntervalRangeTreeVtbl.step (.nil, []) = .ok (root, answers) ∧
      RangeTreeInvariant root {⟨5, 9⟩} := by
  obtain ⟨root, answers, run, invariant, -⟩ :=
    rangeTree_invariant [.addInterval ⟨1, 5⟩, .addInterval ⟨5, 9⟩, .removeInterval ⟨1, 5⟩]
      ⟨by decide, by decide, by decide, trivial⟩
  exact ⟨root, answers, run, invariant⟩

/-! ## Without a bound on the number of intervals -/

/-- The tree of a single end point, `0`, used `c` times, as often as a start as as an end. -/
def pointTree (c : BitVec 32) : Tree :=
  .node ⟨0, 0, 0, c, 0, 0, 0⟩ .nil .nil

theorem pointTree_add (c : BitVec 32) :
    naClIntervalRangeTreeAddInterval (pointTree c) 0 0 = .ok (pointTree (c + 2)) := by
  have twice : c + 1#32 + 1#32 = c + 2#32 := by
    rw [add_assoc]
    rfl
  simp [naClIntervalRangeTreeAddInterval, pointTree, naClAvlTreeInsert,
    naClIntervalRangeTreeNodeInit, bind, Except.bind, twice]

/-- Every addition of `[0, 0]` counts two uses. -/
theorem pointTree_addMany (c : BitVec 32) (n : Nat) :
    (List.replicate n (Op.addInterval ⟨0, 0⟩)).foldlM kNaClIntervalRangeTreeVtbl.step
      (pointTree c, []) = .ok (pointTree (c + BitVec.ofNat 32 (2 * n)), []) := by
  induction n generalizing c with
  | zero => simp [pure, Except.pure]
  | succ n ih =>
    have stepped : kNaClIntervalRangeTreeVtbl.step (pointTree c, []) (.addInterval ⟨0, 0⟩) =
        .ok (pointTree (c + 2), []) := by
      simp only [NaClIntervalMultisetVtbl.step, kNaClIntervalRangeTreeVtbl, pointTree_add]
      rfl
    rw [List.replicate_succ, List.foldlM_cons, stepped]
    refine (ih (c + 2)).trans ?_
    have sum : c + 2 + BitVec.ofNat 32 (2 * n) = c + BitVec.ofNat 32 (2 * (n + 1)) := by
      rw [Nat.mul_add, BitVec.ofNat_add, add_comm (BitVec.ofNat 32 (2 * n)), ← add_assoc]
      rfl
    rw [sum]

/-- A call that removes only a present interval. -/
def Spec.ValidRemoval (s : Spec) : Op → Prop
  | .removeInterval x => x ∈ s.1
  | _ => True

theorem admitted_addMany (x : Interval) (rest : List Op) (present : Multiset Interval)
    (answers : List Bool) (n : Nat) (after : Admitted Spec.step Spec.ValidRemoval
      (Multiset.replicate n x + present, answers) rest) :
    Admitted Spec.step Spec.ValidRemoval (present, answers)
      (List.replicate n (.addInterval x) ++ rest) := by
  induction n generalizing present with
  | zero => simpa using after
  | succ n ih =>
    refine ⟨trivial, ih (x ::ₘ present) ?_⟩
    rw [Multiset.add_cons, ← Multiset.cons_add, ← Multiset.replicate_succ]
    exact after

/-- When `2n` is a multiple of the word size, `n + 1` additions of `[0, 0]` leave a use
    count of two, and the second removal does not find the node. -/
theorem removal_fails_of_wrap (n : Nat) (positive : 0 < n) (wraps : BitVec.ofNat 32 (2 * n) = 0) :
    Admitted Spec.step Spec.ValidRemoval (0, []) (List.replicate (n + 1) (.addInterval ⟨0, 0⟩) ++
        [.removeInterval ⟨0, 0⟩, .removeInterval ⟨0, 0⟩]) ∧
    (List.replicate (n + 1) (Op.addInterval ⟨0, 0⟩) ++
      [Op.removeInterval ⟨0, 0⟩, .removeInterval ⟨0, 0⟩]).foldlM
        kNaClIntervalRangeTreeVtbl.step (.nil, []) = .error .nodeNotFound := by
  constructor
  · refine admitted_addMany _ _ _ _ _ ⟨?_, ?_, trivial⟩
    · simp [Spec.ValidRemoval]
    · simp only [Spec.ValidRemoval, Spec.step, Multiset.replicate_succ,
        Multiset.erase_cons_head, Multiset.add_zero]
      exact Multiset.mem_replicate.mpr ⟨positive.ne', rfl⟩
  · have first : kNaClIntervalRangeTreeVtbl.step (.nil, []) (.addInterval ⟨0, 0⟩) =
        .ok (pointTree 2, []) := by decide
    have second : kNaClIntervalRangeTreeVtbl.step (pointTree 2, []) (.removeInterval ⟨0, 0⟩) =
        .ok (.nil, []) := by decide
    have third : kNaClIntervalRangeTreeVtbl.step (.nil, []) (.removeInterval ⟨0, 0⟩) =
        .error .nodeNotFound := by decide
    have many := pointTree_addMany 2 n
    rw [wraps, add_zero] at many
    rw [List.foldlM_append, List.replicate_succ, List.foldlM_cons, first]
    simp only [bind, Except.bind, many, List.foldlM_cons, second, third]

/-- So the bound of `rangeTree_invariant` cannot be dropped. -/
theorem removeInterval_reaches_nodeNotFound :
    Admitted Spec.step Spec.ValidRemoval (0, [])
      (List.replicate (2 ^ 31 + 1) (.addInterval ⟨0, 0⟩) ++
        [.removeInterval ⟨0, 0⟩, .removeInterval ⟨0, 0⟩]) ∧
    (List.replicate (2 ^ 31 + 1) (Op.addInterval ⟨0, 0⟩) ++
      [Op.removeInterval ⟨0, 0⟩, .removeInterval ⟨0, 0⟩]).foldlM
        kNaClIntervalRangeTreeVtbl.step (.nil, []) = .error .nodeNotFound :=
  removal_fails_of_wrap (2 ^ 31) (by decide) (by decide)

end SandboxTEE.IntervalMultiset
