import Mathlib.Tactic.Ring
import SandboxTEE.Lib.SortedAssoc
import SandboxTEE.IntervalMultiset.RangeTree

/-! # What the tree operations do to shape and entries

`Valid` is the part of the representation invariant that is local to a node: its balance
is the difference of the heights of its subtrees, and `NaClRangeStatsUpdate` would
change nothing.  Insertion and deletion keep it, report the change in height, and act on
the entries, read from left to right, as the operations on sorted lists do.
-/

namespace SandboxTEE.IntervalMultiset

open Lib

/-- A node as an entry of a sorted list: its delta and its use count under its value. -/
def NodeData.entry (d : NodeData) : Nat × (BitVec 32 × BitVec 32) :=
  (d.value, d.valueContainmentDelta, d.refcount)

def entries (t : Tree) : List (Nat × (BitVec 32 × BitVec 32)) :=
  (inorder t).map NodeData.entry

@[simp] theorem entries_nil : entries .nil = [] := rfl

@[simp] theorem entries_node (d : NodeData) (l r : Tree) :
    entries (.node d l r) = entries l ++ d.entry :: entries r := by
  simp [entries]

def height (t : Tree) : Int := t.height

@[simp] theorem height_nil : height .nil = 0 := rfl

@[simp] theorem height_node (d : NodeData) (l r : Tree) :
    height (.node d l r) = max (height l) (height r) + 1 := by
  simp only [height, BinaryTree.height]
  omega

theorem height_nonneg (t : Tree) : 0 ≤ height t := Int.natCast_nonneg _

/-- The balance of the node is the difference of the heights, and at most one. -/
def Balanced (d : NodeData) (l r : Tree) : Prop :=
  d.balance = height r - height l ∧ -1 ≤ d.balance ∧ d.balance ≤ 1

def Valid : Tree → Prop := Everywhere fun d l r =>
  Balanced d l r ∧ naClRangeStatsUpdate d l r = d

@[simp] theorem valid_nil : Valid .nil := trivial

variable {l r : Tree} {d : NodeData}

theorem valid_node : Valid (.node d l r) ↔
      (Balanced d l r ∧ naClRangeStatsUpdate d l r = d) ∧ Valid l ∧ Valid r := Iff.rfl

@[simp] theorem entry_naClRangeStatsUpdate (d : NodeData) (l r : Tree) :
    (naClRangeStatsUpdate d l r).entry = d.entry := rfl

@[simp] theorem balance_naClRangeStatsUpdate (d : NodeData) (l r : Tree) :
    (naClRangeStatsUpdate d l r).balance = d.balance := rfl

@[simp] theorem naClRangeStatsUpdate_naClRangeStatsUpdate (d : NodeData) (l r : Tree) :
    naClRangeStatsUpdate (naClRangeStatsUpdate d l r) l r = naClRangeStatsUpdate d l r := rfl

@[simp] theorem entry_withBalance (d : NodeData) (b : Int) :
    NodeData.entry { d with balance := b } = d.entry := rfl

/-- A change of the balance alone leaves the cumulative fields right. -/
theorem statsUpdate_withBalance (b : Int) (stats : naClRangeStatsUpdate d l r = d) :
    naClRangeStatsUpdate { d with balance := b } l r = { d with balance := b } :=
  congrArg (fun e : NodeData => { e with balance := b }) stats

theorem valid_updated : Valid (updated d l r) ↔ Balanced d l r ∧ Valid l ∧ Valid r := by
  rw [updated, valid_node, naClRangeStatsUpdate_naClRangeStatsUpdate]
  simp only [Balanced, balance_naClRangeStatsUpdate, and_true]

@[simp] theorem entries_updated (d : NodeData) (l r : Tree) :
    entries (updated d l r) = entries l ++ d.entry :: entries r := by
  rw [updated, entries_node, entry_naClRangeStatsUpdate]

@[simp] theorem height_updated (d : NodeData) (l r : Tree) :
    height (updated d l r) = max (height l) (height r) + 1 := by
  rw [updated, height_node]

/-! ## The rotations of an insertion -/

/-- The root leans to one side. -/
def Leaning : Tree → Prop
  | .nil => False
  | .node d _ _ => d.balance ≠ 0

variable {left right : Tree}

theorem pivotLeft_spec (validL : Valid left) (validR : Valid right) (leaning : Leaning left)
    (tall : height left = height right + 2) : ∃ t, pivotLeft d left right = .ok t ∧ Valid t ∧
      entries t = entries left ++ d.entry :: entries right ∧ height t = height left := by
  cases left with
  | nil => exact leaning.elim
  | node b a c =>
    obtain ⟨⟨⟨balanceB, lowB, highB⟩, -⟩, validA, validC⟩ := valid_node.mp validL
    have nonzero : b.balance ≠ 0 := leaning
    rw [height_node] at tall
    by_cases outer : b.balance = -1
    · simp only [pivotLeft, if_pos outer]
      refine ⟨_, rfl, ?_, by simp, ?_⟩
      · simp only [valid_updated, Balanced, height_updated]
        refine ⟨?_, validA, ?_, validC, validR⟩ <;> omega
      · simp only [height_updated, height_node]; omega
    · cases c with
      | nil =>
        have := height_nonneg a
        rw [height_nil] at balanceB
        omega
      | node m mL mR =>
        obtain ⟨⟨⟨balanceM, lowM, highM⟩, -⟩, validML, validMR⟩ := valid_node.mp validC
        rw [height_node] at balanceB tall
        simp only [pivotLeft, if_neg outer]
        refine ⟨_, rfl, ?_, by simp, ?_⟩
        · simp only [valid_updated, Balanced, height_updated]
          refine ⟨?_, ⟨?_, validA, validML⟩, ?_, validMR, validR⟩
          · omega
          · split <;> omega
          · split <;> omega
        · simp only [height_updated, height_node]; omega

theorem pivotRight_spec (validL : Valid left) (validR : Valid right) (leaning : Leaning right)
    (tall : height right = height left + 2) : ∃ t, pivotRight d left right = .ok t ∧ Valid t ∧
      entries t = entries left ++ d.entry :: entries right ∧ height t = height right := by
  cases right with
  | nil => exact leaning.elim
  | node f c e =>
    obtain ⟨⟨⟨balanceF, lowF, highF⟩, -⟩, validC, validE⟩ := valid_node.mp validR
    have nonzero : f.balance ≠ 0 := leaning
    rw [height_node] at tall
    by_cases outer : f.balance = 1
    · simp only [pivotRight, if_pos outer]
      refine ⟨_, rfl, ?_, by simp, ?_⟩
      · simp only [valid_updated, Balanced, height_updated]
        refine ⟨?_, ⟨?_, validL, validC⟩, validE⟩ <;> omega
      · simp only [height_updated, height_node]; omega
    · cases c with
      | nil =>
        have := height_nonneg e
        rw [height_nil] at balanceF
        omega
      | node m mL mR =>
        obtain ⟨⟨⟨balanceM, lowM, highM⟩, -⟩, validML, validMR⟩ := valid_node.mp validC
        rw [height_node] at balanceF tall
        simp only [pivotRight, if_neg outer]
        refine ⟨_, rfl, ?_, by simp, ?_⟩
        · simp only [valid_updated, Balanced, height_updated]
          refine ⟨?_, ⟨?_, validL, validML⟩, ?_, validMR, validE⟩
          · omega
          · split <;> omega
          · split <;> omega
        · simp only [height_updated, height_node]; omega

/-! ## Insertion -/

/-- The outcome of the rebalancing above a subtree that was inserted into. -/
structure Settled (tmp : NodeData) (before left right t : Tree) (higher : Bool) : Prop where
  valid : Valid t
  entries_eq : entries t = entries left ++ tmp.entry :: entries right
  height_eq : height t = height before + if higher then 1 else 0
  leans : higher = true → Leaning t

theorem afterInsertLeft_spec {tmp : NodeData} {left' : Tree} {higher : Bool}
    (balanced : Balanced tmp left right) (validL : Valid left') (validR : Valid right)
    (height_eq : height left' = height left + if higher then 1 else 0)
    (leans : higher = true → left = .nil ∨ Leaning left') :
    ∃ t higher', afterInsertLeft tmp left' right higher = .ok (t, higher') ∧
      Settled tmp (.node tmp left right) left' right t higher' := by
  obtain ⟨balance_eq, low, high⟩ := balanced
  cases higher with
  | false =>
    simp only [Bool.false_eq_true, if_false, add_zero] at height_eq
    refine ⟨_, _, rfl, ?_, by simp, by simp [height_eq], by simp⟩
    exact valid_updated.mpr ⟨⟨by omega, low, high⟩, validL, validR⟩
  | true =>
    simp only [if_true] at height_eq
    simp only [afterInsertLeft, Bool.true_eq_false, if_false]
    by_cases even : tmp.balance - 1 = 0
    · rw [if_pos even]
      refine ⟨_, _, rfl, ?_, by simp, ?_, by simp⟩
      · refine valid_updated.mpr ⟨⟨?_, ?_, ?_⟩, validL, validR⟩ <;> simp only <;> omega
      · simp only [height_updated, height_node, Bool.false_eq_true, if_false]
        omega
    · rw [if_neg even]
      by_cases grew : tmp.balance - 1 = -1
      · rw [if_pos grew]
        refine ⟨_, _, rfl, ?_, by simp, ?_, fun _ => even⟩
        · refine valid_updated.mpr ⟨⟨?_, ?_, ?_⟩, validL, validR⟩ <;> simp only <;> omega
        · simp only [height_updated, height_node, if_true]
          omega
      · rw [if_neg grew]
        -- the left subtree was already the higher one, so it was not empty
        have leaning : Leaning left' := by
          cases leans rfl with
          | inl isNil =>
            have := height_nonneg right
            rw [isNil, height_nil] at balance_eq
            omega
          | inr leaning => exact leaning
        obtain ⟨t, rotated, validT, entriesT, heightT⟩ :=
          pivotLeft_spec (d := { tmp with balance := tmp.balance - 1 }) validL validR leaning
            (by omega)
        rw [rotated]
        refine ⟨t, false, rfl, validT, entriesT, ?_, by simp⟩
        simp only [height_node, Bool.false_eq_true, if_false]
        omega

theorem afterInsertRight_spec {tmp : NodeData} {right' : Tree} {higher : Bool}
    (balanced : Balanced tmp left right) (validL : Valid left) (validR : Valid right')
    (height_eq : height right' = height right + if higher then 1 else 0)
    (leans : higher = true → right = .nil ∨ Leaning right') :
    ∃ t higher', afterInsertRight tmp left right' higher = .ok (t, higher') ∧
      Settled tmp (.node tmp left right) left right' t higher' := by
  obtain ⟨balance_eq, low, high⟩ := balanced
  cases higher with
  | false =>
    simp only [Bool.false_eq_true, if_false, add_zero] at height_eq
    refine ⟨_, _, rfl, ?_, by simp, by simp [height_eq], by simp⟩
    exact valid_updated.mpr ⟨⟨by omega, low, high⟩, validL, validR⟩
  | true =>
    simp only [if_true] at height_eq
    simp only [afterInsertRight, Bool.true_eq_false, if_false]
    by_cases even : tmp.balance + 1 = 0
    · rw [if_pos even]
      refine ⟨_, _, rfl, ?_, by simp, ?_, by simp⟩
      · refine valid_updated.mpr ⟨⟨?_, ?_, ?_⟩, validL, validR⟩ <;> simp only <;> omega
      · simp only [height_updated, height_node, Bool.false_eq_true, if_false]
        omega
    · rw [if_neg even]
      by_cases grew : tmp.balance + 1 = 1
      · rw [if_pos grew]
        refine ⟨_, _, rfl, ?_, by simp, ?_, fun _ => even⟩
        · refine valid_updated.mpr ⟨⟨?_, ?_, ?_⟩, validL, validR⟩ <;> simp only <;> omega
        · simp only [height_updated, height_node, if_true]
          omega
      · rw [if_neg grew]
        have leaning : Leaning right' := by
          cases leans rfl with
          | inl isNil =>
            have := height_nonneg left
            rw [isNil, height_nil] at balance_eq
            omega
          | inr leaning => exact leaning
        obtain ⟨t, rotated, validT, entriesT, heightT⟩ :=
          pivotRight_spec (d := { tmp with balance := tmp.balance + 1 }) validL validR leaning
            (by omega)
        rw [rotated]
        refine ⟨t, false, rfl, validT, entriesT, ?_, by simp⟩
        simp only [height_node, Bool.false_eq_true, if_false]
        omega

/-- What a use adds to an entry. -/
def mergeUse (x y : BitVec 32 × BitVec 32) : BitVec 32 × BitVec 32 := (x.1 + y.1, x.2 + 1)

/-- The outcome of an insertion: the flag tells the height, and a tree that grew was
    empty or leans. -/
structure Inserted (node : NodeData) (t t' : Tree) (higher : Bool) : Prop where
  valid : Valid t'
  entries_eq : entries t' =
    insertWith mergeUse node.value (node.valueContainmentDelta, 1) (entries t)
  height_eq : height t' = height t + if higher then 1 else 0
  leans : higher = true → t = .nil ∨ Leaning t'

/-- A node just made by `NaClIntervalRangeTreeNodeInit`. -/
structure Fresh (node : NodeData) : Prop where
  balance_eq : node.balance = 0
  refcount_eq : node.refcount = 1
  stats : naClRangeStatsUpdate node .nil .nil = node

theorem fresh_init (value : Nat) (lr : BitVec 32) :
    Fresh (naClIntervalRangeTreeNodeInit value lr) where
  balance_eq := rfl
  refcount_eq := rfl
  stats := by simp [naClRangeStatsUpdate, naClIntervalRangeTreeNodeInit, subtreeDelta]

/-- A use more or less at a node changes its two deltas alike. -/
theorem statsUpdate_withUse (delta count : BitVec 32) (stats : naClRangeStatsUpdate d l r = d) :
    naClRangeStatsUpdate { d with
      valueContainmentDelta := d.valueContainmentDelta + delta
      subtreeContainmentDelta := d.subtreeContainmentDelta + delta
      refcount := count } l r =
    { d with
      valueContainmentDelta := d.valueContainmentDelta + delta
      subtreeContainmentDelta := d.subtreeContainmentDelta + delta
      refcount := count } := by
  simp only [naClRangeStatsUpdate, NodeData.ext_iff] at stats ⊢
  obtain ⟨-, -, -, -, left_eq, right_eq, sum_eq⟩ := stats
  refine ⟨trivial, trivial, trivial, trivial, left_eq, right_eq, ?_⟩
  rw [← sum_eq]
  ring

theorem naClAvlTreeInsert_spec {node : NodeData} (fresh : Fresh node) (t : Tree)
    (valid : Valid t) (sorted : SortedKeys (entries t)) :
    ∃ t' higher, naClAvlTreeInsert node t = .ok (t', higher) ∧ Inserted node t t' higher := by
  induction t with
  | nil =>
    refine ⟨_, _, rfl, ?_, ?_, by simp, by simp⟩
    · refine valid_node.mpr ⟨⟨?_, fresh.stats⟩, trivial, trivial⟩
      simp [Balanced, fresh.balance_eq]
    · simp [insertWith, NodeData.entry, fresh.refcount_eq]
  | node tmp left right leftIh rightIh =>
    obtain ⟨⟨balanced, stats⟩, validL, validR⟩ := valid_node.mp valid
    rw [entries_node] at sorted
    obtain ⟨sortedL, sortedR, below, above⟩ := SortedKeys.middle_iff.mp sorted
    rw [naClAvlTreeInsert]
    by_cases same : node.value = tmp.value
    · -- one more use of the end point at the root
      rw [if_pos same]
      refine ⟨_, false, rfl, ?_, ?_, by simp, by simp⟩
      · exact valid_node.mpr ⟨⟨balanced, statsUpdate_withUse _ _ stats⟩, validL, validR⟩
      · rw [entries_node, entries_node, insertWith_append_of_gt (by rwa [same]),
          insertWith_cons_self (by exact same)]
        rfl
    · rw [if_neg same]
      by_cases less : node.value < tmp.value
      · obtain ⟨left', higher, result, inserted⟩ := leftIh validL sortedL
        obtain ⟨t', higher', settles, settled⟩ :=
          afterInsertLeft_spec balanced inserted.valid validR inserted.height_eq inserted.leans
        rw [if_pos less, result]
        refine ⟨t', higher', settles, settled.valid, ?_, settled.height_eq,
          fun grew => .inr (settled.leans grew)⟩
        rw [settled.entries_eq, inserted.entries_eq, entries_node,
          insertWith_append_of_lt (by exact less)]
      · have greater : tmp.value < node.value := by omega
        obtain ⟨right', higher, result, inserted⟩ := rightIh validR sortedR
        obtain ⟨t', higher', settles, settled⟩ :=
          afterInsertRight_spec balanced validL inserted.valid inserted.height_eq inserted.leans
        rw [if_neg less, result]
        refine ⟨t', higher', settles, settled.valid, ?_, settled.height_eq,
          fun grew => .inr (settled.leans grew)⟩
        rw [settled.entries_eq, inserted.entries_eq, entries_node,
          insertWith_append_of_gt fun y member => (below y member).trans greater,
          insertWith_cons_of_gt (by exact greater)]

/-! ## Deletion -/

/-- The outcome of the rebalancing above a subtree that may have shrunk: `before` is the
    height with the subtree as it was. -/
structure Shrunk (kept : List (Nat × (BitVec 32 × BitVec 32))) (before : Int) (t : Tree)
    (heightChanged : Bool) : Prop where
  valid : Valid t
  entries_eq : entries t = kept
  height_eq : height t = before - if heightChanged then 1 else 0

theorem balanceLeftIf_spec {h : Bool}
    (balance_eq : d.balance = height right - (height left + if h then 1 else 0))
    (low : -1 ≤ d.balance) (high : d.balance ≤ 1) (stats : naClRangeStatsUpdate d left right = d)
    (validL : Valid left) (validR : Valid right) :
    ∃ t changed, balanceLeftIf d left right h = .ok (t, changed) ∧
      Shrunk (entries left ++ d.entry :: entries right)
        (max (height left + if h then 1 else 0) (height right) + 1) t changed := by
  cases h with
  | false =>
    simp only [Bool.false_eq_true, if_false, add_zero] at balance_eq ⊢
    exact ⟨_, _, rfl, valid_node.mpr ⟨⟨⟨balance_eq, low, high⟩, stats⟩, validL, validR⟩, by simp,
      by simp⟩
  | true =>
    simp only [if_true] at balance_eq ⊢
    simp only [balanceLeftIf, if_true, naClAvlTreeBalanceLeft]
    by_cases even : d.balance + 1 = 0
    · rw [if_pos even]
      refine ⟨_, _, rfl, ?_, by simp, ?_⟩
      · refine valid_node.mpr ⟨⟨⟨?_, ?_, ?_⟩, statsUpdate_withBalance _ stats⟩, validL, validR⟩ <;>
          simp only <;> omega
      · simp only [height_node, if_true]
        omega
    · rw [if_neg even]
      by_cases leaning : d.balance + 1 = 1
      · rw [if_pos leaning]
        refine ⟨_, _, rfl, ?_, by simp, ?_⟩
        · refine valid_node.mpr ⟨⟨⟨?_, ?_, ?_⟩, statsUpdate_withBalance _ stats⟩, validL, validR⟩ <;>
            simp only <;> omega
        · simp only [height_node, Bool.false_eq_true, if_false]
          omega
      · rw [if_neg leaning]
        -- the right subtree is two higher now
        cases right with
        | nil =>
          have := height_nonneg left
          rw [height_nil] at balance_eq
          omega
        | node tmp c e =>
          obtain ⟨⟨⟨balanceT, lowT, highT⟩, -⟩, validC, validE⟩ := valid_node.mp validR
          rw [height_node] at balance_eq
          by_cases outer : 0 ≤ tmp.balance
          · simp only [if_pos outer]
            by_cases level : tmp.balance = 0
            · rw [if_pos level]
              refine ⟨_, _, rfl, ?_, by simp, ?_⟩
              · simp only [valid_updated, Balanced, height_updated]
                refine ⟨?_, ⟨?_, validL, validC⟩, validE⟩ <;> omega
              · simp only [height_updated, height_node, Bool.false_eq_true, if_false]
                omega
            · rw [if_neg level]
              refine ⟨_, _, rfl, ?_, by simp, ?_⟩
              · simp only [valid_updated, Balanced, height_updated]
                refine ⟨?_, ⟨?_, validL, validC⟩, validE⟩ <;> omega
              · simp only [height_updated, height_node, if_true]
                omega
          · simp only [if_neg outer]
            cases c with
            | nil =>
              have := height_nonneg e
              rw [height_nil] at balanceT
              omega
            | node f tmpL tmpR =>
              obtain ⟨⟨⟨balanceF, lowF, highF⟩, -⟩, validFL, validFR⟩ := valid_node.mp validC
              rw [height_node] at balanceT balance_eq
              refine ⟨_, _, rfl, ?_, by simp, ?_⟩
              · simp only [valid_updated, Balanced, height_updated]
                refine ⟨?_, ⟨?_, validL, validFL⟩, ?_, validFR, validE⟩
                · omega
                · split <;> omega
                · split <;> omega
              · simp only [height_updated, height_node, if_true]
                omega

theorem balanceRightIf_spec {h : Bool}
    (balance_eq : d.balance = (height right + if h then 1 else 0) - height left)
    (low : -1 ≤ d.balance) (high : d.balance ≤ 1) (stats : naClRangeStatsUpdate d left right = d)
    (validL : Valid left) (validR : Valid right) :
    ∃ t changed, balanceRightIf d left right h = .ok (t, changed) ∧
      Shrunk (entries left ++ d.entry :: entries right)
        (max (height left) (height right + if h then 1 else 0) + 1) t changed := by
  cases h with
  | false =>
    simp only [Bool.false_eq_true, if_false, add_zero] at balance_eq ⊢
    exact ⟨_, _, rfl, valid_node.mpr ⟨⟨⟨balance_eq, low, high⟩, stats⟩, validL, validR⟩, by simp,
      by simp⟩
  | true =>
    simp only [if_true] at balance_eq ⊢
    simp only [balanceRightIf, if_true, naClAvlTreeBalanceRight]
    by_cases even : d.balance - 1 = 0
    · rw [if_pos even]
      refine ⟨_, _, rfl, ?_, by simp, ?_⟩
      · refine valid_node.mpr ⟨⟨⟨?_, ?_, ?_⟩, statsUpdate_withBalance _ stats⟩, validL, validR⟩ <;>
          simp only <;> omega
      · simp only [height_node, if_true]
        omega
    · rw [if_neg even]
      by_cases leaning : d.balance - 1 = -1
      · rw [if_pos leaning]
        refine ⟨_, _, rfl, ?_, by simp, ?_⟩
        · refine valid_node.mpr ⟨⟨⟨?_, ?_, ?_⟩, statsUpdate_withBalance _ stats⟩, validL, validR⟩ <;>
            simp only <;> omega
        · simp only [height_node, Bool.false_eq_true, if_false]
          omega
      · rw [if_neg leaning]
        cases left with
        | nil =>
          have := height_nonneg right
          rw [height_nil] at balance_eq
          omega
        | node tmp a c =>
          obtain ⟨⟨⟨balanceT, lowT, highT⟩, -⟩, validA, validC⟩ := valid_node.mp validL
          rw [height_node] at balance_eq
          by_cases outer : tmp.balance ≤ 0
          · simp only [if_pos outer]
            by_cases level : tmp.balance = 0
            · rw [if_pos level]
              refine ⟨_, _, rfl, ?_, by simp, ?_⟩
              · simp only [valid_updated, Balanced, height_updated]
                refine ⟨?_, validA, ?_, validC, validR⟩ <;> omega
              · simp only [height_updated, height_node, Bool.false_eq_true, if_false]
                omega
            · rw [if_neg level]
              refine ⟨_, _, rfl, ?_, by simp, ?_⟩
              · simp only [valid_updated, Balanced, height_updated]
                refine ⟨?_, validA, ?_, validC, validR⟩ <;> omega
              · simp only [height_updated, height_node, if_true]
                omega
          · simp only [if_neg outer]
            cases c with
            | nil =>
              have := height_nonneg a
              rw [height_nil] at balanceT
              omega
            | node f tmpL tmpR =>
              obtain ⟨⟨⟨balanceF, lowF, highF⟩, -⟩, validFL, validFR⟩ := valid_node.mp validC
              rw [height_node] at balanceT balance_eq
              refine ⟨_, _, rfl, ?_, by simp, ?_⟩
              · simp only [valid_updated, Balanced, height_updated]
                refine ⟨?_, ⟨?_, validA, validFL⟩, ?_, validFR, validR⟩
                · omega
                · split <;> omega
                · split <;> omega
              · simp only [height_updated, height_node, if_true]
                omega

theorem naClAvlFindRightMost_spec (t : Tree) (nonempty : t ≠ .nil) (valid : Valid t)
    (heightChanged : Bool) :
    ∃ d t' changed, naClAvlFindRightMost t heightChanged = .ok (d, t', changed) ∧
      entries t = entries t' ++ [d.entry] ∧ Shrunk (entries t') (height t) t' changed := by
  induction t with
  | nil => exact absurd rfl nonempty
  | node top left right leftIh rightIh =>
    obtain ⟨⟨⟨balance_eq, low, high⟩, -⟩, validL, validR⟩ := valid_node.mp valid
    cases right with
    | nil =>
      have := height_nonneg left
      refine ⟨top, left, true, rfl, by simp, validL, rfl, ?_⟩
      simp only [height_node, height_nil, if_true]
      omega
    | node r rl rr =>
      obtain ⟨d, right', changed, result, entries_eq, shrunk⟩ := rightIh (by simp) validR
      have height_eq := shrunk.height_eq
      obtain ⟨t', changed', balanced, shrunk'⟩ :=
        balanceRightIf_spec (d := naClRangeStatsUpdate top left right')
          (h := changed) (by rw [height_eq]; simp [balance_eq]) low high rfl validL
          shrunk.valid
      refine ⟨d, t', changed', ?_, ?_, shrunk'.valid, rfl, ?_⟩
      · rw [naClAvlFindRightMost, result]
        simp only [bind, Except.bind, balanced]
      · rw [shrunk'.entries_eq, entries_node, entries_eq, entry_naClRangeStatsUpdate]
        simp
      · rw [shrunk'.height_eq, height_node, height_eq, sub_add_cancel]

theorem naClAvlFindLeftMost_spec (t : Tree) (nonempty : t ≠ .nil) (valid : Valid t)
    (heightChanged : Bool) :
    ∃ d t' changed, naClAvlFindLeftMost t heightChanged = .ok (d, t', changed) ∧
      entries t = d.entry :: entries t' ∧ Shrunk (entries t') (height t) t' changed := by
  induction t with
  | nil => exact absurd rfl nonempty
  | node top left right leftIh rightIh =>
    obtain ⟨⟨⟨balance_eq, low, high⟩, -⟩, validL, validR⟩ := valid_node.mp valid
    cases left with
    | nil =>
      have := height_nonneg right
      refine ⟨top, right, true, rfl, by simp, validR, rfl, ?_⟩
      simp only [height_node, height_nil, if_true]
      omega
    | node l ll lr =>
      obtain ⟨d, left', changed, result, entries_eq, shrunk⟩ := leftIh (by simp) validL
      have height_eq := shrunk.height_eq
      obtain ⟨t', changed', balanced, shrunk'⟩ :=
        balanceLeftIf_spec (d := naClRangeStatsUpdate top left' right)
          (h := changed) (by rw [height_eq]; simp [balance_eq]) low high rfl
          shrunk.valid validR
      refine ⟨d, t', changed', ?_, ?_, shrunk'.valid, rfl, ?_⟩
      · rw [naClAvlFindLeftMost, result]
        simp only [bind, Except.bind, balanced]
      · rw [shrunk'.entries_eq, entries_node, entries_eq, entry_naClRangeStatsUpdate]
        simp
      · rw [shrunk'.height_eq, height_node, height_eq, sub_add_cancel]

theorem unlink_spec {p : NodeData} (valid : Valid (.node p left right)) (heightChanged : Bool) :
    ∃ t changed, unlink p left right heightChanged = .ok (t, changed) ∧
      Shrunk (entries left ++ entries right) (height (.node p left right)) t changed := by
  obtain ⟨⟨⟨balance_eq, low, high⟩, -⟩, validL, validR⟩ := valid_node.mp valid
  cases right with
  | nil =>
    have := height_nonneg left
    refine ⟨left, true, by cases left <;> rfl, validL, by simp, ?_⟩
    simp only [height_node, height_nil, if_true]
    omega
  | node r rl rr =>
    cases left with
    | nil =>
      have := height_nonneg (.node r rl rr)
      refine ⟨.node r rl rr, true, rfl, validR, by simp, ?_⟩
      rw [height_node p, height_nil, if_pos rfl]
      omega
    | node l ll lr =>
      rw [unlink.eq_def]
      by_cases fromLeft : p.balance ≤ 0
      · -- the rightmost node of the left subtree takes the place of p
        obtain ⟨d, left', changed, result, entries_eq, shrunk⟩ :=
          naClAvlFindRightMost_spec (.node l ll lr) (by simp) validL heightChanged
        have height_eq := shrunk.height_eq
        obtain ⟨t, changed', balanced, shrunk'⟩ :=
          balanceLeftIf_spec (h := changed)
            (d := naClRangeStatsUpdate { d with balance := p.balance } left' (.node r rl rr))
            (by rw [height_eq]; simp only [balance_naClRangeStatsUpdate, balance_eq]; ring)
            low high rfl shrunk.valid validR
        refine ⟨t, changed', ?_, shrunk'.valid, ?_, ?_⟩
        · simp only [if_pos fromLeft, result, bind, Except.bind, balanced]
        · rw [shrunk'.entries_eq, entries_eq]
          simp
        · rw [shrunk'.height_eq, height_eq, sub_add_cancel, height_node p]
      · obtain ⟨d, right', changed, result, entries_eq, shrunk⟩ :=
          naClAvlFindLeftMost_spec (.node r rl rr) (by simp) validR heightChanged
        have height_eq := shrunk.height_eq
        obtain ⟨t, changed', balanced, shrunk'⟩ :=
          balanceRightIf_spec (h := changed)
            (d := naClRangeStatsUpdate { d with balance := p.balance } (.node l ll lr) right')
            (by rw [height_eq]; simp only [balance_naClRangeStatsUpdate, balance_eq]; ring)
            low high rfl validL shrunk.valid
        refine ⟨t, changed', ?_, shrunk'.valid, ?_, ?_⟩
        · simp only [if_neg fromLeft, result, bind, Except.bind, balanced]
        · rw [shrunk'.entries_eq, entries_eq]
          simp
        · rw [shrunk'.height_eq, height_eq, sub_add_cancel, height_node p]

/-- What a removed use leaves of an entry. -/
def dropUse (delta : BitVec 32) (x : BitVec 32 × BitVec 32) : Option (BitVec 32 × BitVec 32) :=
  if x.2 - 1 ≠ 0 then some (x.1 - delta, x.2 - 1) else none

theorem naClAvlTreeExtract_spec (key : NodeData) (t : Tree) (valid : Valid t)
    (sorted : SortedKeys (entries t)) (used : (find key.value (entries t)).isSome) :
    ∃ t' p changed, naClAvlTreeExtract key t false = .ok (t', p, changed) ∧
      Shrunk (updateAt (dropUse key.valueContainmentDelta) key.value (entries t)) (height t) t'
        changed := by
  induction t with
  | nil => simp at used
  | node top left right leftIh rightIh =>
    obtain ⟨⟨⟨balance_eq, low, high⟩, stats⟩, validL, validR⟩ := valid_node.mp valid
    rw [entries_node] at sorted
    obtain ⟨sortedL, sortedR, below, above⟩ := SortedKeys.middle_iff.mp sorted
    have member := find_isSome_iff.mp used
    simp only [entries_node, List.map_append, List.map_cons, List.mem_append, List.mem_cons,
      List.mem_map] at member
    rw [naClAvlTreeExtract, entries_node]
    by_cases less : key.value < top.value
    · have usedL : (find key.value (entries left)).isSome := by
        rw [find_isSome_iff, List.mem_map]
        rcases member with inLeft | same | ⟨x, inRight, same⟩
        · exact inLeft
        · exact absurd same less.ne
        · exact absurd (same ▸ above x inRight) less.le.not_gt
      obtain ⟨left', p, changed, result, shrunk⟩ := leftIh validL sortedL usedL
      have height_eq := shrunk.height_eq
      obtain ⟨t', changed', balanced, shrunk'⟩ :=
        balanceLeftIf_spec (d := naClRangeStatsUpdate top left' right) (h := changed)
          (by rw [height_eq]; simp [balance_eq]) low high rfl shrunk.valid validR
      refine ⟨t', p, changed', ?_, shrunk'.valid, ?_, ?_⟩
      · simp only [if_pos less, result, bind, Except.bind, balanced]
      · have aboveKey : ∀ y ∈ top.entry :: entries right, key.value < y.1 := by
          intro y inRest
          cases List.mem_cons.mp inRest with
          | inl root => exact root ▸ less
          | inr inRight => exact less.trans (above y inRight)
        rw [shrunk'.entries_eq, shrunk.entries_eq, updateAt_append_of_lt aboveKey]
        rfl
      · rw [shrunk'.height_eq, height_eq, sub_add_cancel, height_node]
    · by_cases greater : top.value < key.value
      · have usedR : (find key.value (entries right)).isSome := by
          rw [find_isSome_iff, List.mem_map]
          rcases member with ⟨x, inLeft, same⟩ | same | inRight
          · exact absurd (same ▸ below x inLeft) greater.le.not_gt
          · exact absurd same greater.ne'
          · exact inRight
        obtain ⟨right', p, changed, result, shrunk⟩ := rightIh validR sortedR usedR
        have height_eq := shrunk.height_eq
        obtain ⟨t', changed', balanced, shrunk'⟩ :=
          balanceRightIf_spec (d := naClRangeStatsUpdate top left right') (h := changed)
            (by rw [height_eq]; simp [balance_eq]) low high rfl validL shrunk.valid
        refine ⟨t', p, changed', ?_, shrunk'.valid, ?_, ?_⟩
        · simp only [if_neg less, if_pos greater, result, bind, Except.bind, balanced]
        · have belowKey : ∀ y ∈ entries left, y.1 < key.value :=
            fun y inLeft => (below y inLeft).trans greater
          rw [shrunk'.entries_eq, shrunk.entries_eq, updateAt_append_of_gt belowKey, updateAt,
            if_neg (by exact greater.ne)]
          rfl
        · rw [shrunk'.height_eq, height_eq, sub_add_cancel, height_node]
      · have same : top.value = key.value := by omega
        have split : updateAt (dropUse key.valueContainmentDelta) key.value
            (entries left ++ top.entry :: entries right) = entries left ++
              (dropUse key.valueContainmentDelta (top.valueContainmentDelta, top.refcount)).elim
                (entries right) fun b => (top.value, b) :: entries right := by
          rw [updateAt_append_of_gt (by rwa [← same]), updateAt_cons_self (by exact same)]
          rfl
        rw [if_neg less, if_neg greater, split]
        by_cases last : top.refcount - 1 ≠ 0
        · rw [if_pos last, dropUse, if_pos last]
          refine ⟨_, _, _, rfl, ?_, by simp [NodeData.entry], by simp⟩
          have stats' := statsUpdate_withUse (-key.valueContainmentDelta) (top.refcount - 1) stats
          simp only [← sub_eq_add_neg] at stats'
          exact valid_node.mpr ⟨⟨⟨balance_eq, low, high⟩, stats'⟩, validL, validR⟩
        · obtain ⟨t', changed', unlinks, shrunk⟩ := unlink_spec valid false
          rw [if_neg last, dropUse, if_neg last, unlinks]
          exact ⟨t', _, changed', rfl, shrunk⟩

end SandboxTEE.IntervalMultiset
