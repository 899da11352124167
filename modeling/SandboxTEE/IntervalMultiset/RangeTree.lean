import Mathlib.Data.Tree.Basic
import Mathlib.Data.BitVec

/-! # The AVL range tree of intervals

`NaClIntervalRangeTree` keeps the end points of a multiset of closed intervals of
`uint32_t` in an AVL tree, each with a use count and the number of starts minus the
number of ends, and answers overlap queries by prefix sums.  A tree of pointers is a
`BinaryTree` of the other fields; a function that takes `treep` returns the tree that
`*treep` is afterwards.  The counters are 32-bit words (`int32_t` and `uint32_t` words
are only added to each other), end points are numbers below `2^32`.
-/

namespace SandboxTEE.IntervalMultiset

/-- What ends a run of the multisets: `LOG_FATAL`, or a null pointer followed. -/
inductive Failure where
  /-- "NaClAvlTreeExtract: node not found" -/
  | nodeNotFound
  /-- "NaClIntervalListMultisetRemove: [%u,%u] not found" -/
  | intervalNotFound
  | nullDereference
  deriving DecidableEq

/-- The fields of a `struct NaClIntervalRangeTreeNode`, but its two pointers. -/
@[ext] structure NodeData where
  balance : Int
  value : Nat
  valueContainmentDelta : BitVec 32
  refcount : BitVec 32
  rangeLeft : Nat
  rangeRight : Nat
  subtreeContainmentDelta : BitVec 32
  deriving DecidableEq

abbrev Tree := BinaryTree NodeData

/-- `NULL != tree ? tree->subtree_containment_delta : 0` -/
def subtreeDelta : Tree → BitVec 32
  | .nil => 0
  | .node d _ _ => d.subtreeContainmentDelta

def naClIntervalRangeTreeNodeInit (value : Nat) (lr : BitVec 32) : NodeData where
  balance := 0
  value := value
  valueContainmentDelta := lr
  refcount := 1
  rangeLeft := value
  rangeRight := value
  subtreeContainmentDelta := lr

def naClRangeStatsUpdate (node : NodeData) (left right : Tree) : NodeData :=
  { node with
    rangeLeft := match left with
      | .nil => node.value
      | .node l _ _ => l.rangeLeft
    rangeRight := match right with
      | .nil => node.value
      | .node r _ _ => r.rangeRight
    subtreeContainmentDelta :=
      node.valueContainmentDelta + subtreeDelta left + subtreeDelta right }

/-- The node with the given subtrees after `NaClRangeStatsUpdate` of it. -/
def updated (node : NodeData) (left right : Tree) : Tree :=
  .node (naClRangeStatsUpdate node left right) left right

/-! ## Insertion -/

/-- The L and LR rotations of `NaClAvlTreeInsert`, whose left subtree grew too high. -/
def pivotLeft (tmp : NodeData) (left right : Tree) : Except Failure Tree :=
  match left with
  | .nil => .error .nullDereference
  | .node b a c =>
    if b.balance = -1 then
      -- L rotation
      .ok (updated { b with balance := 0 } a (updated { tmp with balance := 0 } c right))
    else
      match c with
      | .nil => .error .nullDereference
      | .node d tmpL tmpR =>
        -- LR rotation
        .ok (updated { d with balance := 0 }
          (updated { b with balance := if d.balance ≤ 0 then 0 else -1 } a tmpL)
          (updated { tmp with balance := if 0 ≤ d.balance then 0 else 1 } tmpR right))

/-- The R and RL rotations of `NaClAvlTreeInsert`, whose right subtree grew too high. -/
def pivotRight (tmp : NodeData) (left right : Tree) : Except Failure Tree :=
  match right with
  | .nil => .error .nullDereference
  | .node f c e =>
    if f.balance = 1 then
      -- R rotation
      .ok (updated { f with balance := 0 } (updated { tmp with balance := 0 } left c) e)
    else
      match c with
      | .nil => .error .nullDereference
      | .node d tmpL tmpR =>
        -- RL rotation
        .ok (updated { d with balance := 0 }
          (updated { tmp with balance := if d.balance ≤ 0 then 0 else -1 } left tmpL)
          (updated { f with balance := if 0 ≤ d.balance then 0 else 1 } tmpR e))

/-- The left branch of `NaClAvlTreeInsert` behind the recursive call. -/
def afterInsertLeft (tmp : NodeData) (left right : Tree) (higher : Bool) :
    Except Failure (Tree × Bool) :=
  if higher = false then .ok (updated tmp left right, false)
  else
    let tmp := { tmp with balance := tmp.balance - 1 }
    if tmp.balance = 0 then .ok (updated tmp left right, false)
    else if tmp.balance = -1 then .ok (updated tmp left right, true)
    else do
      let tree ← pivotLeft tmp left right
      .ok (tree, false)

/-- The right branch of `NaClAvlTreeInsert` behind the recursive call. -/
def afterInsertRight (tmp : NodeData) (left right : Tree) (higher : Bool) :
    Except Failure (Tree × Bool) :=
  if higher = false then .ok (updated tmp left right, false)
  else
    let tmp := { tmp with balance := tmp.balance + 1 }
    if tmp.balance = 0 then .ok (updated tmp left right, false)
    else if tmp.balance = 1 then .ok (updated tmp left right, true)
    else do
      let tree ← pivotRight tmp left right
      .ok (tree, false)

/-- The tree after the insertion, and whether its height grew. -/
def naClAvlTreeInsert (node : NodeData) : Tree → Except Failure (Tree × Bool)
  | .nil => .ok (.node node .nil .nil, true)
  | .node tmp left right =>
    if node.value = tmp.value then
      .ok (.node { tmp with
        valueContainmentDelta := tmp.valueContainmentDelta + node.valueContainmentDelta
        subtreeContainmentDelta := tmp.subtreeContainmentDelta + node.valueContainmentDelta
        refcount := tmp.refcount + 1 } left right, false)
    else if node.value < tmp.value then do
      let (left, higher) ← naClAvlTreeInsert node left
      afterInsertLeft tmp left right higher
    else do
      let (right, higher) ← naClAvlTreeInsert node right
      afterInsertRight tmp left right higher

/-! ## Deletion -/

/-- `NaClAvlTreeBalanceLeft`: the left subtree shrank.  The tree, and the flag
    `*height_changed` afterwards. -/
def naClAvlTreeBalanceLeft (node : NodeData) (left right : Tree) (heightChanged : Bool) :
    Except Failure (Tree × Bool) :=
  if node.balance + 1 = 0 then
    .ok (.node { node with balance := node.balance + 1 } left right, heightChanged)
  else if node.balance + 1 = 1 then
    .ok (.node { node with balance := node.balance + 1 } left right, false)
  else
    match right with
    | .nil => .error .nullDereference
    | .node tmp c e =>
      if 0 ≤ tmp.balance then
        -- RR rotation
        if tmp.balance = 0 then
          .ok (updated { tmp with balance := -1 }
            (updated { node with balance := 1 } left c) e, false)
        else
          .ok (updated { tmp with balance := 0 }
            (updated { node with balance := 0 } left c) e, heightChanged)
      else
        match c with
        | .nil => .error .nullDereference
        | .node d tmpL tmpR =>
          -- RL rotation
          .ok (updated { d with balance := 0 }
            (updated { node with balance := if 0 < d.balance then -1 else 0 } left tmpL)
            (updated { tmp with balance := if d.balance < 0 then 1 else 0 } tmpR e),
            heightChanged)

/-- `NaClAvlTreeBalanceRight`: the right subtree shrank. -/
def naClAvlTreeBalanceRight (node : NodeData) (left right : Tree) (heightChanged : Bool) :
    Except Failure (Tree × Bool) :=
  if node.balance - 1 = 0 then
    .ok (.node { node with balance := node.balance - 1 } left right, heightChanged)
  else if node.balance - 1 = -1 then
    .ok (.node { node with balance := node.balance - 1 } left right, false)
  else
    match left with
    | .nil => .error .nullDereference
    | .node tmp a c =>
      if tmp.balance ≤ 0 then
        -- LL rotation
        if tmp.balance = 0 then
          .ok (updated { tmp with balance := 1 } a
            (updated { node with balance := -1 } c right), false)
        else
          .ok (updated { tmp with balance := 0 } a
            (updated { node with balance := 0 } c right), heightChanged)
      else
        match c with
        | .nil => .error .nullDereference
        | .node d tmpL tmpR =>
          -- LR rotation
          .ok (updated { d with balance := 0 }
            (updated { tmp with balance := if 0 < d.balance then -1 else 0 } a tmpL)
            (updated { node with balance := if d.balance < 0 then 1 else 0 } tmpR right),
            heightChanged)

/-- The call of `NaClAvlTreeBalanceLeft` behind a test of the flag. -/
def balanceLeftIf (node : NodeData) (left right : Tree) (heightChanged : Bool) :
    Except Failure (Tree × Bool) :=
  if heightChanged then naClAvlTreeBalanceLeft node left right heightChanged
  else .ok (.node node left right, heightChanged)

/-- The call of `NaClAvlTreeBalanceRight` behind a test of the flag. -/
def balanceRightIf (node : NodeData) (left right : Tree) (heightChanged : Bool) :
    Except Failure (Tree × Bool) :=
  if heightChanged then naClAvlTreeBalanceRight node left right heightChanged
  else .ok (.node node left right, heightChanged)

/-- The rightmost node, the tree without it, and the flag. -/
def naClAvlFindRightMost (tree : Tree) (heightChanged : Bool) :
    Except Failure (NodeData × Tree × Bool) :=
  match tree with
  | .nil => .error .nullDereference
  | .node top left .nil => .ok (top, left, true)
  | .node top left (.node r rl rr) => do
    let (tmp, right, heightChanged) ← naClAvlFindRightMost (.node r rl rr) heightChanged
    let (tree, heightChanged) ←
      balanceRightIf (naClRangeStatsUpdate top left right) left right heightChanged
    .ok (tmp, tree, heightChanged)

/-- The leftmost node, the tree without it, and the flag. -/
def naClAvlFindLeftMost (tree : Tree) (heightChanged : Bool) :
    Except Failure (NodeData × Tree × Bool) :=
  match tree with
  | .nil => .error .nullDereference
  | .node top .nil right => .ok (top, right, true)
  | .node top (.node l ll lr) right => do
    let (tmp, left, heightChanged) ← naClAvlFindLeftMost (.node l ll lr) heightChanged
    let (tree, heightChanged) ←
      balanceLeftIf (naClRangeStatsUpdate top left right) left right heightChanged
    .ok (tmp, tree, heightChanged)

/-- The deletion of the node `p` whose use count fell to zero. -/
def unlink (p : NodeData) (left right : Tree) (heightChanged : Bool) :
    Except Failure (Tree × Bool) :=
  match left, right with
  | left, .nil => .ok (left, true)
  | .nil, right => .ok (right, true)
  | .node l ll lr, .node r rl rr =>
    if p.balance ≤ 0 then do
      let (tmp, left, heightChanged) ← naClAvlFindRightMost (.node l ll lr) heightChanged
      let tmp := naClRangeStatsUpdate { tmp with balance := p.balance } left (.node r rl rr)
      balanceLeftIf tmp left (.node r rl rr) heightChanged
    else do
      let (tmp, right, heightChanged) ← naClAvlFindLeftMost (.node r rl rr) heightChanged
      let tmp := naClRangeStatsUpdate { tmp with balance := p.balance } (.node l ll lr) right
      balanceRightIf tmp (.node l ll lr) right heightChanged

/-- The tree without one use of the key, the node that was taken out, and the flag. -/
def naClAvlTreeExtract (key : NodeData) (tree : Tree) (heightChanged : Bool) :
    Except Failure (Tree × Option NodeData × Bool) :=
  match tree with
  | .nil => .error .nodeNotFound
  | .node top left right =>
    if key.value < top.value then do
      let (left, p, heightChanged) ← naClAvlTreeExtract key left heightChanged
      let (tree, heightChanged) ←
        balanceLeftIf (naClRangeStatsUpdate top left right) left right heightChanged
      .ok (tree, p, heightChanged)
    else if top.value < key.value then do
      let (right, p, heightChanged) ← naClAvlTreeExtract key right heightChanged
      let (tree, heightChanged) ←
        balanceRightIf (naClRangeStatsUpdate top left right) left right heightChanged
      .ok (tree, p, heightChanged)
    else if top.refcount - 1 ≠ 0 then
      .ok (.node { top with
        refcount := top.refcount - 1
        valueContainmentDelta := top.valueContainmentDelta - key.valueContainmentDelta
        subtreeContainmentDelta := top.subtreeContainmentDelta - key.valueContainmentDelta }
        left right, none, heightChanged)
    else do
      let (tree, heightChanged) ← unlink top left right heightChanged
      .ok (tree, some { top with refcount := top.refcount - 1 }, heightChanged)

def naClIntervalRangeTreeRemoveVal (root : Tree) (value : Nat) (lr : BitVec 32) :
    Except Failure Tree := do
  let (root, _, _) ← naClAvlTreeExtract (naClIntervalRangeTreeNodeInit value lr) root false
  .ok root

/-! ## The operations of the multiset -/

/-- The containment count of the function and its `*gap_left`, which is left unwritten
    when the value is an end point. -/
def naClAvlTreeFindValue (tree : Tree) (leftDelta : BitVec 32) (leftRange value : Nat) :
    BitVec 32 × Option Nat :=
  match tree with
  | .nil => (leftDelta, some leftRange)
  | .node d left right =>
    if value < d.value then naClAvlTreeFindValue left leftDelta leftRange value
    else if value = d.value then
      let delta := leftDelta + subtreeDelta left + d.valueContainmentDelta
      (if delta = 0 then 1 else delta, none)
    else
      naClAvlTreeFindValue right (leftDelta + subtreeDelta left + d.valueContainmentDelta)
        ((d.value + 1) % 2 ^ 32) value

def naClIntervalRangeTreeAddInterval (root : Tree) (firstVal lastVal : Nat) :
    Except Failure Tree := do
  let (root, _) ← naClAvlTreeInsert (naClIntervalRangeTreeNodeInit firstVal 1) root
  let (root, _) ← naClAvlTreeInsert (naClIntervalRangeTreeNodeInit lastVal (-1)) root
  .ok root

def naClIntervalRangeTreeRemoveInterval (root : Tree) (firstVal lastVal : Nat) :
    Except Failure Tree := do
  let root ← naClIntervalRangeTreeRemoveVal root lastVal (-1)
  naClIntervalRangeTreeRemoveVal root firstVal 1

def naClIntervalRangeTreeOverlapsWith (root : Tree) (firstVal lastVal : Nat) : Bool :=
  let (countFirst, gapLeftFirst) := naClAvlTreeFindValue root 0 0 firstVal
  if countFirst ≠ 0 then true
  else
    let (countLast, gapLeftLast) := naClAvlTreeFindValue root 0 0 lastVal
    if countLast ≠ 0 then true
    else if gapLeftFirst = gapLeftLast then false
    else true

end SandboxTEE.IntervalMultiset
