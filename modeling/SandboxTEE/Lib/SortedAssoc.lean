import Mathlib.Data.Tree.Basic
import Mathlib.Order.Lattice

/-! # Search trees read as sorted association lists

A binary tree is read from left to right (`inorder`); a search tree is one whose
entries are sorted by key.  Inserting under a key and updating the value of a key
are defined on such lists, with what they do to an append, so that a tree operation
is correct when it does the same to the list of its entries, whatever it does to the
shape of the tree.
-/

namespace SandboxTEE.Lib

section Trees

variable {ν : Type}

/-- The values of a tree, from left to right. -/
def inorder : BinaryTree ν → List ν
  | .nil => []
  | .node a l r => inorder l ++ a :: inorder r

@[simp] theorem inorder_nil : inorder (.nil : BinaryTree ν) = [] := rfl

@[simp] theorem inorder_node (a : ν) (l r : BinaryTree ν) :
    inorder (.node a l r) = inorder l ++ a :: inorder r := rfl

/-- Every node of the tree meets `P` with its two subtrees. -/
def Everywhere (P : ν → BinaryTree ν → BinaryTree ν → Prop) : BinaryTree ν → Prop
  | .nil => True
  | .node a l r => P a l r ∧ Everywhere P l ∧ Everywhere P r

variable {P : ν → BinaryTree ν → BinaryTree ν → Prop}

@[simp] theorem everywhere_nil : Everywhere P .nil := trivial

@[simp] theorem everywhere_node {a : ν} {l r : BinaryTree ν} :
    Everywhere P (.node a l r) ↔ P a l r ∧ Everywhere P l ∧ Everywhere P r := Iff.rfl

theorem Everywhere.mono {Q : ν → BinaryTree ν → BinaryTree ν → Prop}
    (implies : ∀ a l r, P a l r → Everywhere P l → Everywhere P r → Q a l r) {t : BinaryTree ν}
    (holds : Everywhere P t) : Everywhere Q t := by
  induction t with
  | nil => trivial
  | node a l r leftIh rightIh =>
    exact ⟨implies a l r holds.1 holds.2.1 holds.2.2, leftIh holds.2.1, rightIh holds.2.2⟩

end Trees

section Assoc

variable {κ β : Type} [LinearOrder κ]

/-- The keys increase strictly from left to right. -/
def SortedKeys (xs : List (κ × β)) : Prop := xs.Pairwise fun x y => x.1 < y.1

variable {xs ys : List (κ × β)}

theorem SortedKeys.append_iff : SortedKeys (xs ++ ys) ↔
      SortedKeys xs ∧ SortedKeys ys ∧ ∀ x ∈ xs, ∀ y ∈ ys, x.1 < y.1 := List.pairwise_append

variable {x : κ × β}

theorem SortedKeys.cons_iff :
    SortedKeys (x :: xs) ↔ (∀ y ∈ xs, x.1 < y.1) ∧ SortedKeys xs := List.pairwise_cons

/-- The four parts of sortedness at the root of a search tree. -/
theorem SortedKeys.middle_iff : SortedKeys (xs ++ x :: ys) ↔
      SortedKeys xs ∧ SortedKeys ys ∧ (∀ y ∈ xs, y.1 < x.1) ∧ ∀ y ∈ ys, x.1 < y.1 := by
  rw [append_iff, cons_iff]
  constructor
  · intro ⟨left, ⟨above, right⟩, between⟩
    exact ⟨left, right, fun y member => between y member x (by simp), above⟩
  · intro ⟨left, right, below, above⟩
    refine ⟨left, ⟨above, right⟩, fun y member z memberZ => ?_⟩
    cases List.mem_cons.mp memberZ with
    | inl root => exact root ▸ below y member
    | inr inRight => exact (below y member).trans (above z inRight)

/-- The value stored under a key. -/
def find (k : κ) : List (κ × β) → Option β
  | [] => none
  | x :: xs => if x.1 = k then some x.2 else find k xs

@[simp] theorem find_nil (k : κ) : find k ([] : List (κ × β)) = none := rfl

theorem find_cons (k : κ) (x : κ × β) (xs : List (κ × β)) :
    find k (x :: xs) = if x.1 = k then some x.2 else find k xs := rfl

theorem find_eq_none_of_lt {k : κ} (above : ∀ y ∈ xs, k < y.1) : find k xs = none := by
  induction xs with
  | nil => rfl
  | cons x xs ih =>
    have differs : x.1 ≠ k := (above x (by simp)).ne'
    rw [find_cons, if_neg differs]
    exact ih fun y member => above y (by simp [member])

theorem find_isSome_iff {k : κ} : (find k xs).isSome ↔ k ∈ xs.map Prod.fst := by
  induction xs with
  | nil => simp
  | cons x xs ih =>
    rw [find_cons, List.map_cons, List.mem_cons]
    by_cases found : x.1 = k
    · simp [found]
    · rw [if_neg found, ih]
      exact ⟨.inr, fun either => either.resolve_left fun same => found same.symm⟩

theorem find_eq_some_of_mem (sorted : SortedKeys xs) (member : x ∈ xs) :
    find x.1 xs = some x.2 := by
  induction xs with
  | nil => cases member
  | cons y ys ih =>
    obtain ⟨above, sortedTail⟩ := SortedKeys.cons_iff.mp sorted
    rw [find_cons]
    cases List.mem_cons.mp member with
    | inl head => rw [if_pos (congrArg Prod.fst head.symm), head]
    | inr inTail => rw [if_neg (above x inTail).ne, ih sortedTail inTail]

theorem mem_of_find_eq_some {k : κ} {b : β} (found : find k xs = some b) : (k, b) ∈ xs := by
  induction xs with
  | nil => cases found
  | cons x xs ih =>
    rw [find_cons] at found
    split at found
    · next here =>
      cases found
      exact here ▸ List.mem_cons_self
    · exact List.mem_cons_of_mem x (ih found)

theorem find_eq_none_of_forall {k : κ} (other : ∀ x ∈ xs, x.1 ≠ k) : find k xs = none := by
  rw [← Option.not_isSome_iff_eq_none, find_isSome_iff, List.mem_map]
  exact fun ⟨x, member, same⟩ => other x member same

/-! ## Insertion under a key -/

/-- Store `b` under `k`, merged into the value that is there. -/
def insertWith (merge : β → β → β) (k : κ) (b : β) : List (κ × β) → List (κ × β)
  | [] => [(k, b)]
  | x :: xs =>
    if k = x.1 then (x.1, merge x.2 b) :: xs
    else if k < x.1 then (k, b) :: x :: xs
    else x :: insertWith merge k b xs

variable {merge : β → β → β} {k : κ} {b : β}

theorem insertWith_append_of_lt (below : k < x.1) :
    insertWith merge k b (xs ++ x :: ys) = insertWith merge k b xs ++ x :: ys := by
  induction xs with
  | nil => simp [insertWith, below, below.ne]
  | cons y xs ih =>
    simp only [List.cons_append, insertWith, ih]
    split
    · rfl
    · split <;> rfl

theorem insertWith_append_of_gt (above : ∀ y ∈ xs, y.1 < k) :
    insertWith merge k b (xs ++ ys) = xs ++ insertWith merge k b ys := by
  induction xs with
  | nil => rfl
  | cons y xs ih =>
    have greater : y.1 < k := above y (by simp)
    rw [List.cons_append, insertWith, if_neg greater.ne', if_neg greater.not_gt,
      ih fun z member => above z (by simp [member]), List.cons_append]

theorem insertWith_cons_of_gt (greater : x.1 < k) :
    insertWith merge k b (x :: xs) = x :: insertWith merge k b xs := by
  rw [insertWith, if_neg greater.ne', if_neg greater.not_gt]

theorem insertWith_cons_self (same : k = x.1) :
    insertWith merge k b (x :: xs) = (x.1, merge x.2 b) :: xs := by
  rw [insertWith, if_pos same]

theorem mem_insertWith {y : κ × β} (member : y ∈ insertWith merge k b xs) :
    y.1 = k ∨ ∃ x ∈ xs, x.1 = y.1 := by
  induction xs with
  | nil => simp_all [insertWith]
  | cons x xs ih =>
    rw [insertWith] at member
    split at member
    · cases List.mem_cons.mp member with
      | inl head => exact .inr ⟨x, by simp, by rw [head]⟩
      | inr inTail => exact .inr ⟨y, by simp [inTail], rfl⟩
    · split at member
      · cases List.mem_cons.mp member with
        | inl head => exact .inl (by rw [head])
        | inr inTail => exact .inr ⟨y, inTail, rfl⟩
      · cases List.mem_cons.mp member with
        | inl head => exact .inr ⟨x, by simp, by rw [head]⟩
        | inr inTail =>
          cases ih inTail with
          | inl new => exact .inl new
          | inr old =>
            obtain ⟨z, memberZ, same⟩ := old
            exact .inr ⟨z, by simp [memberZ], same⟩

theorem SortedKeys.insertWith (sorted : SortedKeys xs) : SortedKeys (insertWith merge k b xs) := by
  induction xs with
  | nil => simp [Lib.insertWith, SortedKeys]
  | cons x xs ih =>
    obtain ⟨above, sortedTail⟩ := cons_iff.mp sorted
    rw [Lib.insertWith]
    split
    · exact cons_iff.mpr ⟨above, sortedTail⟩
    · rename_i differs
      split
      · rename_i below
        refine cons_iff.mpr ⟨fun y member => ?_, sorted⟩
        cases List.mem_cons.mp member with
        | inl head => exact head ▸ below
        | inr inTail => exact below.trans (above y inTail)
      · rename_i notBelow
        have greater : x.1 < k := lt_of_le_of_ne (not_lt.mp notBelow) (Ne.symm differs)
        refine cons_iff.mpr ⟨fun y member => ?_, ih sortedTail⟩
        cases mem_insertWith member with
        | inl new => exact new ▸ greater
        | inr old =>
          obtain ⟨z, memberZ, same⟩ := old
          exact same ▸ above z memberZ

/-- Insertion changes the value of its key only. -/
theorem find_insertWith {xs : List (κ × β)} (sorted : SortedKeys xs) (v : κ) :
    find v (insertWith merge k b xs) =
      if v = k then some ((find k xs).elim b (merge · b)) else find v xs := by
  induction xs with
  | nil =>
    simp only [insertWith, find_cons, find_nil, Option.elim_none]
    exact if_congr eq_comm rfl rfl
  | cons x xs ih =>
    obtain ⟨above, sortedTail⟩ := SortedKeys.cons_iff.mp sorted
    rw [insertWith]
    by_cases same : k = x.1
    · rw [if_pos same, find_cons, find_cons, find_cons, if_pos same.symm, same]
      simp only [Option.elim_some, eq_comm (a := v)]
      split <;> rfl
    · rw [if_neg same]
      by_cases below : k < x.1
      · have absent : find k (x :: xs) = none := by
          refine find_eq_none_of_lt fun y member => ?_
          cases List.mem_cons.mp member with
          | inl head => exact head ▸ below
          | inr inTail => exact below.trans (above y inTail)
        rw [if_pos below, absent, find_cons]
        exact if_congr eq_comm rfl rfl
      · rw [if_neg below, find_cons, ih sortedTail, find_cons, find_cons, if_neg (Ne.symm same)]
        by_cases here : x.1 = v
        · have other : v ≠ k := fun equal => same (equal.symm.trans here.symm)
          rw [if_pos here, if_neg other, if_pos here]
        · rw [if_neg here, if_neg here]

/-! ## Update of a key -/

/-- Replace the value under `k` by `f` of it; the key goes when `f` gives nothing. -/
def updateAt (f : β → Option β) (k : κ) : List (κ × β) → List (κ × β)
  | [] => []
  | x :: xs =>
    if x.1 = k then (f x.2).elim xs fun b => (x.1, b) :: xs
    else x :: updateAt f k xs

variable {f : β → Option β}

theorem updateAt_eq_self_of_lt (above : ∀ y ∈ xs, k < y.1) : updateAt f k xs = xs := by
  induction xs with
  | nil => rfl
  | cons x xs ih =>
    rw [updateAt, if_neg (above x (by simp)).ne', ih fun y member => above y (by simp [member])]

theorem updateAt_append_of_lt (above : ∀ y ∈ ys, k < y.1) :
    updateAt f k (xs ++ ys) = updateAt f k xs ++ ys := by
  induction xs with
  | nil => exact updateAt_eq_self_of_lt above
  | cons x xs ih =>
    simp only [List.cons_append, updateAt, ih]
    split
    · cases f x.2 <;> rfl
    · rfl

theorem updateAt_append_of_gt (below : ∀ y ∈ xs, y.1 < k) :
    updateAt f k (xs ++ ys) = xs ++ updateAt f k ys := by
  induction xs with
  | nil => rfl
  | cons x xs ih =>
    rw [List.cons_append, updateAt, if_neg (below x (by simp)).ne,
      ih fun z member => below z (by simp [member]), List.cons_append]

theorem updateAt_cons_self (same : x.1 = k) :
    updateAt f k (x :: xs) = (f x.2).elim xs fun b => (x.1, b) :: xs := by
  rw [updateAt, if_pos same]

theorem mem_updateAt {y : κ × β} (member : y ∈ updateAt f k xs) : ∃ x ∈ xs, x.1 = y.1 := by
  induction xs with
  | nil => cases member
  | cons x xs ih =>
    have inTail : y ∈ xs → ∃ z ∈ x :: xs, z.1 = y.1 := fun old => ⟨y, by simp [old], rfl⟩
    rw [updateAt] at member
    split at member
    · cases result : f x.2 with
      | none => exact inTail (by simpa [result] using member)
      | some b =>
        rw [result, Option.elim_some] at member
        cases List.mem_cons.mp member with
        | inl head => exact ⟨x, by simp, by rw [head]⟩
        | inr old => exact inTail old
    · cases List.mem_cons.mp member with
      | inl head => exact ⟨x, by simp, by rw [head]⟩
      | inr old =>
        obtain ⟨z, memberZ, same⟩ := ih old
        exact ⟨z, by simp [memberZ], same⟩

theorem SortedKeys.updateAt (sorted : SortedKeys xs) : SortedKeys (updateAt f k xs) := by
  induction xs with
  | nil => exact sorted
  | cons x xs ih =>
    obtain ⟨above, sortedTail⟩ := cons_iff.mp sorted
    rw [Lib.updateAt]
    split
    · cases f x.2 with
      | none => exact sortedTail
      | some b => exact cons_iff.mpr ⟨above, sortedTail⟩
    · refine cons_iff.mpr ⟨fun y member => ?_, ih sortedTail⟩
      obtain ⟨z, memberZ, same⟩ := mem_updateAt member
      exact same ▸ above z memberZ

/-- What is put under a key that occurs is found there. -/
theorem find_updateAt_some (b : β) (occurs : (find k xs).isSome) :
    find k (updateAt (fun _ => some b) k xs) = some b := by
  induction xs with
  | nil => cases occurs
  | cons x xs ih =>
    rw [find_cons] at occurs
    rw [updateAt]
    by_cases here : x.1 = k
    · rw [if_pos here]
      exact if_pos here
    · rw [if_neg here] at occurs
      rw [if_neg here, find_cons, if_neg here]
      exact ih occurs

/-- An update changes the value of its key only. -/
theorem find_updateAt (sorted : SortedKeys xs) (v : κ) :
    find v (updateAt f k xs) = if v = k then (find k xs).bind f else find v xs := by
  induction xs with
  | nil => simp [updateAt]
  | cons x xs ih =>
    obtain ⟨above, sortedTail⟩ := SortedKeys.cons_iff.mp sorted
    rw [updateAt]
    by_cases same : x.1 = k
    · have absent : find k xs = none := find_eq_none_of_lt (same ▸ above)
      rw [if_pos same, find_cons, find_cons, if_pos same, Option.bind_some, same]
      cases f x.2 with
      | none =>
        by_cases here : v = k
        · simp [here, absent]
        · simp [here, Ne.symm here]
      | some b =>
        rw [Option.elim_some, find_cons]
        by_cases here : v = k
        · simp [here]
        · simp [here, Ne.symm here]
    · rw [if_neg same, find_cons, ih sortedTail, find_cons, find_cons, if_neg same]
      by_cases here : x.1 = v
      · have other : v ≠ k := fun equal => same (here.trans equal)
        rw [if_pos here, if_neg other, if_pos here]
      · rw [if_neg here, if_neg here]

end Assoc

end SandboxTEE.Lib
