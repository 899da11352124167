import Mathlib.Data.List.Nodup

/-! # Circular doubly linked lists

Nodes carry a `next` and a `prev` pointer.  A ring is a head node and the nodes one meets from
it: each of them points to its neighbours in both directions (`Ring`).  A node is added in front
of the head and removed anywhere by four and two stores; each operation is described by the ring
it makes and by the pointers it leaves alone.
-/

namespace SandboxTEE.Lib

variable {α : Type}

structure Links (α : Type) where
  next : α → Option α
  prev : α → Option α

namespace Links

variable [DecidableEq α]

def setNext (l : Links α) (node : α) (p : Option α) : Links α :=
  { l with next := Function.update l.next node p }

def setPrev (l : Links α) (node : α) (p : Option α) : Links α :=
  { l with prev := Function.update l.prev node p }

/-- Put a node in front of the head; `none` where a pointer that is followed is null. -/
def addNodeAtEnd (l : Links α) (newNode head : α) : Option (Links α) := do
  let last ← l.prev head
  let l := l.setNext last (some newNode)
  let l := l.setPrev newNode (l.prev head)
  let l := l.setNext newNode (some head)
  some (l.setPrev head (some newNode))

/-- Take a node out; its own pointers stay. -/
def removeNode (l : Links α) (node : α) : Option (Links α) := do
  let after ← l.next node
  let l := l.setPrev after (l.prev node)
  let before ← l.prev node
  some (l.setNext before (l.next node))

end Links

/-! ## Paths -/

/-- From `a` one meets `xs` and then `b`, and the same on the way back. -/
def Path (l : Links α) : α → List α → α → Prop
  | a, [], b => l.next a = some b ∧ l.prev b = some a
  | a, x :: xs, b => (l.next a = some x ∧ l.prev x = some a) ∧ Path l x xs b

variable {l l' : Links α} {a b x : α} {xs ys : List α}

theorem path_append : Path l a (xs ++ x :: ys) b ↔ Path l a xs x ∧ Path l x ys b := by
  induction xs generalizing a with
  | nil => exact Iff.rfl
  | cons y xs ih => simp only [List.cons_append, Path, ih, and_assoc]

theorem Path.congr (path : Path l a xs b) (next : ∀ y ∈ a :: xs, l'.next y = l.next y)
    (prev : ∀ y ∈ b :: xs, l'.prev y = l.prev y) : Path l' a xs b := by
  induction xs generalizing a with
  | nil => exact ⟨(next a (by simp)).trans path.1, (prev b (by simp)).trans path.2⟩
  | cons x xs ih =>
    refine ⟨⟨(next a (by simp)).trans path.1.1, (prev x (by simp)).trans path.1.2⟩, ?_⟩
    exact ih path.2 (fun y member => next y (List.mem_cons_of_mem a member)) fun y member =>
      prev y (by simp only [List.mem_cons] at member ⊢; tauto)

theorem Path.first (path : Path l a xs b) : l.next a = some (xs.headD b) := by
  cases xs with
  | nil => exact path.1
  | cons x xs => exact path.1.1

theorem Path.last (path : Path l a xs b) : ∃ before ∈ a :: xs, l.prev b = some before := by
  induction xs generalizing a with
  | nil => exact ⟨a, by simp, path.2⟩
  | cons x xs ih =>
    obtain ⟨before, member, last⟩ := ih path.2
    exact ⟨before, List.mem_cons_of_mem a member, last⟩

/-! ## Rings -/

/-- From `head` one meets `xs` and then `head` again. -/
structure Ring (l : Links α) (head : α) (xs : List α) : Prop where
  nodup : (head :: xs).Nodup
  path : Path l head xs head

variable {head : α}

theorem ring_nil (next : l.next head = some head) (prev : l.prev head = some head) :
    Ring l head [] := ⟨List.nodup_singleton head, next, prev⟩

theorem Ring.congr (ring : Ring l head xs) (next : ∀ y ∈ head :: xs, l'.next y = l.next y)
    (prev : ∀ y ∈ head :: xs, l'.prev y = l.prev y) : Ring l' head xs :=
  ⟨ring.nodup, ring.path.congr next prev⟩

theorem Ring.next_of_mem (ring : Ring l head (xs ++ x :: ys)) :
    l.next x = some (ys.headD head) := (path_append.mp ring.path).2.first

theorem Ring.next_head (ring : Ring l head xs) : l.next head = some (xs.headD head) :=
  ring.path.first

section Operations

variable [DecidableEq α]

/-- The pointers of a node outside a ring may be cleared. -/
theorem Ring.clear (ring : Ring l head xs) (outside : x ∉ head :: xs) :
    Ring ((l.setNext x none).setPrev x none) head xs :=
  ring.congr (fun _ member => Function.update_of_ne (ne_of_mem_of_not_mem member outside) ..)
    fun _ member => Function.update_of_ne (ne_of_mem_of_not_mem member outside) ..

theorem Path.extend {before new : α} (path : Path l a xs b) (last : l.prev b = some before)
    (nodup : (a :: xs).Nodup) (fresh : new ∉ a :: xs) (next : l'.next = Function.update
      (Function.update l.next before (some new)) new (some b))
    (prev : ∀ y ∈ xs, l'.prev y = l.prev y) (back : l'.prev new = some before) :
    Path l' a xs new := by
  induction xs generalizing a with
  | nil =>
    -- the node before `b` is the start
    cases path.2.symm.trans last
    refine ⟨?_, back⟩
    rw [next, Function.update_of_ne (by simpa [eq_comm] using fresh), Function.update_self]
  | cons x xs ih =>
    obtain ⟨between, inside, found⟩ := path.2.last
    cases found.symm.trans last
    have other : a ≠ before := fun same => (List.nodup_cons.mp nodup).1 (same ▸ inside)
    have notNew : a ≠ new := fun same => fresh (by simp [same])
    refine ⟨⟨?_, (prev x (by simp)).trans path.1.2⟩, ?_⟩
    · rw [next, Function.update_of_ne notNew, Function.update_of_ne other]
      exact path.1.1
    · exact ih path.2 (List.nodup_cons.mp nodup).2 (fun member => fresh (List.mem_cons_of_mem a member))
        fun y member => prev y (List.mem_cons_of_mem x member)

theorem addNodeAtEnd_ring {new : α} (ring : Ring l head xs) (fresh : new ∉ head :: xs) :
    ∃ l', l.addNodeAtEnd new head = some l' ∧ Ring l' head (xs ++ [new]) ∧
      ∀ y, y ∉ new :: head :: xs → l'.next y = l.next y ∧ l'.prev y = l.prev y := by
  obtain ⟨last, inside, found⟩ := ring.path.last
  have notLast : new ≠ last := fun same => fresh (same ▸ inside)
  have notHead : new ≠ head := fun same => fresh (by simp [same])
  refine ⟨_, by rw [Links.addNodeAtEnd, found]; rfl, ⟨?_, ?_⟩, fun y outside => ?_⟩
  · rw [← List.cons_append, List.nodup_append]
    refine ⟨ring.nodup, List.nodup_singleton new, fun y member z here same => fresh ?_⟩
    cases List.mem_singleton.mp here
    exact same ▸ member
  · have prev : ∀ y, y ≠ head → y ≠ new →
        ((((l.setNext last (some new)).setPrev new (l.prev head)).setNext new (some head)).setPrev
          head (some new)).prev y = l.prev y := fun y notHead notNew =>
      (Function.update_of_ne notHead _ _).trans (Function.update_of_ne notNew _ _)
    refine path_append.mpr ⟨ring.path.extend found ring.nodup fresh rfl (fun y member => ?_) ?_, ?_⟩
    · exact prev y (fun same => (List.nodup_cons.mp ring.nodup).1 (same ▸ member))
        fun same => fresh (List.mem_cons_of_mem head (same ▸ member))
    · exact (Function.update_of_ne notHead _ _).trans ((Function.update_self ..).trans found)
    · exact ⟨Function.update_self .., Function.update_self ..⟩
  · simp only [List.mem_cons, not_or] at outside
    have notThere : y ≠ last := fun same => by
      rw [← same, List.mem_cons] at inside
      tauto
    exact ⟨(Function.update_of_ne outside.1 _ _).trans (Function.update_of_ne notThere _ _),
      (Function.update_of_ne outside.2.1 _ _).trans (Function.update_of_ne outside.1 _ _)⟩

theorem Path.unlink {before after : α} (first : Path l a xs x) (second : Path l x ys b)
    (nodup : (a :: (xs ++ x :: ys)).Nodup) (notEnd : b ∉ xs ++ x :: ys)
    (hasBefore : l.prev x = some before) (hasAfter : l.next x = some after)
    (next : l'.next = Function.update l.next before (some after))
    (prev : l'.prev = Function.update l.prev after (some before)) : Path l' a (xs ++ ys) b := by
  induction xs generalizing a with
  | nil =>
    obtain rfl : a = before := Option.some.inj (first.2.symm.trans hasBefore)
    have here : l'.next a = some after := by rw [next, Function.update_self]
    have back : l'.prev after = some a := by rw [prev, Function.update_self]
    cases ys with
    | nil =>
      cases second.1.symm.trans hasAfter
      exact ⟨here, back⟩
    | cons y ys =>
      cases second.1.1.symm.trans hasAfter
      refine ⟨⟨here, back⟩, second.2.congr (fun z member => ?_) fun z member => ?_⟩
      · rw [next, Function.update_of_ne]
        rintro rfl
        simp only [List.nil_append, List.nodup_cons, List.mem_cons, not_or] at nodup member
        tauto
      · rw [prev, Function.update_of_ne]
        rintro rfl
        simp only [List.nil_append, List.nodup_cons, List.mem_cons, not_or] at nodup member notEnd
        tauto
  | cons y xs ih =>
    obtain ⟨between, inside, found⟩ := first.2.last
    obtain rfl : between = before := Option.some.inj (found.symm.trans hasBefore)
    have other : a ≠ between := fun same =>
      (List.nodup_cons.mp nodup).1 (same ▸ List.mem_append_left _ inside)
    have notAfter : y ≠ after := by
      have reached := second.first.symm.trans hasAfter
      rintro rfl
      cases ys with
      | nil =>
        cases reached
        exact notEnd List.mem_cons_self
      | cons z ys =>
        cases reached
        simp [List.nodup_cons] at nodup
    refine ⟨⟨?_, ?_⟩, ih first.2 (List.nodup_cons.mp nodup).2 fun member =>
      notEnd (List.mem_cons_of_mem y member)⟩
    · rw [next, Function.update_of_ne other]
      exact first.1.1
    · rw [prev, Function.update_of_ne notAfter]
      exact first.1.2

theorem removeNode_ring (ring : Ring l head (xs ++ x :: ys)) :
    ∃ l', l.removeNode x = some l' ∧ Ring l' head (xs ++ ys) ∧
      ∀ y, y ∉ head :: (xs ++ ys) → l'.next y = l.next y ∧ l'.prev y = l.prev y := by
  obtain ⟨first, second⟩ := path_append.mp ring.path
  obtain ⟨outside, nodup⟩ := List.nodup_cons.mp ring.nodup
  obtain ⟨before, inFirst, hasBefore⟩ := first.last
  have hasAfter := second.first
  have afterInside : ys.headD head ∈ head :: (xs ++ ys) := by cases ys <;> simp
  have beforeInside : before ∈ head :: (xs ++ ys) :=
    List.mem_cons.mpr ((List.mem_cons.mp inFirst).imp_right (List.mem_append_left ys))
  have notAfter : x ≠ ys.headD head := by
    cases ys with
    | nil =>
      rintro rfl
      exact outside (by simp)
    | cons y ys =>
      rintro rfl
      simp [List.nodup_append] at nodup
  have prevKept : (l.setPrev (ys.headD head) (l.prev x)).prev x = some before :=
    (Function.update_of_ne notAfter ..).trans hasBefore
  have nextKept : (l.setPrev (ys.headD head) (l.prev x)).next x = some (ys.headD head) := hasAfter
  refine ⟨(l.setPrev (ys.headD head) (some before)).setNext before (some (ys.headD head)), ?_,
    ⟨?_, ?_⟩, fun y apart => ⟨?_, ?_⟩⟩
  · simp only [Links.removeNode, hasAfter, Option.bind_eq_bind, Option.bind_some, prevKept, nextKept]
    rw [hasBefore]
  · refine List.nodup_cons.mpr ⟨fun member => outside ?_, ?_⟩
    · simp only [List.mem_append, List.mem_cons] at member ⊢
      tauto
    · exact nodup.sublist (List.Sublist.append_left (List.sublist_cons_self x ys) xs)
  · exact first.unlink second ring.nodup outside hasBefore hasAfter rfl rfl
  · exact Function.update_of_ne (fun same : y = before => apart (same ▸ beforeInside)) ..
  · exact Function.update_of_ne (fun same : y = ys.headD head => apart (same ▸ afterInside)) ..

end Operations

end SandboxTEE.Lib
