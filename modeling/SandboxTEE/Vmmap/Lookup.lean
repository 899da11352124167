import SandboxTEE.Stdlib.BsearchCorrect
import SandboxTEE.Vmmap.Runs

/-! # Looking up a page

`NaClVmmapContainCmpEntries` compares a page with a range of pages, so it is no order on
entries; along a sorted array its sign falls, which is all that `bsearch` needs.
-/

namespace SandboxTEE.Vmmap

open SandboxTEE.Stdlib (Falling bsearch bsearch_spec)

variable {p : Nat} {e : Entry}

theorem naClVmmapContainCmpEntries_eq_zero :
    naClVmmapContainCmpEntries p e = 0 ↔ e.covers p = true := by
  rw [Entry.covers_iff, naClVmmapContainCmpEntries, Entry.endPage]
  split
  · constructor
    · intro h
      cases h
    · omega
  · split
    · constructor
      · omega
      · exact fun _ => rfl
    · constructor
      · intro h
        cases h
      · omega

theorem naClVmmapContainCmpEntries_pos :
    0 < naClVmmapContainCmpEntries p e ↔ e.pageNum ≤ p ∧ e.endPage ≤ p := by
  rw [naClVmmapContainCmpEntries, Entry.endPage]
  split <;> [skip; split] <;> constructor <;> omega

theorem naClVmmapContainCmpEntries_neg : naClVmmapContainCmpEntries p e < 0 ↔ p < e.pageNum := by
  rw [naClVmmapContainCmpEntries]
  split <;> [skip; split] <;> constructor <;> omega

theorem Ascending.falling {l : List Entry} (ascending : Ascending l) (p : Nat) :
    Falling naClVmmapContainCmpEntries p l := by
  refine List.Pairwise.imp (fun {e f} before => ?_) ascending
  rw [naClVmmapContainCmpEntries_pos, naClVmmapContainCmpEntries_pos,
    naClVmmapContainCmpEntries_neg, naClVmmapContainCmpEntries_neg]
  simp only [Entry.endPage] at *
  omega

/-- The index of the entry with page `p`, in a sorted array. -/
def Located (m : Map) (p ix : Nat) : Prop :=
  (∃ e, m.vmentry[ix]? = some e ∧ e.covers p = true) ∨
    (ix = m.nvalid ∧ ∀ e ∈ m.vmentry, ¬ e.covers p = true)

variable {m : Map}

theorem bsearch_located (ascending : Ascending m.vmentry) (p : Nat) :
    Located m p ((bsearch naClVmmapContainCmpEntries p m.vmentry).getD m.nvalid) := by
  have searched := bsearch_spec (ascending.falling p)
  generalize bsearch naClVmmapContainCmpEntries p m.vmentry = result at searched
  cases result with
  | some i =>
    obtain ⟨e, at_i, equal⟩ := searched
    exact Or.inl ⟨e, at_i, naClVmmapContainCmpEntries_eq_zero.mp equal⟩
  | none =>
    exact Or.inr ⟨rfl, fun e he covers =>
      searched e he (naClVmmapContainCmpEntries_eq_zero.mpr covers)⟩

theorem Map.Wf.unique (wf : m.Wf) {f : Entry} (he : e ∈ m.live) (hf : f ∈ m.live)
    (e_covers : e.covers p = true) (f_covers : f.covers p = true) : e = f := by
  by_contra ne
  have : Std.Symm Entry.Apart := ⟨fun _ _ => Entry.Apart.symm⟩
  have apart := wf.apart.forall he hf ne
  rw [Entry.covers_iff] at e_covers f_covers
  simp only [Entry.Apart] at apart
  omega

/-- What a lookup leaves of a map: its live entries, sorted. -/
structure Sorted (m m' : Map) : Prop where
  perm : m'.vmentry.Perm m.live
  ascending : Ascending m'.vmentry

theorem Sorted.live {m' : Map} (sorted : Sorted m m') : m'.live = m'.vmentry :=
  liveOf_all fun e he => by
    have := (List.mem_filter.mp (sorted.perm.mem_iff.mp he)).2
    simpa using this

theorem Located.getElem? {m' : Map} (wf : m.Wf) (sorted : Sorted m m') {ix : Nat}
    (located : Located m' p ix) (e : Entry) :
    m'.vmentry[ix]? = some e ↔ e ∈ m.live ∧ e.covers p = true := by
  cases located with
  | inl found =>
    obtain ⟨f, at_ix, f_covers⟩ := found
    have hf : f ∈ m.live := sorted.perm.mem_iff.mp (List.mem_of_getElem? at_ix)
    rw [at_ix, Option.some.injEq]
    constructor
    · intro same
      subst same
      exact ⟨hf, f_covers⟩
    · intro live
      exact wf.unique hf live.1 f_covers live.2
  | inr missing =>
    obtain ⟨rfl, uncovered⟩ := missing
    rw [Map.nvalid, List.getElem?_eq_none (Nat.le_refl _)]
    constructor
    · intro h
      cases h
    · intro live
      exact absurd live.2 (uncovered e (sorted.perm.mem_iff.mpr live.1))

/-- The iterator is at the entry that holds the page, or at the end. -/
theorem naClVmmapFindPageIter_spec (wf : m.Wf) (p : Nat) :
    ∃ ix m', naClVmmapFindPageIter m p = some (ix, m') ∧ Sorted m m' ∧ Located m' p ix := by
  obtain ⟨m', run, perm, ascending, -⟩ := naClVmmapMakeSorted_spec wf
  refine ⟨_, m', ?_, ⟨perm, ascending⟩, bsearch_located ascending p⟩
  rw [naClVmmapFindPageIter, run]
  rfl

/-- The lookup finds the entry to which it positions the iterator. -/
theorem naClVmmapFindPage_eq_iter (m : Map) (p : Nat) : naClVmmapFindPage m p =
      (naClVmmapFindPageIter m p).map fun found => (found.2.vmentry[found.1]?, found.2) := by
  rw [naClVmmapFindPage, naClVmmapFindPageIter]
  cases naClVmmapMakeSorted m with
  | none => rfl
  | some m' =>
    simp only [Option.bind_eq_bind, Option.bind_some, Option.map_some]
    cases bsearch naClVmmapContainCmpEntries p m'.vmentry with
    | none => simp [Map.nvalid]
    | some i => rfl

end SandboxTEE.Vmmap
