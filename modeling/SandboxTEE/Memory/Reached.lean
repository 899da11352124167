import SandboxTEE.Memory.IoCalls
import SandboxTEE.Memory.Arguments
import SandboxTEE.Vmmap.Holes
import SandboxTEE.Vmmap.Reprotect

/-! # The memory maps of a running application

Beside the operations of `sel_mem.c` themselves, `brk` changes an entry in place: it extends
the entry of the current break.  Every map that these steps make of an empty one is well
formed, so the lookups and the searches for a hole find what they should.
-/

namespace SandboxTEE.Memory

open SandboxTEE.Runtime SandboxTEE.Vmmap

/-! ## The extension of an entry by `brk` -/

/-- The outcomes of `brkExtend` for the page `last` below the break, the page `newLast` below
    the new one, and the last page `top` of the extended entry. -/
inductive BrkOutcome (m : Map) (last newLast top : Nat) :
    Except Fatal (Map × Option Map) → Prop
  | unmapped (missing : ∀ e ∈ m.live, ¬ e.covers last = true) :
      BrkOutcome m last newLast top (.error .breakNotMapped)
  | inside {m₁ : Map} {e : Vmmap.Entry} (sorted : Sorted m m₁) (wf : m₁.Wf)
      (member : e ∈ m.live)
      (covers : e.covers last = true) (fits : newLast < e.endPage) :
      BrkOutcome m last newLast top (.ok (m₁, some m₁))
  | blocked {m₁ : Map} {e f : Vmmap.Entry} (sorted : Sorted m m₁) (wf : m₁.Wf) (member : e ∈ m.live)
      (covers : e.covers last = true) (outside : e.endPage ≤ newLast) (next : f ∈ m.live)
      (behind : e.endPage ≤ f.pageNum) (near : f.pageNum ≤ top) :
      BrkOutcome m last newLast top (.ok (m₁, none))
  | extended {m₁ m₂ : Map} {before after : List Vmmap.Entry} {e : Vmmap.Entry}
      (sorted : Sorted m m₁)
      (wf : m₁.Wf) (entries : m₁.vmentry = before ++ e :: after) (covers : e.covers last = true)
      (outside : e.endPage ≤ newLast) (free : ∀ f ∈ after, top < f.pageNum)
      (result : m₂ = { m₁ with
        vmentry := before ++ { e with npages := top - e.pageNum + 1 } :: after }) :
      BrkOutcome m last newLast top (.ok (m₁, some m₂))

theorem split_at {α : Type} {l : List α} {i : Nat} {a : α} (at_i : l[i]? = some a) :
    ∃ before after, l = before ++ a :: after ∧ before.length = i := by
  obtain ⟨inside, rfl⟩ := List.getElem?_eq_some_iff.mp at_i
  refine ⟨l.take i, l.drop (i + 1), ?_, by rw [List.length_take]; omega⟩
  rw [List.getElem_cons_drop, List.take_append_drop]

theorem brkExtend_outcome {m : Map} (wf : m.Wf) (last newLast top : Nat) :
    BrkOutcome m last newLast top (brkExtend m last newLast top) := by
  obtain ⟨ix, m₁, run, sorted, located⟩ := naClVmmapFindPageIter_spec wf last
  have wf₁ : m₁.Wf := step_wf wf (.findPageIter last) (by rw [Vmmap.step, run]; rfl)
  have found := located.getElem? wf sorted
  rw [brkExtend, run]
  dsimp only [orFatal, bind, Except.bind]
  cases at_ix : m₁.vmentry[ix]? with
  | none =>
    refine .unmapped fun e he covers => ?_
    rw [(found e).mpr ⟨he, covers⟩] at at_ix
    cases at_ix
  | some e =>
    obtain ⟨member, covers⟩ := (found e).mp at_ix
    dsimp only
    split
    · next fits => exact .inside sorted wf₁ member covers fits
    · next outside =>
      obtain ⟨before, after, entries, length⟩ := split_at at_ix
      obtain ⟨-, upper, -⟩ := List.pairwise_append.mp (entries ▸ sorted.ascending)
      obtain ⟨behind, after_ascending⟩ := List.pairwise_cons.mp upper
      have next : m₁.vmentry[ix + 1]? = after.head? := by
        rw [entries, ← length, List.getElem?_append_right (Nat.le_add_right _ _),
          Nat.add_sub_cancel_left, List.getElem?_cons_succ, List.head?_eq_getElem?]
      have set : ∀ e', m₁.vmentry.set ix e' = before ++ e' :: after := by
        intro e'
        rw [entries, ← length, List.set_append_right _ _ (Nat.le_refl _), Nat.sub_self,
          List.set_cons_zero]
      rw [next, set]
      cases after with
      | nil =>
        exact .extended sorted wf₁ entries covers (Nat.le_of_not_lt outside)
          (fun f hf => absurd hf List.not_mem_nil) rfl
      | cons f after =>
        simp only [List.head?_cons, Option.any_some, decide_eq_true_eq]
        split
        · next near =>
          have hf : f ∈ m₁.vmentry := by
            rw [entries]
            simp
          exact .blocked sorted wf₁ member covers (Nat.le_of_not_lt outside)
            (sorted.perm.mem_iff.mp hf) (behind f List.mem_cons_self) near
        · next free =>
          refine .extended sorted wf₁ entries covers (Nat.le_of_not_lt outside) (fun g hg => ?_) rfl
          have := lowest_pageNum after_ascending hg
          omega

/-- Extending an entry over free pages keeps a map well formed. -/
theorem extended_wf {m₀ m : Map} (sorted : Sorted m₀ m) (wf : m.Wf)
    {before after : List Vmmap.Entry} {e : Vmmap.Entry} {npages : Nat} (entries : m.vmentry = before ++ e :: after)
    (larger : e.npages ≤ npages) (inSpace : e.pageNum + npages ≤ maxPage)
    (free : ∀ f ∈ after, e.pageNum + npages ≤ f.pageNum) :
    Map.Wf { m with vmentry := before ++ { e with npages := npages } :: after } ∧
      Map.live { m with vmentry := before ++ { e with npages := npages } :: after } =
        before ++ { e with npages := npages } :: after ∧
      Ascending (before ++ { e with npages := npages } :: after) := by
  have ascending := sorted.ascending
  have unmarked : ∀ f ∈ before ++ e :: after, f.removed = false := fun f hf => by
    rw [← entries, ← sorted.live] at hf
    simpa using (List.mem_filter.mp hf).2
  have live' : Map.live { m with vmentry := before ++ { e with npages := npages } :: after } =
      before ++ { e with npages := npages } :: after := by
    refine liveOf_all fun f hf => ?_
    rcases List.mem_append.mp hf with low | high
    · exact unmarked f (List.mem_append_left _ low)
    · rcases List.mem_cons.mp high with rfl | high
      · exact unmarked e (by simp)
      · exact unmarked f (by simp [high])
  have inside : ∀ f ∈ before ++ e :: after, 0 < f.npages ∧ f.endPage ≤ maxPage := fun f hf => by
    rw [← entries, ← sorted.live] at hf
    exact ⟨wf.positive f hf, wf.bounded f hf⟩
  have each : ∀ f ∈ before ++ { e with npages := npages } :: after,
      0 < f.npages ∧ f.endPage ≤ maxPage := fun f hf => by
    rcases List.mem_append.mp hf with low | high
    · exact inside f (List.mem_append_left _ low)
    · rcases List.mem_cons.mp high with rfl | high
      · exact ⟨Nat.lt_of_lt_of_le (inside e (by simp)).1 larger, inSpace⟩
      · exact inside f (by simp [high])
  rw [entries] at ascending
  obtain ⟨lower, upper, crossing⟩ := List.pairwise_append.mp ascending
  obtain ⟨-, upper⟩ := List.pairwise_cons.mp upper
  have ascending' : Ascending (before ++ { e with npages := npages } :: after) := by
    refine List.pairwise_append.mpr ⟨lower, List.pairwise_cons.mpr ⟨free, upper⟩, ?_⟩
    intro f hf g hg
    rcases List.mem_cons.mp hg with rfl | hg
    · exact crossing f hf e List.mem_cons_self
    · exact crossing f hf g (List.mem_cons_of_mem e hg)
  refine ⟨⟨?_, ?_, ?_, fun _ => ⟨live', ascending'⟩, ?_, ?_⟩, live', ascending'⟩
  · rw [live']
    exact fun f hf => (each f hf).1
  · rw [live']
    exact fun f hf => (each f hf).2
  · rw [live']
    exact ascending'.imp Or.inl
  · rw [live']
    exact Or.inr (by simp)
  · have capacity := wf.capacity
    simp only [Map.nvalid, entries, List.length_append, List.length_cons] at capacity ⊢
    exact capacity

/-! ## Reached maps -/

/-- One step of the memory map: an operation of `sel_mem.c`, or the growth of the heap. -/
inductive MapStep : Map → Map → Prop
  | op {m m' : Map} (op : Op) (run : Vmmap.step m op = some m') : MapStep m m'
  | add {m : Map} (range : PageRange) (prot flags : BitVec 32) (desc : Option DescId)
      (offset fileSize : BitVec 64)
      (free : ∀ p, range.pageNum ≤ p → p < range.pageNum + range.npages → m.denote p = none) :
      MapStep m (naClVmmapAdd m range.pageNum range.npages prot flags desc offset fileSize)
  | changeProt {m m' : Map} (getFlags : DescId → BitVec 32) (pageNum npages : Nat)
      (prot : BitVec 32) (ok : Bool)
      (run : naClVmmapChangeProt getFlags m pageNum npages prot = some (ok, m')) : MapStep m m'
  | checkExistingMapping {m m' : Map} (getFlags : DescId → BitVec 32) (pageNum npages : Nat)
      (prot : BitVec 32) (ok : Bool)
      (run : naClVmmapCheckExistingMapping getFlags m pageNum npages prot = some (ok, m')) :
      MapStep m m'
  | findMapSpace {m m' : Map} (numPages found : Nat)
      (run : naClVmmapFindMapSpace m numPages = some (found, m')) : MapStep m m'
  | findMapSpaceAboveHint {m m' : Map} (uaddr numPages found : Nat)
      (run : naClVmmapFindMapSpaceAboveHint m uaddr numPages = some (found, m')) : MapStep m m'
  | brk {m sorted : Map} {extended : Option Map} (last newLast top : Nat) (le : newLast ≤ top)
      (inSpace : top < maxPage)
      (run : brkExtend m last newLast top = .ok (sorted, extended)) :
      MapStep m (extended.getD sorted)

/-- The maps that the steps make of an empty one. -/
def MapReached : Map → Prop := Relation.ReflTransGen MapStep naClVmmapCtor

theorem brkExtend_wf {m sorted : Map} {extended : Option Map} (wf : m.Wf) {last newLast top : Nat}
    (le : newLast ≤ top) (inSpace : top < maxPage)
    (run : brkExtend m last newLast top = .ok (sorted, extended)) : (extended.getD sorted).Wf := by
  have outcome := brkExtend_outcome wf last newLast top
  rw [run] at outcome
  cases outcome with
  | inside sorted wf' => exact wf'
  | blocked sorted wf' => exact wf'
  | @extended _ _ before after e sorted' wf' entries covers outside free result =>
    subst result
    refine (extended_wf sorted' wf' entries ?_ ?_ fun f hf => ?_).1
    · simp only [Entry.endPage] at outside
      omega
    · simp only [Entry.endPage] at outside
      omega
    · have := free f hf
      simp only [Entry.endPage] at outside
      omega

theorem MapStep.wf {m m' : Map} (step : MapStep m m') (wf : m.Wf) : m'.Wf := by
  cases step with
  | op op run => exact step_wf wf op run
  | add range prot flags desc offset fileSize free =>
    exact naClVmmapAdd_wf wf range prot flags desc offset fileSize free
  | changeProt getFlags pageNum npages prot ok run => exact naClVmmapChangeProt_wf wf run
  | checkExistingMapping getFlags pageNum npages prot ok run =>
    exact naClVmmapCheckExistingMapping_wf wf run
  | findMapSpace numPages found run => exact naClVmmapFindMapSpace_wf wf run
  | findMapSpaceAboveHint uaddr numPages found run => exact naClVmmapFindMapSpaceAboveHint_wf wf run
  | brk last newLast top le inSpace run => exact brkExtend_wf wf le inSpace run

theorem MapReached.wf {m : Map} (reached : MapReached m) : m.Wf := by
  induction reached with
  | refl => exact naClVmmapCtor_wf
  | tail _ step ih => exact step.wf ih

/-! ## What the lookups and the searches find -/

/-- Two mappings of a map page each, side by side. -/
def sideBySide : Map :=
  naClVmmapAdd (naClVmmapAdd naClVmmapCtor 16 16 3 2 none 0 0) 32 16 3 2 none 0 0

theorem sideBySide_reached : MapReached sideBySide := by
  refine .tail (.tail .refl (.add ⟨16, 16, by decide, by decide⟩ 3 2 none 0 0 ?_))
    (.add ⟨32, 16, by decide, by decide⟩ 3 2 none 0 0 ?_)
  · exact fun _ _ _ => rfl
  · intro p low _
    refine Lib.Cover.denote_eq_none_iff.mpr fun e he covers => ?_
    rw [List.mem_singleton.mp he] at covers
    exact Nat.not_lt.mpr low ((Entry.covers_iff _ p).mp covers).2

end SandboxTEE.Memory
