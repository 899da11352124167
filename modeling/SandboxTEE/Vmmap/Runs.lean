import SandboxTEE.Lib.Run
import SandboxTEE.Vmmap.Update

/-! # Runs of memory-map operations

The map of a sandbox is overwritten, erased and looked up in any order.  Every such
run follows the abstract machine on page maps: an operation overwrites or erases its
range, a lookup changes nothing.
-/

namespace SandboxTEE.Vmmap

open SandboxTEE.Lib (Admitted foldlM_simulates)

/-- A page range an operation may name: not empty, and inside the page space. -/
structure PageRange where
  pageNum : Nat
  npages : Nat
  pos : 0 < npages
  inSpace : pageNum + npages ≤ maxPage

inductive Op where
  | addWithOverwrite (range : PageRange) (prot flags : BitVec 32) (desc : Option DescId)
      (offset fileSize : BitVec 64)
  | remove (range : PageRange)
  | findPage (pnum : Nat)
  | findPageIter (pnum : Nat)

def step (m : Map) : Op → Option Map
  | .addWithOverwrite r prot flags desc offset fileSize =>
    naClVmmapAddWithOverwrite m r.pageNum r.npages prot flags desc offset fileSize
  | .remove r => naClVmmapRemove m r.pageNum r.npages
  | .findPage pnum => (naClVmmapFindPage m pnum).map Prod.snd
  | .findPageIter pnum => (naClVmmapFindPageIter m pnum).map Prod.snd

/-- What an operation does to the page map.  Page `p` of a new mapping is backed by the
    file at `offset` plus the bytes between the start of the range and `p`. -/
def Op.apply (m : PageMap) : Op → PageMap
  | .addWithOverwrite r prot flags desc offset fileSize =>
    m.overwrite r.pageNum (r.pageNum + r.npages) fun p =>
      ⟨prot, flags, desc, offset + pageDistance r.pageNum p, fileSize⟩
  | .remove r => m.erase r.pageNum (r.pageNum + r.npages)
  | .findPage _ => m
  | .findPageIter _ => m

/-- The operation leaves some page mapped. -/
def Op.StaysLive (m : PageMap) (op : Op) : Prop := ∃ p, op.apply m p ≠ none

theorem naClVmmapMakeSorted_wf {m : Map} (wf : m.Wf) :
    ∃ m', naClVmmapMakeSorted m = some m' ∧ m'.Wf ∧ m'.denote = m.denote := by
  obtain ⟨m', run, perm, ascending, size, sorted⟩ := naClVmmapMakeSorted_spec wf
  have live : m'.live = m'.vmentry := liveOf_all fun e he => by
    have := (List.mem_filter.mp (perm.mem_iff.mp he)).2
    simpa using this
  refine ⟨m', run, ⟨?_, ?_, ?_, fun _ => ⟨live, ascending⟩, ?_, ?_⟩, ?_⟩
  · intro e he
    rw [live] at he
    exact wf.positive e (perm.mem_iff.mp he)
  · intro e he
    rw [live] at he
    exact wf.bounded e (perm.mem_iff.mp he)
  · rw [live]
    exact (perm.pairwise_iff Entry.Apart.symm).mpr wf.apart
  · rw [live]
    exact (em _).imp id id
  · have fewer : m.live.length ≤ m.vmentry.length := List.length_filter_le _ _
    have cap := wf.capacity
    simp only [Map.nvalid] at *
    rw [perm.length_eq, size]
    omega
  · rw [Map.denote, Map.denote, live]
    exact (Lib.Cover.denote_perm wf.separate perm.symm).symm

/-- One operation follows the abstract machine, as long as a page stays mapped. -/
theorem step_follows (m : Map) (op : Op) (wf : m.Wf) (stays : op.StaysLive m.denote) :
    ∃ m', step m op = some m' ∧ m'.Wf ∧ m'.denote = op.apply m.denote := by
  cases op with
  | addWithOverwrite r prot flags desc offset fileSize =>
    exact naClVmmapUpdate_spec wf r.pos r.inSpace prot flags false desc offset fileSize
      fun h => absurd h Bool.false_ne_true
  | remove r =>
    exact naClVmmapUpdate_spec wf r.pos r.inSpace 0 0 true none 0 0 fun _ => stays
  | findPage pnum =>
    obtain ⟨m', run, wf', same⟩ := naClVmmapMakeSorted_wf wf
    exact ⟨m', by simp [step, naClVmmapFindPage, run], wf', same⟩
  | findPageIter pnum =>
    obtain ⟨m', run, wf', same⟩ := naClVmmapMakeSorted_wf wf
    exact ⟨m', by simp [step, naClVmmapFindPageIter, run], wf', same⟩

end SandboxTEE.Vmmap
