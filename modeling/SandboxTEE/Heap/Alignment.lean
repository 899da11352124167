import SandboxTEE.Heap.SlabMgr
import SandboxTEE.Lib.Run

/-! # Alignment of the blocks

Everything the allocator takes from the pool for a level is a multiple of 16 bytes, and so are both
headers; only a large block moves the bump pointer by what was asked for.  As long as the large
requests are multiples of 16 themselves, all blocks are aligned.
-/

namespace SandboxTEE.Heap

open SandboxTEE.Lib

/-! ## What the operations keep -/

structure Level.Aligned (mgr : Level) : Prop where
  areas : ∀ area ∈ mgr.areaList, AlignedTo 4 area.addr
  free : ∀ mobj ∈ mgr.freeList, AlignedTo 4 mobj
  addr : AlignedTo 4 mgr.addr

structure Allocator.Aligned (h : Allocator) : Prop where
  bump : AlignedTo 4 h.bump
  levels : ∀ i, (h.levels i).Aligned

variable {h : Allocator} {level : Fin 8}

theorem Allocator.Aligned.update (aligned : h.Aligned) {mgr : Level} (new : mgr.Aligned) :
    Allocator.Aligned { h with levels := Function.update h.levels level mgr } where
  bump := aligned.bump
  levels := fun i => by
    by_cases same : i = level
    · rw [same]
      simpa using new
    · simpa [same] using aligned.levels i

theorem slabSize_aligned (level : Fin 8) : AlignedTo 4 (slabSize level) := by
  revert level
  decide

theorem maxMemSize_aligned (level : Fin 8) (size : BitVec 64) : AlignedTo 4 (maxMemSize level size) := by
  apply AlignedTo.add (by decide) (by decide)
  apply AlignedTo.mul_left (by decide)
  exact (AlignedTo.setWidth_iff (by decide)).mpr (slabSize_aligned level)

theorem initMaxMemSize_aligned (size : BitVec 64) : AlignedTo 4 (initMaxMemSize size) :=
  AlignedTo.add (by decide) (by decide) (AlignedTo.mul_left (by decide) (by decide))

theorem systemMalloc_aligned (aligned : h.Aligned) {size : BitVec 32} (multiple : AlignedTo 4 size) :
    (h.systemMalloc size).2.Aligned ∧
      ∀ mem, (h.systemMalloc size).1 = some mem → AlignedTo 4 mem := by
  unfold Allocator.systemMalloc
  split
  · refine ⟨⟨aligned.bump.add (by decide) ?_, aligned.levels⟩, ?_⟩
    · exact (AlignedTo.signExtend_iff (by decide) (by decide)).mpr multiple
    · rintro _ ⟨⟩
      exact aligned.bump
  · exact ⟨aligned, by rintro _ ⟨⟩⟩

theorem mallocSmaller_aligned {bytes : BitVec 64 → BitVec 64}
    (multiple : ∀ size, AlignedTo 4 (bytes size)) (fuel : Nat) (size : BitVec 64)
    (aligned : h.Aligned) : (Allocator.mallocSmaller bytes fuel size h).2.Aligned ∧
      ∀ got, (Allocator.mallocSmaller bytes fuel size h).1 = some got → AlignedTo 4 got.1 := by
  induction fuel generalizing size h with
  | zero => exact ⟨aligned, by rintro _ ⟨⟩⟩
  | succ fuel ih =>
    unfold Allocator.mallocSmaller
    split
    · exact ⟨aligned, by rintro _ ⟨⟩⟩
    · have call := @systemMalloc_aligned h aligned ((bytes size).setWidth 32)
        ((AlignedTo.setWidth_iff (by decide)).mpr (multiple size))
      split
      · next mem h' got =>
        rw [got] at call
        refine ⟨call.1, ?_⟩
        rintro _ ⟨⟩
        exact call.2 mem rfl
      · next h' failed =>
        rw [failed] at call
        exact ih _ call.1

theorem setFreeSlabArea_aligned {area : SlabArea} {mgr : Level} (aligned : mgr.Aligned)
    (start : AlignedTo 4 area.addr) : (setFreeSlabArea area level mgr).Aligned where
  areas := aligned.areas
  free := aligned.free
  addr := start.add (by decide) (by decide)

theorem prevEntry_mem {active : Addr} {area : SlabArea} : ∀ {areas : List SlabArea},
    prevEntry active areas = some area → area ∈ areas
  | a :: next :: areas, found => by
    rw [prevEntry] at found
    split at found
    · cases found
      exact List.mem_cons_self
    · exact List.mem_cons_of_mem _ (prevEntry_mem found)

theorem enlargeSlabMgr_aligned (aligned : h.Aligned) : (h.enlargeSlabMgr level).2.Aligned := by
  have mgr := aligned.levels level
  unfold Allocator.enlargeSlabMgr
  simp only
  split
  · next area found =>
    exact aligned.update (setFreeSlabArea_aligned mgr (mgr.areas area (prevEntry_mem found)))
  · have call := mallocSmaller_aligned (maxMemSize_aligned level) 65 (h.levels level).size aligned
    split
    · next h' failed =>
      rw [failed] at call
      exact call.1
    · next mem size h' got =>
      rw [got] at call
      have start : AlignedTo 4 mem := call.2 _ rfl
      have added : Level.Aligned { h.levels level with
          areaList := ⟨mem, size.setWidth 32⟩ :: (h.levels level).areaList } :=
        ⟨List.forall_mem_cons.mpr ⟨start, mgr.areas⟩, mgr.free, mgr.addr⟩
      apply call.1.update
      split
      · exact setFreeSlabArea_aligned added start
      · exact added

theorem makeRoom_aligned (aligned : h.Aligned) : (h.makeRoom level).2.Aligned := by
  unfold Allocator.makeRoom
  simp only
  split
  · exact enlargeSlabMgr_aligned aligned
  · exact aligned

theorem takeObj_aligned (aligned : h.Aligned) :
    AlignedTo 4 (h.takeObj level).1 ∧ (h.takeObj level).2.Aligned := by
  have mgr := aligned.levels level
  unfold Allocator.takeObj
  simp only
  split
  · next mobj freeList found =>
    have all := mgr.free
    rw [found] at all
    obtain ⟨first, rest⟩ := List.forall_mem_cons.mp all
    exact ⟨first, aligned.update ⟨mgr.areas, rest, mgr.addr⟩⟩
  · refine ⟨mgr.addr, aligned.update ⟨mgr.areas, mgr.free, mgr.addr.add (by decide) ?_⟩⟩
    exact (AlignedTo.setWidth_iff (by decide)).mpr (slabSize_aligned level)

/-- A large request is for a multiple of 16 bytes. -/
def Multiple (size : BitVec 64) : Prop := levelOf (size.setWidth 32) = none → AlignedTo 4 size

instance (size : BitVec 64) : Decidable (Multiple size) := inferInstanceAs (Decidable (_ → _))

theorem malloc_aligned (aligned : h.Aligned) {size : BitVec 64} (multiple : Multiple size) :
    (h.malloc size).2.Aligned ∧ ∀ ptr, (h.malloc size).1 = some ptr → AlignedTo 4 ptr := by
  unfold Allocator.malloc Allocator.slabAlloc
  split
  · next large =>
    have whole : AlignedTo 4 ((sizeofLargeMemObj + (size.setWidth 32).signExtend 64).setWidth 32) := by
      rw [AlignedTo.setWidth_iff (by decide), AlignedTo.add_left_iff (by decide) (by decide),
        AlignedTo.signExtend_iff (by decide) (by decide), AlignedTo.setWidth_iff (by decide)]
      exact multiple large
    have call := systemMalloc_aligned aligned whole
    split
    · next h' failed =>
      rw [failed] at call
      exact ⟨call.1, by rintro _ ⟨⟩⟩
    · next mem h' got =>
      rw [got] at call
      refine ⟨call.1, ?_⟩
      rintro _ ⟨⟩
      exact (call.2 mem rfl).add (by decide) (by decide)
  · next level small =>
    have room := @makeRoom_aligned h level aligned
    split
    · next h' failed =>
      rw [failed] at room
      exact ⟨room, by rintro _ ⟨⟩⟩
    · next h' made =>
      rw [made] at room
      obtain ⟨object, after⟩ := @takeObj_aligned _ level room
      refine ⟨after, ?_⟩
      rintro _ ⟨⟩
      exact object.add (by decide) (by decide)

theorem slabFree_aligned (aligned : h.Aligned) {obj : Addr} (block : AlignedTo 4 obj) {byte : BitVec 8}
    {h' : Allocator} (freed : h.slabFree obj byte = some h') : h'.Aligned := by
  unfold Allocator.slabFree at freed
  split at freed
  · cases freed
    exact aligned
  · split at freed
    · cases freed
      exact aligned
    · split at freed
      · next valid =>
        cases freed
        have mgr := aligned.levels ⟨byte.toNat, valid⟩
        refine aligned.update ⟨mgr.areas, ?_, mgr.addr⟩
        intro mobj member
        cases List.mem_append.mp member with
        | inl old => exact mgr.free mobj old
        | inr new =>
          rw [List.mem_singleton.mp new, BitVec.sub_eq_add_neg]
          exact block.add (by decide) (by decide)
      · cases freed

/-! ## Histories -/

structure Aligned (s : State) : Prop where
  heap : s.heap.Aligned
  live : ∀ ptr ∈ s.live, AlignedTo 4 ptr
  returned : ∀ ptr ∈ s.returned, AlignedTo 4 ptr

variable {s s' : State} {memPool : Addr}

theorem initOffset_aligned (level : Fin 8) : AlignedTo 4 (initOffset level) := by
  revert level
  decide

theorem null_aligned : AlignedTo 4 (0 : Addr) := by decide

theorem aligned_init (pool : AlignedTo 4 memPool) (start : State.init memPool = some s) :
    Aligned s := by
  obtain ⟨heap, created, rfl⟩ := Option.map_eq_some_iff.mp start
  refine ⟨?_, by simp, by simp⟩
  have empty : Allocator.Aligned ⟨memPool, memPool + poolSize, fun _ => ⟨[], [], 0, 0, 0, 0⟩⟩ :=
    ⟨pool, fun _ => ⟨by simp, by simp, null_aligned⟩⟩
  have call := mallocSmaller_aligned initMaxMemSize_aligned 65 startupSize empty
  obtain ⟨mem, size, h', got, rfl⟩ := createSlabMgr_some created
  rw [got] at call
  have start : AlignedTo 4 mem := call.2 _ rfl
  refine ⟨call.1.bump, fun level => setFreeSlabArea_aligned ⟨?_, by simp, null_aligned⟩ ?_⟩
  · intro area member
    rw [List.mem_singleton.mp member]
    exact start.add (by decide) (initOffset_aligned level)
  · exact start.add (by decide) (initOffset_aligned level)

def Event.Sound : Event → Prop
  | .malloc size => Multiple size
  | .free .. => True

instance : (e : Event) → Decidable e.Sound
  | .malloc size => inferInstanceAs (Decidable (Multiple size))
  | .free .. => inferInstanceAs (Decidable True)

theorem Aligned.step (aligned : Aligned s) {e : Event} (sound : e.Sound)
    (stepped : step s e = some s') : Aligned s' := by
  cases e with
  | malloc size =>
    have call := @malloc_aligned _ aligned.heap size sound
    simp only [Heap.step] at stepped
    split at stepped
    · cases stepped
    · next ptr heap got =>
      cases stepped
      rw [got] at call
      have block : AlignedTo 4 ptr := call.2 ptr rfl
      refine ⟨call.1, List.forall_mem_cons.mpr ⟨block, aligned.live⟩, fun ptr' member => ?_⟩
      cases List.mem_append.mp member with
      | inl old => exact aligned.returned ptr' old
      | inr new =>
        rw [List.mem_singleton.mp new]
        exact block
  | free ptr level =>
    simp only [Heap.step] at stepped
    split at stepped
    · next known =>
      obtain ⟨heap, freed, rfl⟩ := Option.map_eq_some_iff.mp stepped
      have block : AlignedTo 4 ptr := by
        cases known with
        | inl null =>
          rw [null]
          exact null_aligned
        | inr used => exact aligned.live ptr used
      exact ⟨slabFree_aligned aligned.heap block freed,
        fun ptr' member => aligned.live ptr' (List.mem_of_mem_erase member), aligned.returned⟩
    · cases stepped

/-- In a pool at a multiple of 16, every history of calls whose large requests are for multiples of
    16 bytes gets blocks at multiples of 16 only. -/
theorem malloc_multiple_of_16 (pool : AlignedTo 4 memPool) {start : State}
    (init : State.init memPool = some start) {events : List Event} {s : State}
    (run : events.foldlM step start = some s) (sound : ∀ e ∈ events, e.Sound) :
    ∀ ptr ∈ s.returned, 16 ∣ ptr.toNat := by
  have aligned : Aligned s := by
    apply foldlM_invariant (fun _ _ _ aligned sound stepped => aligned.step sound stepped) events
      start s (aligned_init pool init) ?_ run
    exact fun pre e within _ _ => sound e (within.subset (by simp))
  exact fun ptr member => alignedTo_iff.mp (aligned.returned ptr member)

/-- A small block, a large one of a multiple of 16 bytes, one whose size is more than an `int`
    holds, and the first block again. -/
def history : List Event := [.malloc 100, .malloc 3008, .malloc 4294967400, .free 0x10c10 3, .malloc 100]

theorem malloc_multiple_of_16_history : ∃ start s, State.init 0x10000 = some start ∧
    history.foldlM step start = some s ∧ s.returned.length = 4 ∧
      ∀ ptr ∈ s.returned, 16 ∣ ptr.toNat := by
  have ran : ((State.init 0x10000).bind fun start =>
      (history.foldlM step start).map (·.returned.length)) = some 4 := by decide +kernel
  obtain ⟨start, init, ran⟩ := Option.bind_eq_some_iff.mp ran
  obtain ⟨s, ran, length⟩ := Option.map_eq_some_iff.mp ran
  refine ⟨start, s, init, ran, length, malloc_multiple_of_16 (by decide) init ran ?_⟩
  decide +kernel

/-- A large block of 2033 bytes leaves the bump pointer, and the next large block, at an odd address. -/
theorem malloc_odd : ¬ ∀ (memPool : Addr), AlignedTo 4 memPool → ∀ start,
    State.init memPool = some start → ∀ (events : List Event) (s : State),
      events.foldlM step start = some s → ∀ ptr ∈ s.returned, 16 ∣ ptr.toNat := by
  intro all
  have ran : ((State.init 0x10000).bind fun start =>
      ([.malloc 2033, .malloc 2033].foldlM step start).map (·.returned)) =
        some [0x204a0, 0x20cb1] := by decide +kernel
  obtain ⟨start, init, ran⟩ := Option.bind_eq_some_iff.mp ran
  obtain ⟨s, ran, returned⟩ := Option.map_eq_some_iff.mp ran
  have second := all 0x10000 (by decide) start init _ s ran 0x20cb1 (by simp [returned])
  revert second
  decide

end SandboxTEE.Heap
