import SandboxTEE.Heap.HeaderBytes

/-! # Blocks in use

In every history of calls without a request that the allocator's `int` cannot hold, the blocks in use
lie apart from each other in the pool, and `free` leaves their contents alone.
-/

namespace SandboxTEE.Heap

open SandboxTEE.Lib

/-- The pool is a static array, and so all zero at first. -/
def Machine.start (memPool : Addr) (links : Memory) : Option Machine :=
  (createSlabMgr memPool).map fun heap => ⟨heap, relink heap heap links fun _ => 0, []⟩

/-- With what the list operations leave in the links. -/
inductive Call where
  | malloc (size : BitVec 64) (links : Memory)
  | free (ptr : Addr) (links : Memory)
  | write (ptr : Addr) (off : Nat) (bytes : List (BitVec 8))

/-- Only NULL and blocks in use are freed. -/
def Machine.step (s : Machine) : Call → Option Machine
  | .malloc size links => (s.malloc size links).map Prod.snd
  | .free ptr links =>
    if ptr = 0 ∨ s.live.any fun b => b.ptr = ptr then s.free ptr links else none
  | .write ptr off bytes => s.write ptr off bytes

/-- A request that an `int` holds with the header. -/
def Call.Ordinary : Call → Prop
  | .malloc size _ => size.toNat < 2 ^ 31 - 32
  | _ => True

instance : (c : Call) → Decidable c.Ordinary
  | .malloc size _ => inferInstanceAs (Decidable (size.toNat < 2 ^ 31 - 32))
  | .free .. => inferInstanceAs (Decidable True)
  | .write .. => inferInstanceAs (Decidable True)

def Apart (b b' : Block) : Prop :=
  b.ptr.toNat + b.size.toNat ≤ b'.ptr.toNat ∨ b'.ptr.toNat + b'.size.toNat ≤ b.ptr.toNat

/-- What is to hold of the blocks in use. -/
structure Sound (base : Nat) (s : Machine) : Prop where
  apart : s.live.Pairwise Apart
  owned : ∀ b ∈ s.live, base ≤ b.ptr.toNat ∧ b.ptr.toNat + b.size.toNat ≤ base + poolSize.toNat
  kept : ∀ ptr links s', (∃ b ∈ s.live, b.ptr = ptr) → s.free ptr links = some s' →
    ∀ b ∈ s'.live, bytesAt s'.mem b.ptr.toNat b.size.toNat = bytesAt s.mem b.ptr.toNat b.size.toNat

section Blocks

variable {base : Nat} {h : Allocator} {live : List Block} {s s' : Machine} {links : Memory} {a : Nat}
  {b b' : Block} {memPool : Addr}

theorem Layout.not_scratch (ok : Layout base h live) (member : b ∈ live) (above : b.ptr.toNat ≤ a)
    (below : a < b.ptr.toNat + b.size.toNat) : h.scratch a = false := by
  by_contra scratch
  have top := ok.top
  cases kind : b.level with
  | none =>
    have large := ok.large_behind member kind
    cases ok.scratch_place (by simpa using scratch) with
    | manager _ lt => omega
    | header there le lt =>
      have apart := ok.apart _ _ (.area there) (.large member kind) (by simp)
      simp only [Chunk.start, Chunk.stop] at apart
      omega
    | body slot le lt =>
      have apart := ok.slot_large_apart slot member kind
      omega
    | size none_ => cases none_
    | largeBody none_ => cases none_
  | some i =>
    have size := levelOf_size (ok.sizes b member) kind
    have behind := ok.behind b member (by simp [kind])
    have slot := ok.slot_of_block member kind
    have first := ok.slot_below slot
    rw [Bool.not_eq_false] at scratch
    cases ok.scratch_cases scratch with
    | inl manager => omega
    | inr lists =>
      cases lists with
      | inl header =>
        obtain ⟨j, area, there, le, lt⟩ := header
        obtain ⟨area', there', above', below'⟩ := slot.within
        by_cases same : Chunk.area i area' = Chunk.area j area
        · cases same
          rw [Chunk.start] at above'
          omega
        · have apart := ok.apart _ _ (.area there') (.area there) same
          simp only [Chunk.start, Chunk.stop] at apart above' below'
          omega
      | inr free =>
        obtain ⟨j, mobj, there, le, lt⟩ := free
        have bounds := objSize_bounds j
        have carved := ok.objects j mobj (List.mem_append_left _ there)
        rcases ok.slots_apart slot carved.slot with ⟨rfl, same⟩ | before | after
        · have once := List.nodup_append.mp (ok.once i)
          have mine : b.ptr - objRaw ∈ used live i :=
            List.mem_map_of_mem (List.mem_filter.mpr ⟨member, by simpa using kind⟩)
          have equal : mobj = b.ptr - objRaw := by
            apply BitVec.eq_of_toNat_eq
            rw [ptr_sub_objRaw behind, same]
          exact once.2.2 mobj there _ mine equal
        · omega
        · omega

/-! ## What holds in a layout -/

theorem Layout.apart_live (ok : Layout base h live) : live.Pairwise Apart := by
  apply List.pairwise_iff_forall_sublist.mpr
  intro b b' both
  have member : b ∈ live := both.subset (by simp)
  have member' : b' ∈ live := both.subset (by simp)
  have positive := ok.ptr_sub member
  have positive' := ok.ptr_sub member'
  cases kind : b.level with
  | none =>
    cases kind' : b'.level with
    | none =>
      have other : b ≠ b' := by
        intro same
        have pair := both.filter fun b => b.level = none
        rw [List.filter_cons_of_pos (by simpa using kind), List.filter_cons_of_pos (by simpa using kind')]
          at pair
        have once := ok.large.sublist pair
        simp [same] at once
      have apart := ok.large_apart member kind member' kind' other
      simp only [Apart]
      omega
    | some j =>
      have size := levelOf_size (ok.sizes b' member') kind'
      have apart := ok.slot_large_apart (ok.slot_of_block member' kind') member kind
      simp only [Apart]
      omega
  | some i =>
    have size := levelOf_size (ok.sizes b member) kind
    have slot := ok.slot_of_block member kind
    cases kind' : b'.level with
    | none =>
      have apart := ok.slot_large_apart slot member' kind'
      simp only [Apart]
      omega
    | some j =>
      have size' := levelOf_size (ok.sizes b' member') kind'
      rcases ok.slots_apart slot (ok.slot_of_block member' kind') with ⟨rfl, same⟩ | before | behind
      · -- both in the list of the level, which has no object twice
        have pair : [b.ptr - objRaw, b'.ptr - objRaw].Sublist (used live i) := by
          have kept := (both.filter fun b => b.level = some i).map fun b => b.ptr - objRaw
          rwa [List.filter_cons_of_pos (by simpa using kind),
            List.filter_cons_of_pos (by simpa using kind')] at kept
        have once := (List.nodup_append.mp (ok.once i)).2.1.sublist pair
        have equal : b.ptr - objRaw = b'.ptr - objRaw := by
          apply BitVec.eq_of_toNat_eq
          rw [ptr_sub_objRaw positive.1, ptr_sub_objRaw positive'.1, same]
        simp [equal] at once
      · simp only [Apart]
        omega
      · simp only [Apart]
        omega

theorem Layout.owned (ok : Layout base h live) (member : b ∈ live) :
    base ≤ b.ptr.toNat ∧ b.ptr.toNat + b.size.toNat ≤ base + poolSize.toNat := by
  have top := ok.top
  have bump := ok.bump
  rw [poolSize_toNat]
  cases kind : b.level with
  | none =>
    have inside := ok.large_behind member kind
    omega
  | some i =>
    have size := levelOf_size (ok.sizes b member) kind
    have behind := ok.behind b member (by simp [kind])
    have inside := ok.slot_below (ok.slot_of_block member kind)
    omega

theorem Bytes.sound (ok : Bytes base s) : Sound base s where
  apart := ok.apart_live
  owned := fun b member => ok.owned member
  kept := by
    intro ptr links s' used freed b member
    obtain ⟨heap, b₀, -, -, run, layout, -⟩ := @Bytes.free_spec base s links ok ptr used
    cases freed.symm.trans run
    apply bytesAt_congr
    intro i inside
    apply relink_eq
    · exact ok.not_scratch (List.mem_of_mem_erase member) (Nat.le_add_right _ _) (by omega)
    · exact layout.not_scratch member (Nat.le_add_right _ _) (by omega)

/-! ## Histories -/

theorem Bytes.start (below : memPool.toNat + 2 ^ 28 < 2 ^ 63)
    (start : Machine.start memPool links = some s) : Bytes memPool.toNat s := by
  obtain ⟨heap, created, rfl⟩ := Option.map_eq_some_iff.mp start
  have layout := layout_start below created
  refine ⟨layout, fun a v expects => ?_⟩
  simp only
  rw [layout.relink_expected (fun a scratch => layout.scratch_place scratch) expects]
  cases expects with
  | fresh => rfl
  | padding => rfl
  | level member => cases member
  | large member => cases member
  | largePadding member => cases member

theorem Bytes.step (ok : Bytes base s) {c : Call} (ordinary : c.Ordinary)
    (stepped : s.step c = some s') : Bytes base s' := by
  cases c with
  | malloc size links =>
    obtain ⟨⟨ptr, s''⟩, got, rfl⟩ := Option.map_eq_some_iff.mp stepped
    exact (ok.malloc ordinary got).1
  | free ptr links =>
    rw [Machine.step] at stepped
    split at stepped
    · next used => exact ok.free (by simpa using used) stepped
    · cases stepped
  | write ptr off bytes => exact ok.write stepped

theorem bytes_run {start : Machine} (ok : Bytes base start) {calls : List Call}
    (run : calls.foldlM Machine.step start = some s) (ordinary : ∀ c ∈ calls, c.Ordinary) :
    Bytes base s := by
  apply foldlM_invariant (fun _ _ _ ok ordinary stepped => Bytes.step ok ordinary stepped) calls
    start s ok ?_ run
  exact fun pre c within _ _ => ordinary c (within.subset (by simp))

/-- In every history of ordinary requests the blocks in use are apart and in the pool, and `free` keeps
    what the others hold. -/
theorem live_blocks_sound (below : memPool.toNat + 2 ^ 28 < 2 ^ 63) {start : Machine}
    (init : Machine.start memPool links = some start) {calls : List Call}
    (run : calls.foldlM Machine.step start = some s) (ordinary : ∀ c ∈ calls, c.Ordinary) :
    Sound memPool.toNat s :=
  (bytes_run (Bytes.start below init) run ordinary).sound

/-- Two blocks of a level, a large one, and the first one freed. -/
def blocksHistory : List Call :=
  [.malloc 100 fun _ => 0, .malloc 112 fun _ => 0, .malloc 5000 fun _ => 0, .write 0x10c90 0 [7, 7],
    .free 0x10c10 fun _ => 1]

theorem live_blocks_sound_history : ∃ start s, Machine.start 0x10000 (fun _ => 0) = some start ∧
    blocksHistory.foldlM Machine.step start = some s ∧ s.live.length = 2 ∧
      Sound (0x10000 : Addr).toNat s := by
  have ran : ((Machine.start 0x10000 fun _ => 0).bind fun start =>
      (blocksHistory.foldlM Machine.step start).map (·.live.length)) = some 2 := by decide +kernel
  obtain ⟨start, init, ran⟩ := Option.bind_eq_some_iff.mp ran
  obtain ⟨s, ran, length⟩ := Option.map_eq_some_iff.mp ran
  exact ⟨start, s, init, ran, length, live_blocks_sound (by decide) init ran (by decide)⟩

/-- A request of 4 GB and 100 bytes gets 112 bytes, and the next one a block in the midst of it. -/
theorem live_blocks_not_sound : ¬ ∀ (memPool : Addr), memPool.toNat + 2 ^ 28 < 2 ^ 63 → ∀ links start,
    Machine.start memPool links = some start → ∀ (calls : List Call) (s : Machine),
      calls.foldlM Machine.step start = some s → Sound memPool.toNat s := by
  intro all
  have ran : ((Machine.start 0x10000 fun _ => 0).bind fun start =>
      ([.malloc 4294967396 fun _ => 0, .malloc 100 fun _ => 0].foldlM Machine.step start).map
        (·.live)) = some [⟨0x10c90, 100⟩, ⟨0x10c10, 4294967396⟩] := by decide +kernel
  obtain ⟨start, init, ran⟩ := Option.bind_eq_some_iff.mp ran
  obtain ⟨s, ran, live⟩ := Option.map_eq_some_iff.mp ran
  have apart := (all 0x10000 (by decide) _ start init _ s ran).apart
  rw [live, List.pairwise_cons] at apart
  have overlap := apart.1 ⟨0x10c10, 4294967396⟩ List.mem_cons_self
  simp only [Apart] at overlap
  revert overlap
  decide

end Blocks

end SandboxTEE.Heap
