import SandboxTEE.Heap.Layout
import SandboxTEE.Lib.ByteMemory
import SandboxTEE.Lib.LittleEndian
import SandboxTEE.Lib.Run

/-! # The bytes in front of the blocks

`malloc` and `free` with the memory they work on: the level byte of an object, the size and the level
of a large block.  The links of the lists stand in the manager, in the headers of the areas and in the
first bytes of the free objects; what the list operations leave there comes with the call.
-/

namespace SandboxTEE.Heap

open SandboxTEE.Lib

abbrev Memory := Nat → BitVec 8

structure Machine where
  heap : Allocator
  mem : Memory
  /-- The blocks in use, as they were asked for. -/
  live : List Block

/-- The bytes of the manager, of the headers of the areas and of the links of the free objects. -/
def Allocator.scratch (h : Allocator) (a : Nat) : Bool :=
  decide ((h.memPoolEnd - poolSize).toNat ≤ a ∧ a < (h.memPoolEnd - poolSize).toNat + 384) ||
    (List.finRange 8).any fun level =>
      ((h.levels level).areaList.any fun area => area.addr.toNat ≤ a ∧ a < area.addr.toNat + 32) ||
      ((h.levels level).freeList.any fun mobj => mobj.toNat + 16 ≤ a ∧ a < mobj.toNat + 32)

/-- Memory with other links. -/
def relink (h h' : Allocator) (links mem : Memory) : Memory := fun a =>
  if h.scratch a || h'.scratch a then links a else mem a

/-- `OBJ_LEVEL(mobj) = level`, or the header of a large block. -/
def writeHeader (mem : Memory) (ptr : Addr) (size : BitVec 64) : Memory :=
  match levelOf (size.setWidth 32) with
  | none =>
    store (store mem (ptr - 32).toNat (leBytes64 ((size.setWidth 32).signExtend 64)))
      (ptr - objRaw).toNat [255]
  | some level => store mem (ptr - objRaw).toNat [BitVec.ofNat 8 level]

/-- `assert(mgr->addr[level] <= mgr->addr_top[level])` -/
def Allocator.withinArea (h : Allocator) (size : BitVec 64) : Bool :=
  (levelOf (size.setWidth 32)).all fun level => (h.levels level).addr ≤ (h.levels level).addrTop

namespace Machine

/-- `none` when there is no memory or an assertion fails: both end the process. -/
def malloc (s : Machine) (size : BitVec 64) (links : Memory) : Option (Addr × Machine) :=
  match s.heap.malloc size with
  | (none, _) => none
  | (some ptr, heap) =>
    if s.heap.withinArea size && heap.withinArea size then
      some (ptr, ⟨heap, writeHeader (relink s.heap heap links s.mem) ptr size, ⟨ptr, size⟩ :: s.live⟩)
    else none

/-- `none` when the level byte is not a level. -/
def free (s : Machine) (ptr : Addr) (links : Memory) : Option Machine :=
  if ptr = 0 then some s
  else
    (s.heap.slabFree ptr (s.mem (ptr - objRaw).toNat)).map fun heap =>
      ⟨heap, relink s.heap heap links s.mem, s.live.eraseP fun b => b.ptr = ptr⟩

/-- The owner of a block writes into it. -/
def write (s : Machine) (ptr : Addr) (off : Nat) (bytes : List (BitVec 8)) : Option Machine :=
  if s.live.any fun b => b.ptr = ptr ∧ off + bytes.length ≤ b.size.toNat then
    some { s with mem := store s.mem (ptr.toNat + off) bytes }
  else none

end Machine

/-! ## What is expected in memory -/

/-- Nothing has been written behind the bump pointer; the headers of the objects are zero but for the
    first byte, which is the level of an object in use. -/
inductive Expects (h : Allocator) (live : List Block) : Nat → BitVec 8 → Prop
  | fresh {a : Nat} (behind : h.bump.toNat ≤ a) (below : a < h.memPoolEnd.toNat) :
      Expects h live a 0
  | padding {i : Fin 8} {m j : Nat} (slot : Slot (h.levels i) i m) (pos : 0 < j) (lt : j < 16) :
      Expects h live (m + j) 0
  | level {b : Block} {i : Fin 8} (member : b ∈ live) (small : b.level = some i) :
      Expects h live (b.ptr.toNat - 16) (BitVec.ofNat 8 i)
  | large {b : Block} (member : b ∈ live) (large : b.level = none) :
      Expects h live (b.ptr.toNat - 16) 255
  | largePadding {b : Block} {j : Nat} (member : b ∈ live) (large : b.level = none) (pos : 0 < j)
      (lt : j < 16) : Expects h live (b.ptr.toNat - j) 0

/-- Bytes of which nothing is expected. -/
inductive Place (h : Allocator) (live : List Block) (base : Nat) : Nat → Prop
  | manager {a : Nat} (above : base ≤ a) (below : a < base + 384) : Place h live base a
  | header {a : Nat} {i : Fin 8} {area : SlabArea} (member : area ∈ (h.levels i).areaList)
      (above : area.addr.toNat ≤ a) (below : a < area.addr.toNat + 32) : Place h live base a
  | body {a m : Nat} {i : Fin 8} (slot : Slot (h.levels i) i m) (above : m + 16 ≤ a)
      (below : a < m + objSize i) : Place h live base a
  | size {a : Nat} {b : Block} (member : b ∈ live) (large : b.level = none)
      (above : b.ptr.toNat - 32 ≤ a) (below : a < b.ptr.toNat - 16) : Place h live base a
  | largeBody {a : Nat} {b : Block} (member : b ∈ live) (large : b.level = none)
      (above : b.ptr.toNat ≤ a) (below : a < b.ptr.toNat + b.size.toNat) : Place h live base a

structure Bytes (base : Nat) (s : Machine) : Prop extends Layout base s.heap s.live where
  expected : ∀ a v, Expects s.heap s.live a v → s.mem a = v

/-! ## Objects and blocks apart -/

section Apart

variable {base : Nat} {h : Allocator} {live : List Block} {i j : Fin 8} {m n a : Nat} {b b' : Block}

theorem Layout.slots_apart (ok : Layout base h live) (slot : Slot (h.levels i) i m)
    (slot' : Slot (h.levels j) j n) : (i = j ∧ m = n) ∨ m + objSize i ≤ n ∨ n + objSize j ≤ m := by
  obtain ⟨area, member, k, less, at_⟩ := slot
  obtain ⟨area', member', k', less', at'⟩ := slot'
  by_cases same : Chunk.area i area = Chunk.area j area'
  · cases same
    have order : k = k' ∨ k + 1 ≤ k' ∨ k' + 1 ≤ k := by omega
    rcases order with rfl | before | behind
    · exact .inl ⟨rfl, at_.trans at'.symm⟩
    · have := Nat.mul_le_mul_right (objSize i) before
      rw [Nat.succ_mul] at this
      omega
    · have := Nat.mul_le_mul_right (objSize i) behind
      rw [Nat.succ_mul] at this
      omega
  · right
    have apart := ok.apart _ _ (.area member) (.area member') same
    have first := Nat.mul_le_mul_right (objSize i) less
    have second := Nat.mul_le_mul_right (objSize j) less'
    rw [Nat.succ_mul] at first second
    simp only [Chunk.start, Chunk.stop] at apart
    omega

theorem Layout.slot_large_apart (ok : Layout base h live) (slot : Slot (h.levels i) i m)
    (member : b ∈ live) (large : b.level = none) :
    m + objSize i ≤ b.ptr.toNat - 32 ∨ b.ptr.toNat + b.size.toNat ≤ m := by
  obtain ⟨area, inside, above, below⟩ := slot.within
  have apart := ok.apart _ _ (.area inside) (.large member large) (by simp)
  simp only [Chunk.start, Chunk.stop] at apart above below
  omega

theorem Layout.large_apart (ok : Layout base h live) (member : b ∈ live) (large : b.level = none)
    (member' : b' ∈ live) (large' : b'.level = none) (other : b ≠ b') :
    b.ptr.toNat + b.size.toNat ≤ b'.ptr.toNat - 32 ∨
      b'.ptr.toNat + b'.size.toNat ≤ b.ptr.toNat - 32 :=
  ok.apart _ _ (.large member large) (.large member' large') (by simpa using other)

theorem Layout.large_behind (ok : Layout base h live) (member : b ∈ live) (large : b.level = none) :
    base + 384 + 32 ≤ b.ptr.toNat ∧ b.ptr.toNat + b.size.toNat ≤ h.bump.toNat := by
  have inside := ok.inside _ (.large member large)
  simp only [Chunk.start, Chunk.stop] at inside
  omega

theorem ptr_sub_objRaw {ptr : Addr} (behind : 16 ≤ ptr.toNat) :
    (ptr - objRaw).toNat = ptr.toNat - 16 :=
  BitVec.toNat_sub_of_le (show objRaw.toNat ≤ ptr.toNat from behind)

theorem Layout.slot_of_block (ok : Layout base h live) (member : b ∈ live) (small : b.level = some i) :
    Slot (h.levels i) i (b.ptr.toNat - 16) := by
  have behind := ok.behind b member (by simp [small])
  have there : b.ptr - objRaw ∈ (h.levels i).freeList ++ used live i := by
    apply List.mem_append_right
    exact List.mem_map_of_mem (List.mem_filter.mpr ⟨member, by simpa using small⟩)
  have carved := ok.objects i _ there
  rw [ptr_sub_objRaw behind] at carved
  exact carved.slot

/-- What is expected is expected in a header or where nothing has been written. -/
theorem Expects.where_ (ok : Layout base h live) {v : BitVec 8} (expects : Expects h live a v) :
    h.bump.toNat ≤ a ∨ (∃ i m, Slot (h.levels i) i m ∧ m ≤ a ∧ a < m + 16) ∨
      ∃ b ∈ live, b.level = none ∧ b.ptr.toNat - 16 ≤ a ∧ a < b.ptr.toNat := by
  cases expects with
  | fresh behind below => exact .inl behind
  | @padding i m j slot pos lt => exact .inr (.inl ⟨i, m, slot, by omega, by omega⟩)
  | @level b i member small =>
    exact .inr (.inl ⟨i, _, ok.slot_of_block member small, Nat.le_refl _, by omega⟩)
  | @large b member large =>
    have := ok.large_behind member large
    exact .inr (.inr ⟨b, member, large, Nat.le_refl _, by omega⟩)
  | @largePadding b j member large pos lt =>
    have := ok.large_behind member large
    exact .inr (.inr ⟨b, member, large, by omega, by omega⟩)

theorem Place.loose (ok : Layout base h live) (place : Place h live base a) (v : BitVec 8) :
    ¬Expects h live a v := by
  intro expects
  have manager := ok.manager
  rcases expects.where_ ok with fresh | ⟨i, m, slot, above, below⟩ | ⟨b, member, large, above, below⟩
  · cases place with
    | manager _ lt => omega
    | header inside _ lt =>
      have stop := (ok.inside _ (.area inside)).2
      rw [Chunk.stop] at stop
      omega
    | body slot _ lt =>
      have := ok.slot_below slot
      omega
    | size inside none_ _ lt =>
      have := ok.large_behind inside none_
      omega
    | largeBody inside none_ _ lt =>
      have := ok.large_behind inside none_
      omega
  · have first := ok.slot_below slot
    have bounds := objSize_bounds i
    cases place with
    | manager _ lt => omega
    | @header i' area inside le lt =>
      obtain ⟨area', inside', above', below'⟩ := slot.within
      by_cases same : Chunk.area i area' = Chunk.area i' area
      · cases same
        rw [Chunk.start] at above'
        omega
      · have apart := ok.apart _ _ (.area inside') (.area inside) same
        simp only [Chunk.start, Chunk.stop] at apart above' below'
        omega
    | @body _ i' slot' le lt =>
      have apart := ok.slots_apart slot slot'
      rcases apart with ⟨rfl, rfl⟩ | before | behind <;> omega
    | size inside none_ le lt =>
      have apart := ok.slot_large_apart slot inside none_
      omega
    | largeBody inside none_ le lt =>
      have apart := ok.slot_large_apart slot inside none_
      omega
  · have first := ok.large_behind member large
    cases place with
    | manager _ lt => omega
    | header inside le lt =>
      have apart := ok.apart _ _ (.area inside) (.large member large) (by simp)
      simp only [Chunk.start, Chunk.stop] at apart
      omega
    | @body _ i' slot' le lt =>
      have apart := ok.slot_large_apart slot' member large
      omega
    | @size b' inside none_ le lt =>
      by_cases same : b = b'
      · subst same
        omega
      · have apart := ok.large_apart member large inside none_ same
        omega
    | @largeBody b' inside none_ le lt =>
      by_cases same : b = b'
      · subst same
        omega
      · have apart := ok.large_apart member large inside none_ same
        omega

end Apart

/-! ## What the calls write -/

section Writes

variable {base : Nat} {h : Allocator} {live : List Block} {s s' : Machine} {links : Memory} {a : Nat}
  {b : Block}

variable {size : BitVec 64}

theorem levelOf_size {i : Fin 8} (ordinary : size.toNat < 2 ^ 31 - 32)
    (small : levelOf (size.setWidth 32) = some i) : size.toNat + 16 ≤ objSize i := by
  have fits := levelOf_some small
  have narrow : (size.setWidth 32).toNat = size.toNat := by
    rw [BitVec.toNat_setWidth]
    exact Nat.mod_eq_of_lt (by omega)
  have add := slabLevels_add i
  have bounds := objSize_bounds i
  rw [BitVec.sle, decide_eq_true_eq, BitVec.toInt_eq_toNat_of_lt (by rw [narrow]; omega),
    BitVec.toInt_eq_toNat_of_lt (by omega), narrow] at fits
  omega

theorem Layout.block_place (ok : Layout base h live) (member : b ∈ live) (above : b.ptr.toNat ≤ a)
    (below : a < b.ptr.toNat + b.size.toNat) : Place h live base a := by
  cases small : b.level with
  | none => exact .largeBody member small above below
  | some i =>
    have size := levelOf_size (ok.sizes b member) small
    have behind := ok.behind b member (by simp [small])
    exact .body (ok.slot_of_block member small) (by omega) (by omega)

theorem Layout.scratch_cases (ok : Layout base h live) (scratch : h.scratch a = true) :
    (base ≤ a ∧ a < base + 384) ∨
      (∃ i, ∃ area ∈ (h.levels i).areaList, area.addr.toNat ≤ a ∧ a < area.addr.toNat + 32) ∨
      ∃ i, ∃ mobj ∈ (h.levels i).freeList, mobj.toNat + 16 ≤ a ∧ a < mobj.toNat + 32 := by
  have top := ok.top
  have start : (h.memPoolEnd - poolSize).toNat = base := by
    rw [BitVec.toNat_sub_of_le (BitVec.le_def.mpr (by rw [poolSize_toNat]; omega)), poolSize_toNat, top]
    exact Nat.add_sub_cancel _ _
  rw [Allocator.scratch, start, Bool.or_eq_true] at scratch
  cases scratch with
  | inl manager => exact .inl (of_decide_eq_true manager)
  | inr lists =>
    obtain ⟨level, -, there⟩ := List.any_eq_true.mp lists
    rw [Bool.or_eq_true] at there
    cases there with
    | inl areas =>
      obtain ⟨area, member, range⟩ := List.any_eq_true.mp areas
      exact .inr (.inl ⟨level, area, member, of_decide_eq_true range⟩)
    | inr free =>
      obtain ⟨mobj, member, range⟩ := List.any_eq_true.mp free
      exact .inr (.inr ⟨level, mobj, member, of_decide_eq_true range⟩)

theorem Layout.scratch_place (ok : Layout base h live) (scratch : h.scratch a = true) :
    Place h [] base a := by
  rcases ok.scratch_cases scratch with ⟨above, below⟩ | ⟨i, area, member, above, below⟩ |
    ⟨i, mobj, member, above, below⟩
  · exact .manager above below
  · exact .header member above below
  · have bounds := objSize_bounds i
    have carved := ok.objects i mobj (List.mem_append_left _ member)
    exact .body carved.slot above (by omega)

variable {h' : Allocator}

theorem Place.mono {live' : List Block} (place : Place h live base a)
    (areas : ∀ i, ∀ a ∈ (h.levels i).areaList, a ∈ (h'.levels i).areaList)
    (more : ∀ b ∈ live, b ∈ live') : Place h' live' base a := by
  cases place with
  | manager above below => exact .manager above below
  | header member above below => exact .header (areas _ _ member) above below
  | body slot above below => exact .body (slot.mono (areas _)) above below
  | size member none_ above below => exact .size (more _ member) none_ above below
  | largeBody member none_ above below => exact .largeBody (more _ member) none_ above below

variable {mem : Memory}

theorem relink_eq (first : h.scratch a = false) (second : h'.scratch a = false) :
    relink h h' links mem a = mem a := by
  rw [relink, first, second]
  rfl

variable {v : BitVec 8}

/-- What is expected stays when what is written is somewhere else. -/
theorem Layout.relink_expected (ok : Layout base h live) {h₀ : Allocator}
    (first : ∀ a, h₀.scratch a = true → Place h live base a) (expects : Expects h live a v) :
    relink h₀ h links mem a = mem a := by
  apply relink_eq
  · by_contra scratch
    exact (first a (by simpa using scratch)).loose ok v expects
  · by_contra scratch
    have place := ok.scratch_place (by simpa using scratch)
    exact (place.mono (fun _ _ => id) (by simp)).loose ok v expects

variable {ptr : Addr}

theorem Bytes.write (ok : Bytes base s) {off : Nat} {bytes : List (BitVec 8)}
    (wrote : s.write ptr off bytes = some s') : Bytes base s' := by
  rw [Machine.write] at wrote
  split at wrote
  · next owned =>
    cases wrote
    obtain ⟨b, member, rfl, within⟩ : ∃ b ∈ s.live, b.ptr = ptr ∧
        off + bytes.length ≤ b.size.toNat := by simpa using owned
    refine ⟨ok.toLayout, fun a v expects => ?_⟩
    rw [← ok.expected a v expects]
    apply store_of_outside
    by_contra inside
    exact (ok.block_place member (by omega) (by omega)).loose ok.toLayout v expects
  · cases wrote

/-! ## `free` -/

theorem eraseP_eq_erase (used : ∃ b ∈ live, b.ptr = ptr) :
    ∃ b ∈ live, b.ptr = ptr ∧ live.eraseP (fun b => b.ptr = ptr) = live.erase b := by
  induction live with
  | nil =>
    obtain ⟨b, member, -⟩ := used
    cases member
  | cons first live ih =>
    by_cases here : first.ptr = ptr
    · refine ⟨first, List.mem_cons_self, here, ?_⟩
      rw [List.eraseP_cons_of_pos (by simpa using here), List.erase_cons_head]
    · obtain ⟨b, member, same⟩ := used
      have later : ∃ b ∈ live, b.ptr = ptr := by
        cases List.mem_cons.mp member with
        | inl this => exact absurd (this ▸ same) here
        | inr rest => exact ⟨b, rest, same⟩
      obtain ⟨b, member, same, erased⟩ := ih later
      refine ⟨b, List.mem_cons_of_mem _ member, same, ?_⟩
      rw [List.eraseP_cons_of_neg (by simpa using here), erased, List.erase_cons_tail]
      simp only [beq_iff_eq]
      rintro rfl
      exact here same

theorem Expects.of_fewer {live' : List Block}
    (areas : ∀ i, (h'.levels i).areaList = (h.levels i).areaList) (bump : h'.bump = h.bump)
    (top : h'.memPoolEnd = h.memPoolEnd) (fewer : ∀ b ∈ live', b ∈ live)
    (expects : Expects h' live' a v) : Expects h live a v := by
  cases expects with
  | fresh behind below => exact .fresh (bump ▸ behind) (top ▸ below)
  | @padding i m j slot pos lt => exact .padding (slot.mono fun a member => areas i ▸ member) pos lt
  | level member small => exact .level (fewer _ member) small
  | large member none_ => exact .large (fewer _ member) none_
  | largePadding member none_ pos lt => exact .largePadding (fewer _ member) none_ pos lt

/-- Freeing a block takes it from the blocks in use and writes links only. -/
theorem Bytes.free_spec (ok : Bytes base s) {ptr : Addr} (used : ∃ b ∈ s.live, b.ptr = ptr) :
    ∃ heap, ∃ b ∈ s.live, b.ptr = ptr ∧
      s.free ptr links = some ⟨heap, relink s.heap heap links s.mem, s.live.erase b⟩ ∧
      Layout base heap (s.live.erase b) ∧
      (∀ i, (heap.levels i).areaList = (s.heap.levels i).areaList) ∧ heap.bump = s.heap.bump ∧
      heap.memPoolEnd = s.heap.memPoolEnd ∧
      ∀ i, ∀ mobj ∈ (s.heap.levels i).freeList, mobj ∈ (heap.levels i).freeList := by
  obtain ⟨b, member, rfl, erased⟩ := eraseP_eq_erase used
  have positive : 16 ≤ b.ptr.toNat := by
    cases small : b.level with
    | none =>
      have := ok.large_behind member small
      omega
    | some i => exact ok.behind b member (by simp [small])
  have nonzero : b.ptr ≠ 0 := by
    intro zero
    rw [zero] at positive
    exact absurd positive (by decide)
  rw [Machine.free, if_neg nonzero, erased, ptr_sub_objRaw positive]
  cases small : b.level with
  | none =>
    rw [ok.expected _ _ (.large member small), Allocator.slabFree, if_neg nonzero, if_pos rfl]
    exact ⟨s.heap, b, member, rfl, rfl, ok.freeLarge member small, fun _ => rfl, rfl, rfl,
      fun _ _ => id⟩
  | some i =>
    have byte : (BitVec.ofNat 8 i).toNat = i := by
      rw [BitVec.toNat_ofNat]
      exact Nat.mod_eq_of_lt (by omega)
    have level : ¬BitVec.ofNat 8 i = (255 : BitVec 8) := by
      intro same
      have := congrArg BitVec.toNat same
      rw [byte] at this
      exact absurd i.isLt (by rw [this]; decide)
    rw [ok.expected _ _ (.level member small), Allocator.slabFree, if_neg nonzero, if_neg level]
    simp only [byte, i.isLt, dif_pos, Fin.eta, Option.map_some]
    refine ⟨_, b, member, rfl, rfl, ok.freeSmall member small, ?_, rfl, rfl, ?_⟩
    · exact (Function.forall_update_iff _ fun j (mgr : Level) =>
        mgr.areaList = (s.heap.levels j).areaList).mpr ⟨rfl, fun _ _ => rfl⟩
    · exact (Function.forall_update_iff _ fun j (mgr : Level) =>
        ∀ mobj ∈ (s.heap.levels j).freeList, mobj ∈ mgr.freeList).mpr
          ⟨fun _ member => List.mem_append_left _ member, fun _ _ _ => id⟩

theorem Bytes.free (ok : Bytes base s) (used : ptr = 0 ∨ ∃ b ∈ s.live, b.ptr = ptr)
    (freed : s.free ptr links = some s') : Bytes base s' := by
  by_cases null : ptr = 0
  · rw [Machine.free, if_pos null] at freed
    cases freed
    exact ok
  · obtain ⟨heap, b, member, -, run, layout, areas, bump, top, -⟩ :=
      @Bytes.free_spec base s links ok ptr (used.resolve_left null)
    cases freed.symm.trans run
    refine ⟨layout, fun a v expects => ?_⟩
    have old := expects.of_fewer areas bump top fun b => List.mem_of_mem_erase
    rw [← ok.expected a v old]
    apply layout.relink_expected _ expects
    intro a scratch
    exact (ok.scratch_place scratch).mono (fun i a member => (areas i).symm ▸ member) (by simp)

/-! ## `malloc` -/

def Block.levelByte (b : Block) : BitVec 8 :=
  match b.level with
  | none => 255
  | some level => BitVec.ofNat 8 level

/-- In front of a new block its level is expected. -/
theorem Expects.head (ok : Layout base h (b :: live))
    (expects : Expects h (b :: live) (b.ptr.toNat - 16) v) : v = b.levelByte := by
  have head : b ∈ b :: live := List.mem_cons_self
  rw [Block.levelByte]
  cases kind : b.level with
  | none =>
    have := ok.large_behind head kind
    generalize at_ : b.ptr.toNat - 16 = a at expects
    cases expects with
    | fresh behind below => omega
    | padding slot pos lt =>
      have := ok.slot_large_apart slot head kind
      have bounds := objSize_bounds
      rename_i i m j
      have := bounds i
      omega
    | level member small =>
      rename_i b' i
      have := ok.slot_large_apart (ok.slot_of_block member small) head kind
      have := objSize_bounds i
      omega
    | large => rfl
    | largePadding member none_ pos lt =>
      rename_i b' j
      by_cases same : b' = b
      · subst same
        omega
      · have := ok.large_apart member none_ head kind same
        have := ok.large_behind member none_
        omega
  | some i =>
    have slot := ok.slot_of_block head kind
    have below := ok.slot_below slot
    have bounds := objSize_bounds i
    generalize at_ : b.ptr.toNat - 16 = a at expects
    cases expects with
    | fresh behind below => omega
    | padding slot' pos lt =>
      rename_i i' m j
      have := objSize_bounds i'
      rcases ok.slots_apart slot slot' with ⟨rfl, same⟩ | before | behind <;> omega
    | level member small =>
      rename_i b' i'
      have := objSize_bounds i'
      rcases ok.slots_apart slot (ok.slot_of_block member small) with ⟨rfl, -⟩ | before | behind
      · rfl
      · omega
      · omega
    | large member none_ =>
      have := ok.slot_large_apart slot member none_
      have := ok.large_behind member none_
      omega
    | largePadding member none_ pos lt =>
      have := ok.slot_large_apart slot member none_
      have := ok.large_behind member none_
      omega

/-- Everything else that is expected was expected before, or nothing had been written there. -/
theorem Expects.before (ok : Layout base h' (b :: live)) (grown : Grown h h')
    (large : b.level = none → b.ptr.toNat = h.bump.toNat + 32)
    (expects : Expects h' (b :: live) a v) (other : a ≠ b.ptr.toNat - 16) : Expects h live a v := by
  have room := ok.bump
  rw [grown.top] at room
  cases expects with
  | fresh behind below => exact .fresh (grown.bump.trans behind) (grown.top ▸ below)
  | @padding i m j slot pos lt =>
    have below := ok.slot_below slot
    have bounds := objSize_bounds i
    obtain ⟨area, member, k, less, at_⟩ := slot
    cases grown.new i area member with
    | inl old => exact .padding ⟨area, old, k, less, at_⟩ pos lt
    | inr behind => exact .fresh (by omega) (by omega)
  | @level b' i member small =>
    cases List.mem_cons.mp member with
    | inl new => exact absurd (by rw [new]) other
    | inr old => exact .level old small
  | @large b' member none_ =>
    cases List.mem_cons.mp member with
    | inl new => exact absurd (by rw [new]) other
    | inr old => exact .large old none_
  | @largePadding b' j member none_ pos lt =>
    cases List.mem_cons.mp member with
    | inl new =>
      subst new
      have at_ := large none_
      have behind := ok.large_behind member none_
      exact .fresh (by omega) (by omega)
    | inr old => exact .largePadding old none_ pos lt

theorem Layout.ptr_sub (ok : Layout base h live) (member : b ∈ live) :
    16 ≤ b.ptr.toNat ∧ (b.level = none → 32 ≤ b.ptr.toNat) := by
  cases kind : b.level with
  | none =>
    have := ok.large_behind member kind
    omega
  | some i => exact ⟨ok.behind b member (by simp [kind]), by simp⟩

theorem writeHeader_at (behind : 16 ≤ ptr.toNat) :
    writeHeader mem ptr size (ptr.toNat - 16) = (⟨ptr, size⟩ : Block).levelByte := by
  rw [writeHeader, ptr_sub_objRaw behind, Block.levelByte, Block.level]
  cases levelOf (size.setWidth 32) with
  | none =>
    simp only
    rw [store_singleton, if_pos rfl]
  | some i =>
    simp only
    rw [store_singleton, if_pos rfl]

theorem writeHeader_other
    (behind : 16 ≤ ptr.toNat ∧ ((⟨ptr, size⟩ : Block).level = none → 32 ≤ ptr.toNat))
    (other : a ≠ ptr.toNat - 16)
    (front : (⟨ptr, size⟩ : Block).level = none → ¬(ptr.toNat - 32 ≤ a ∧ a < ptr.toNat - 24)) :
    writeHeader mem ptr size a = mem a := by
  rw [writeHeader, ptr_sub_objRaw behind.1]
  cases kind : levelOf (size.setWidth 32) with
  | none =>
    have first := behind.2 kind
    have start : (ptr - 32).toNat = ptr.toNat - 32 :=
      BitVec.toNat_sub_of_le (show (32 : BitVec 64).toNat ≤ ptr.toNat from first)
    have outside := front kind
    simp only
    rw [store_singleton, if_neg other, start]
    apply store_of_outside
    rw [length_leBytes64]
    omega
  | some i =>
    simp only
    rw [store_singleton, if_neg other]

theorem Bytes.malloc (ok : Bytes base s) (ordinary : size.toNat < 2 ^ 31 - 32)
    (got : s.malloc size links = some (ptr, s')) :
    Bytes base s' ∧ s'.live = ⟨ptr, size⟩ :: s.live ∧ Grown s.heap s'.heap := by
  rw [Machine.malloc] at got
  split at got
  · cases got
  · next ptr' heap allocated =>
    split at got
    · next within =>
      cases got
      rw [Bool.and_eq_true] at within
      obtain ⟨layout, grown, large⟩ := ok.toLayout.malloc ordinary allocated within.2
      refine ⟨⟨layout, fun a v expects => ?_⟩, rfl, grown⟩
      have linked : relink s.heap heap links s.mem a = s.mem a := by
        apply layout.relink_expected _ expects
        intro a scratch
        exact (ok.scratch_place scratch).mono grown.kept (by simp)
      have behind := layout.ptr_sub List.mem_cons_self
      by_cases here : a = ptr.toNat - 16
      · subst here
        rw [Expects.head layout expects]
        exact writeHeader_at behind.1
      · rw [← ok.expected a v (expects.before layout grown large here), ← linked]
        apply writeHeader_other behind here
        intro kind inside
        exact (Place.size List.mem_cons_self kind inside.1
          (inside.2.trans_le (by have := behind.2 kind; simp only; omega))).loose layout v expects
    · cases got

end Writes

end SandboxTEE.Heap
