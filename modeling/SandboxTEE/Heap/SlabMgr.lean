import Mathlib.Data.Fin.VecNotation
import SandboxTEE.Lib.LowBits

/-! # The slab allocator of the enclave (`slabmgr.h`, `memory.c`)

Addresses and the machine's integers as they are: `malloc` takes a `size_t` and hands it on as an
`int`.  The lists of areas and of free objects are kept as lists; the level byte in front of a
block, by which `free` knows what the block is, comes with the call, since it stands in memory.
When the pool is used up, `_DkVirtualMemoryAlloc` leaves the address NULL.
-/

namespace SandboxTEE.Heap

open SandboxTEE.Lib

abbrev Addr := BitVec 64

/-- `POOL_SIZE` -/
def poolSize : Addr := 256 * 1024 * 1024

def slabHdrSize : BitVec 32 := 16
def startupSize : BitVec 64 := 16

/-- `sizeof(SLAB_AREA_TYPE)`, `sizeof(LARGE_MEM_OBJ_TYPE)` and `sizeof(SLAB_MGR_TYPE)` -/
def sizeofSlabArea : BitVec 64 := 32
def sizeofLargeMemObj : BitVec 64 := 32
def sizeofSlabMgr : BitVec 64 := 384

/-- What lies between an object and its block. -/
def objRaw : Addr := 16

def slabLevels : Fin 8 → BitVec 32 :=
  ![16, 32, 64, 128 - slabHdrSize, 256 - slabHdrSize, 512 - slabHdrSize, 1024 - slabHdrSize,
    2048 - slabHdrSize]

/-- An object of the level with its header. -/
def slabSize (level : Fin 8) : BitVec 32 := slabLevels level + slabHdrSize

/-- `__MAX_MEM_SIZE(slab_levels[level], size)` -/
def maxMemSize (level : Fin 8) (size : BitVec 64) : BitVec 64 :=
  sizeofSlabArea + (slabSize level).setWidth 64 * size

/-- `__INIT_MAX_MEM_SIZE(size)` -/
def initMaxMemSize (size : BitVec 64) : BitVec 64 :=
  sizeofSlabMgr + sizeofSlabArea * 8 + ((4080 - 16 * 5) + 16 * 8) * size

structure SlabArea where
  addr : Addr
  size : BitVec 32

/-- The entries of the manager for one level. -/
structure Level where
  areaList : List SlabArea
  freeList : List Addr
  size : BitVec 64
  addr : Addr
  addrTop : Addr
  activeArea : Addr

/-- The pool and the manager. -/
structure Allocator where
  bump : Addr
  memPoolEnd : Addr
  levels : Fin 8 → Level

/-- `__malloc`; the parameter is an `int`. -/
def Allocator.systemMalloc (h : Allocator) (size : BitVec 32) : Option Addr × Allocator :=
  if h.bump + size.signExtend 64 ≤ h.memPoolEnd then
    (some h.bump, { h with bump := h.bump + size.signExtend 64 })
  else (none, h)

/-- `for (; size > 0; size >>= 1)`: memory for the largest of the sizes that there is memory for,
    with a bound for the rounds. -/
def Allocator.mallocSmaller (bytes : BitVec 64 → BitVec 64) :
    Nat → BitVec 64 → Allocator → Option (Addr × BitVec 64) × Allocator
  | 0, _, h => (none, h)
  | fuel + 1, size, h =>
    if size = 0 then (none, h)
    else
      match h.systemMalloc ((bytes size).setWidth 32) with
      | (some mem, h) => (some (mem, size), h)
      | (none, h) => Allocator.mallocSmaller bytes fuel (size >>> 1) h

def setFreeSlabArea (area : SlabArea) (level : Fin 8) (mgr : Level) : Level :=
  { mgr with
    addr := area.addr + sizeofSlabArea
    addrTop := area.addr + sizeofSlabArea + (area.size * slabSize level).setWidth 64
    size := mgr.size + area.size.setWidth 64
    activeArea := area.addr }

/-- Where the first area of a level starts, behind those of the levels in front of it. -/
def initOffset (level : Fin 8) : Addr :=
  ((List.finRange 8).take level).foldl (fun addr i => addr + maxMemSize i startupSize) sizeofSlabMgr

def initLevel (mem : Addr) (size : BitVec 64) (level : Fin 8) : Level :=
  let area : SlabArea := ⟨mem + initOffset level, size.setWidth 32⟩
  setFreeSlabArea area level ⟨[area], [], 0, 0, 0, 0⟩

/-- `create_slab_mgr` on a pool; `none` when there is no memory for it. -/
def createSlabMgr (memPool : Addr) : Option Allocator :=
  match Allocator.mallocSmaller initMaxMemSize 65 startupSize
    ⟨memPool, memPool + poolSize, fun _ => ⟨[], [], 0, 0, 0, 0⟩⟩ with
  | (none, _) => none
  | (some (mem, size), h) => some { h with levels := initLevel mem size }

theorem createSlabMgr_some {memPool : Addr} {h : Allocator} (created : createSlabMgr memPool = some h) :
    ∃ mem size h', Allocator.mallocSmaller initMaxMemSize 65 startupSize
      ⟨memPool, memPool + poolSize, fun _ => ⟨[], [], 0, 0, 0, 0⟩⟩ = (some (mem, size), h') ∧
        h = { h' with levels := initLevel mem size } := by
  -- Unfolded as a function: under a `match` that is compared, the call would be run.
  have body : createSlabMgr = createSlabMgr := rfl
  conv_rhs at body => delta createSlabMgr
  rw [body] at created
  cases got : Allocator.mallocSmaller initMaxMemSize 65 startupSize
      ⟨memPool, memPool + poolSize, fun _ => ⟨[], [], 0, 0, 0, 0⟩⟩ with
  | mk found h' =>
    cases found with
    | none =>
      simp only [got] at created
      cases created
    | some pair =>
      simp only [got] at created
      exact ⟨pair.1, pair.2, h', rfl, (Option.some.inj created).symm⟩

/-- `listp_prev_entry` of the active area. -/
def prevEntry (active : Addr) : List SlabArea → Option SlabArea
  | area :: next :: areas => if next.addr = active then some area else prevEntry active (next :: areas)
  | _ => none

/-- `enlarge_slab_mgr`; `false` for `-ENOMEM`. -/
def Allocator.enlargeSlabMgr (h : Allocator) (level : Fin 8) : Bool × Allocator :=
  let mgr := h.levels level
  match prevEntry mgr.activeArea mgr.areaList with
  | some area => (true, { h with levels := Function.update h.levels level (setFreeSlabArea area level mgr) })
  | none =>
    match Allocator.mallocSmaller (maxMemSize level) 65 mgr.size h with
    | (none, h) => (false, h)
    | (some (mem, size), h) =>
      let area : SlabArea := ⟨mem, size.setWidth 32⟩
      let added := { mgr with areaList := area :: mgr.areaList }
      let mgr := if mgr.size = size then setFreeSlabArea area level added else added
      (true, { h with levels := Function.update h.levels level mgr })

/-- The part of `slab_alloc` that enlarges a level without a free object and without room for one. -/
def Allocator.makeRoom (h : Allocator) (level : Fin 8) : Bool × Allocator :=
  let mgr := h.levels level
  if mgr.addr = mgr.addrTop ∧ mgr.freeList = [] then h.enlargeSlabMgr level else (true, h)

/-- The object that `slab_alloc` takes from a level: a free one, or the next one of its area. -/
def Allocator.takeObj (h : Allocator) (level : Fin 8) : Addr × Allocator :=
  let mgr := h.levels level
  match mgr.freeList with
  | mobj :: freeList =>
    (mobj, { h with levels := Function.update h.levels level { mgr with freeList := freeList } })
  | [] =>
    let addr := mgr.addr + (slabSize level).setWidth 64
    (mgr.addr, { h with levels := Function.update h.levels level { mgr with addr := addr } })

/-- The level that a size falls into, `none` for a large one. -/
def levelOf (size : BitVec 32) : Option (Fin 8) :=
  (List.finRange 8).find? fun i => size.sle (slabLevels i)

/-- `slab_alloc` -/
def Allocator.slabAlloc (h : Allocator) (size : BitVec 32) : Option Addr × Allocator :=
  match levelOf size with
  | none =>
    match h.systemMalloc ((sizeofLargeMemObj + size.signExtend 64).setWidth 32) with
    | (none, h) => (none, h)
    | (some mem, h) => (some (mem + sizeofLargeMemObj), h)
  | some level =>
    match h.makeRoom level with
    | (false, h) => (none, h)
    | (true, h) =>
      let (mobj, h) := h.takeObj level
      (some (mobj + objRaw), h)

/-- `malloc`; without memory it ends the process. -/
def Allocator.malloc (h : Allocator) (size : BitVec 64) : Option Addr × Allocator := h.slabAlloc (size.setWidth 32)

/-- `slab_free` of a block whose level byte is given.  A block that is not large goes to the end of
    the list of free objects, and one whose level is not a level traps; the pool takes no block back. -/
def Allocator.slabFree (h : Allocator) (obj : Addr) (level : BitVec 8) : Option Allocator :=
  if obj = 0 then some h
  else if level = 255 then some h
  else if valid : level.toNat < 8 then
    let mgr := h.levels ⟨level.toNat, valid⟩
    some { h with
      levels := Function.update h.levels ⟨level.toNat, valid⟩
        { mgr with freeList := mgr.freeList ++ [obj - objRaw] } }
  else none

/-! ## Histories -/

inductive Event where
  | malloc (size : BitVec 64)
  /-- With the byte that stands in front of the block. -/
  | free (ptr : Addr) (level : BitVec 8)

structure State where
  heap : Allocator
  /-- The blocks that are in use. -/
  live : List Addr
  /-- All that `malloc` has returned, but NULL. -/
  returned : List Addr

def State.init (memPool : Addr) : Option State := (createSlabMgr memPool).map fun heap => ⟨heap, [], []⟩

/-- Only NULL and blocks in use are freed. -/
def step (s : State) : Event → Option State
  | .malloc size =>
    match s.heap.malloc size with
    | (none, _) => none
    | (some ptr, heap) => some ⟨heap, ptr :: s.live, s.returned ++ [ptr]⟩
  | .free ptr level =>
    if ptr = 0 ∨ ptr ∈ s.live then
      (s.heap.slabFree ptr level).map fun heap => ⟨heap, s.live.erase ptr, s.returned⟩
    else none

end SandboxTEE.Heap
