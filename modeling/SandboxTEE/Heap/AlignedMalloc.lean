import SandboxTEE.Heap.LiveBlocks

/-! # Aligned blocks (`memory2.c`, `aligned_malloc.c`)

`aligned_alloc` takes a block of `malloc` for one with the header of another allocator: in front of the
block an index and an offset, by which it finds a group, and in front of the group a pointer to the
group's `struct meta`.  In front of a block there is one byte that is not zero at most, its level, and
that is what the pointer is.  Nothing is mapped there.
-/

namespace SandboxTEE.Heap

open SandboxTEE.Lib

/-- `UNIT` -/
def unit : Addr := 16

def sizeClasses : List Nat :=
  [1, 2, 3, 4, 5, 6, 7, 8,
   9, 10, 12, 15,
   18, 20, 25, 31,
   36, 42, 50, 63,
   72, 84, 102, 127,
   146, 170, 204, 255,
   292, 340, 409, 511,
   584, 682, 818, 1023,
   1169, 1364, 1637, 2047,
   2340, 2730, 3276, 4095,
   4680, 5460, 6552, 8191]

/-- `struct meta`, without the links. -/
structure Meta where
  mem : Addr
  availMask : BitVec 32
  freedMask : BitVec 32
  lastIdx : Nat
  sizeclass : Nat
  maplen : Nat

inductive Errno where
  | EINVAL
  | ENOMEM

section Access

variable (mapped : Nat → Bool)

/-- A number of `n` bytes; `none` where nothing is mapped. -/
def load (mem : Memory) (a : Addr) (n : Nat) : Option Nat :=
  if (List.range n).all fun i => mapped (a.toNat + i) then some (leValue (bytesAt mem a.toNat n))
  else none

def put (mem : Memory) (a : Addr) (n value : Nat) : Option Memory :=
  if (List.range n).all fun i => mapped (a.toNat + i) then some (store mem a.toNat (leBytes n value))
  else none

def loadMeta (mem : Memory) (g : Addr) : Option Meta := do
  let group ← load mapped mem (g + 16) 8
  let availMask ← load mapped mem (g + 24) 4
  let freedMask ← load mapped mem (g + 28) 4
  let bits ← load mapped mem (g + 32) 8
  some ⟨BitVec.ofNat 64 group, BitVec.ofNat 32 availMask, BitVec.ofNat 32 freedMask, bits % 32,
    bits / 2 ^ 6 % 2 ^ 6, bits / 2 ^ 12⟩

def getSlotIndex (mem : Memory) (p : Addr) : Option Nat := (load mapped mem (p - 3) 1).map (· % 32)

/-- The offset in front of a block, an `int`. -/
def getOffset (mem : Memory) (p : Addr) : Option (BitVec 32) := do
  let offset ← load mapped mem (p - 2) 2
  let far ← load mapped mem (p - 4) 1
  if far = 0 then some (BitVec.ofNat 32 offset)
  else
    guard (offset = 0)
    let offset ← load mapped mem (p - 8) 4
    guard (0xffff < (BitVec.ofNat 32 offset).toInt)
    some (BitVec.ofNat 32 offset)

/-- A failing assertion ends the process. -/
def getMeta (mem : Memory) (p : Addr) : Option Meta := do
  guard (p.toNat % 16 = 0)
  let offset ← getOffset mapped mem p
  let index ← getSlotIndex mapped mem p
  let base := p - unit * offset.signExtend 64 - unit
  let g ← load mapped mem base 8
  let m ← loadMeta mapped mem (BitVec.ofNat 64 g)
  guard (m.mem = base)
  guard (index ≤ m.lastIdx)
  guard (m.availMask.getLsbD index = false)
  guard (m.freedMask.getLsbD index = false)
  if m.sizeclass < 48 then
    let size := sizeClasses.getD m.sizeclass 0
    guard ((size * index : Nat) ≤ offset.toInt)
    guard (offset.toInt < (size * (index + 1) : Nat))
  else guard (m.sizeclass = 63)
  guard (m.maplen ≠ 0 → (offset.signExtend 64).toNat ≤ m.maplen * 4096 / 16 - 1)
  some m

/-- `none` for a size class that is not in the table. -/
def getStride (g : Meta) : Option Nat :=
  if g.lastIdx = 0 ∧ g.maplen ≠ 0 then some (g.maplen * 4096 - 16)
  else (sizeClasses[g.sizeclass]?).map (16 * ·)

def setSize (mem : Memory) (p end_ : Addr) (n : BitVec 64) : Option Memory := do
  let reserved := ((end_ - p - n).setWidth 32).toInt
  let mem ← if reserved = 0 then some mem else put mapped mem (end_ - BitVec.ofInt 64 reserved) 1 0
  let mem ← if 5 ≤ reserved then put mapped mem (end_ - 4) 4 reserved.toNat else some mem
  let mem ← if 5 ≤ reserved then put mapped mem (end_ - 5) 1 0 else some mem
  let reserved := if 5 ≤ reserved then 5 else reserved
  let header ← load mapped mem (p - 3) 1
  put mapped mem (p - 3) 1 (BitVec.ofInt 8 ((header % 32 : Nat) + reserved * 32)).toNat

/-- What `aligned_alloc` does with a block whose `struct meta` it has found. -/
def alignBlock (mem : Memory) (p align len : BitVec 64) (g : Meta) : Option (Addr × Memory) := do
  let idx ← getSlotIndex mapped mem p
  let stride ← getStride g
  let storage := g.mem + 16
  let start := storage + BitVec.ofNat 64 (stride * idx)
  let end_ := storage + BitVec.ofNat 64 (stride * (idx + 1)) - 4
  let adj := -p &&& (align - 1)
  if adj = 0 then (setSize mapped mem p end_ len).map fun mem => (p, mem)
  else
    let p := p + adj
    let offset := ((p - storage) / unit).setWidth 32
    let mem ←
      if offset.toNat ≤ 0xffff then do
        let mem ← put mapped mem (p - 2) 2 offset.toNat
        put mapped mem (p - 4) 1 0
      else do
        let mem ← put mapped mem (p - 2) 2 0
        let mem ← put mapped mem (p - 8) 4 offset.toNat
        put mapped mem (p - 4) 1 1
    let mem ← put mapped mem (p - 3) 1 idx
    let mem ← setSize mapped mem p end_ len
    let mem ← put mapped mem (start - 2) 2 ((p - start) / unit).toNat
    let mem ← put mapped mem (start - 3) 1 (7 * 32)
    some (p, mem)

namespace Machine

def alignedAlloc (s : Machine) (align len : BitVec 64) (links : Memory) :
    Option (Addr × Option Errno × Machine) :=
  if align &&& -align ≠ align then some (0, some .EINVAL, s)
  else if -1 - align < len ∨ (1 <<< 31) * unit ≤ align then some (0, some .ENOMEM, s)
  else
    let align := if align ≤ unit then unit else align
    match s.malloc (len + align - unit) links with
    | none => none
    | some (p, got) =>
      match getMeta mapped got.mem p with
      | none => none
      | some g =>
        (alignBlock mapped got.mem p align len g).map fun (p, mem) =>
          (p, none, ⟨got.heap, mem, ⟨p, len⟩ :: s.live⟩)

def memalign (s : Machine) (align len : BitVec 64) (links : Memory) :
    Option (Addr × Option Errno × Machine) :=
  s.alignedAlloc mapped align len links

def naClAlignedMalloc (s : Machine) (size alignment : BitVec 64) (links : Memory) :
    Option (Addr × Option Errno × Machine) :=
  s.memalign mapped alignment size links

def naClAlignedFree (s : Machine) (block : Addr) (links : Memory) : Option Machine := s.free block links

end Machine

end Access

/-! ## What is to hold -/

/-- What is to hold of a call for a block, when it is made and when the block is freed. -/
structure Serves (base : Nat) (s : Machine) (size alignment : BitVec 64) (p : Addr) (s' : Machine) :
    Prop where
  place : p = 0 ∨ alignment.toNat ∣ p.toNat ∧
    base ≤ p.toNat ∧ p.toNat + size.toNat ≤ base + poolSize.toNat ∧
    (∀ b ∈ s.live, Apart ⟨p, size⟩ b) ∧
    ∀ a, p.toNat ≤ a → a < p.toNat + size.toNat →
      s'.heap.scratch a = false ∧ ∀ v, ¬Expects s'.heap s'.live a v
  kept : ∀ b ∈ s.live, bytesAt s'.mem b.ptr.toNat b.size.toNat = bytesAt s.mem b.ptr.toNat b.size.toNat
  freed : ∀ links, ∃ s'', s'.naClAlignedFree p links = some s'' ∧ s''.live = s.live ∧
    ∀ b ∈ s.live, bytesAt s''.mem b.ptr.toNat b.size.toNat = bytesAt s.mem b.ptr.toNat b.size.toNat

/-- The call returns, and what is to hold holds. -/
def Meets (mapped : Nat → Bool) (base : Nat) (s : Machine) (size alignment : BitVec 64)
    (links : Memory) : Prop :=
  ∃ p errno s', s.naClAlignedMalloc mapped size alignment links = some (p, errno, s') ∧
    Serves base s size alignment p s'

/-- Too much, or too large an alignment. -/
def Refused (size alignment : BitVec 64) : Prop := -1 - alignment < size ∨ (1 <<< 31) * unit ≤ alignment

/-- What `malloc` is asked for. -/
def demand (size alignment : BitVec 64) : BitVec 64 :=
  size + (if alignment ≤ unit then unit else alignment) - unit

/-- The `int` that a request becomes does not overflow with the header of a large block. -/
def Fitting (size : BitVec 64) : Prop :=
  (size.setWidth 32).toNat + 32 < 2 ^ 31 ∨ 2 ^ 31 ≤ (size.setWidth 32).toNat

inductive AlignedCall where
  | heap (c : Call)
  | alignedMalloc (size alignment : BitVec 64) (links : Memory)
  | alignedFree (ptr : Addr) (links : Memory)

def Machine.alignedStep (mapped : Nat → Bool) (s : Machine) : AlignedCall → Option Machine
  | .heap c => s.step c
  | .alignedMalloc size alignment links =>
    (s.naClAlignedMalloc mapped size alignment links).map fun r => r.2.2
  | .alignedFree ptr links =>
    if ptr = 0 ∨ s.live.any fun b => b.ptr = ptr then s.naClAlignedFree ptr links else none

def AlignedCall.Ordinary : AlignedCall → Prop
  | .heap c => c.Ordinary
  | .alignedMalloc size alignment _ => Fitting (demand size alignment)
  | .alignedFree .. => True

section Aligned

variable {mapped : Nat → Bool} {base : Nat} {h : Allocator} {live : List Block} {s s' : Machine}
  {mem links : Memory} {p : Addr} {b : Block} {size alignment : BitVec 64}

/-! ## What stands in front of a block -/

/-- Nothing but a level. -/
structure Bare (mem : Memory) (p : Addr) : Prop where
  behind : 16 ≤ p.toNat
  zero : ∀ j, 0 < j → j < 16 → mem (p.toNat - j) = 0

theorem Bytes.bare (ok : Bytes base s) (member : b ∈ s.live) : Bare s.mem b.ptr := by
  refine ⟨(ok.ptr_sub member).1, fun j pos lt => ?_⟩
  cases kind : b.level with
  | none => exact ok.expected _ _ (.largePadding member kind pos lt)
  | some i =>
    have behind := ok.behind b member (by simp [kind])
    have padding := ok.expected _ _ (.padding (ok.slot_of_block member kind)
      (show 0 < 16 - j by omega) (by omega))
    rwa [show b.ptr.toNat - 16 + (16 - j) = b.ptr.toNat - j by omega] at padding

theorem sub_toNat {off : Addr} (behind : off.toNat ≤ p.toNat) :
    (p - off).toNat = p.toNat - off.toNat :=
  BitVec.toNat_sub_of_le behind

theorem load_eq {a : Addr} {n v : Nat} (read : load mapped mem a n = some v) :
    v = leValue (bytesAt mem a.toNat n) := by
  rw [load] at read
  split at read
  · exact (Option.some.inj read).symm
  · cases read

theorem Bare.getOffset (bare : Bare mem p) {offset : BitVec 32}
    (read : Heap.getOffset mapped mem p = some offset) : offset = 0 := by
  obtain ⟨behind, zero⟩ := bare
  rw [Heap.getOffset] at read
  obtain ⟨low, first, read⟩ := Option.bind_eq_some_iff.mp read
  obtain ⟨far, second, read⟩ := Option.bind_eq_some_iff.mp read
  have low := load_eq first
  have far := load_eq second
  have two : (p - 2).toNat = p.toNat - 2 := sub_toNat (show 2 ≤ p.toNat by omega)
  have four : (p - 4).toNat = p.toNat - 4 := sub_toNat (show 4 ≤ p.toNat by omega)
  rw [two] at low
  rw [four] at far
  have at1 : p.toNat - 2 + 1 = p.toNat - 1 := by omega
  simp [bytesAt, List.range_succ, leValue, at1, zero 2 (by omega) (by omega),
    zero 1 (by omega) (by omega)] at low
  simp [bytesAt, leValue, zero 4 (by omega) (by omega)] at far
  rw [if_pos far, low] at read
  exact (Option.some.inj read).symm

/-- The pointer to a `struct meta` is the level. -/
theorem Bare.load (bare : Bare mem p) {g : Nat} (read : Heap.load mapped mem (p - 16) 8 = some g) :
    g < 256 := by
  obtain ⟨behind, zero⟩ := bare
  have value := load_eq read
  have start : (p - 16).toNat = p.toNat - 16 := sub_toNat (show 16 ≤ p.toNat from behind)
  rw [start] at value
  have byte (i : Nat) (pos : 0 < i) (lt : i < 8) : mem (p.toNat - 16 + i) = 0 := by
    rw [show p.toNat - 16 + i = p.toNat - (16 - i) by omega]
    exact zero _ (by omega) (by omega)
  simp [bytesAt, List.range_succ, leValue, byte] at value
  rw [value]
  exact (mem (p.toNat - 16)).isLt

theorem loadMeta_null (nullPage : ∀ a < 4096, mapped a = false) {g : Nat} (low : g < 256) :
    loadMeta mapped mem (BitVec.ofNat 64 g) = none := by
  have at_ : (BitVec.ofNat 64 g + 16).toNat = g + 16 := by
    rw [BitVec.toNat_add, BitVec.toNat_ofNat, Nat.mod_eq_of_lt (show g < 2 ^ 64 by omega)]
    exact Nat.mod_eq_of_lt (show g + 16 < 2 ^ 64 by omega)
  have fault : load mapped mem (BitVec.ofNat 64 g + 16) 8 = none := by
    rw [load, if_neg]
    intro all
    have first := List.all_eq_true.mp all 0 (by simp)
    rw [at_, nullPage _ (by omega)] at first
    cases first
  rw [loadMeta, fault]
  rfl

theorem Bare.getMeta (bare : Bare mem p) (nullPage : ∀ a < 4096, mapped a = false) :
    getMeta mapped mem p = none := by
  by_contra found
  obtain ⟨m, found⟩ := Option.ne_none_iff_exists'.mp found
  rw [Heap.getMeta] at found
  obtain ⟨_, -, found⟩ := Option.bind_eq_some_iff.mp found
  obtain ⟨offset, read, found⟩ := Option.bind_eq_some_iff.mp found
  obtain ⟨index, -, found⟩ := Option.bind_eq_some_iff.mp found
  obtain ⟨g, pointer, found⟩ := Option.bind_eq_some_iff.mp found
  obtain ⟨m', there, -⟩ := Option.bind_eq_some_iff.mp found
  have base : p - unit * (BitVec.signExtend 64 offset) - unit = p - 16 := by
    rw [bare.getOffset read]
    simp [unit]
  rw [base] at pointer
  rw [loadMeta_null nullPage (bare.load pointer)] at there
  cases there

/-! ## Requests -/

theorem levelOf_slabLevels (i : Fin 8) : levelOf (((slabLevels i).setWidth 64).setWidth 32) = some i := by
  revert i
  decide

/-- A call depends on the `int` only, and for a small block on its level. -/
theorem malloc_congr {size' : BitVec 64} (kind : levelOf (size'.setWidth 32) = levelOf (size.setWidth 32))
    (large : levelOf (size.setWidth 32) = none → size'.setWidth 32 = size.setWidth 32)
    (got : s.malloc size links = some (p, s')) :
    s.malloc size' links = some (p, ⟨s'.heap, s'.mem, ⟨p, size'⟩ :: s.live⟩) := by
  have allocated : s.heap.malloc size' = s.heap.malloc size := by
    rw [Allocator.malloc, Allocator.malloc, Allocator.slabAlloc, Allocator.slabAlloc, kind]
    cases level : levelOf (size.setWidth 32) with
    | none => rw [large level]
    | some i => rfl
  have within (h : Allocator) : h.withinArea size' = h.withinArea size := by
    rw [Allocator.withinArea, Allocator.withinArea, kind]
  have header (mem : Memory) (ptr : Addr) : writeHeader mem ptr size' = writeHeader mem ptr size := by
    rw [writeHeader, writeHeader, kind]
    cases level : levelOf (size.setWidth 32) with
    | none => rw [large level]
    | some i => rfl
  rw [Machine.malloc] at got ⊢
  rw [allocated]
  split at got
  · cases got
  · next ptr heap found =>
    simp only [within]
    split at got
    · next asserted =>
      cases got
      rw [if_pos asserted, header]
    · cases got

/-- For every request there is an ordinary one with the same result. -/
theorem ordinary_twin (fitting : Fitting size) : ∃ size' : BitVec 64, size'.toNat < 2 ^ 31 - 32 ∧
    levelOf (size'.setWidth 32) = levelOf (size.setWidth 32) ∧
      (levelOf (size.setWidth 32) = none → size'.setWidth 32 = size.setWidth 32) := by
  cases kind : levelOf (size.setWidth 32) with
  | none =>
    have positive := levelOf_none kind
    have low : (size.setWidth 32).toNat < 2 ^ 31 := by
      by_contra high
      rw [BitVec.toInt_eq_toNat_cond, if_neg (by omega)] at positive
      have := (size.setWidth 32).isLt
      omega
    have same : ((size.setWidth 32).setWidth 64).setWidth 32 = size.setWidth 32 := by
      apply BitVec.eq_of_toNat_eq
      rw [BitVec.toNat_setWidth, BitVec.toNat_setWidth]
      have := (size.setWidth 32).isLt
      omega
    refine ⟨(size.setWidth 32).setWidth 64, ?_, by rw [same, kind], fun _ => same⟩
    rw [BitVec.toNat_setWidth]
    have : (size.setWidth 32).toNat + 32 < 2 ^ 31 := fitting.resolve_right (by omega)
    omega
  | some i =>
    refine ⟨(slabLevels i).setWidth 64, ?_, levelOf_slabLevels i, fun none_ => by cases none_⟩
    have bounds := objSize_bounds i
    have add := slabLevels_add i
    rw [BitVec.toNat_setWidth]
    omega

/-- What `aligned_alloc` gets is bare, and so it never returns. -/
theorem alignedAlloc_none (ok : Bytes base s) (nullPage : ∀ a < 4096, mapped a = false)
    (power : alignment &&& -alignment = alignment) (accepted : ¬Refused size alignment)
    (fitting : Fitting (demand size alignment)) :
    s.alignedAlloc mapped alignment size links = none := by
  rw [Refused] at accepted
  rw [Machine.alignedAlloc, if_neg (by simpa using power), if_neg accepted]
  cases got : s.malloc (size + (if alignment ≤ unit then unit else alignment) - unit) links with
  | none => simp only [got]
  | some r =>
    obtain ⟨p, s'⟩ := r
    obtain ⟨size', ordinary, kind, large⟩ := ordinary_twin fitting
    have twin := malloc_congr kind large got
    have bare := (ok.malloc ordinary twin).1.bare List.mem_cons_self
    simp only [got, bare.getMeta nullPage]

/-- A call that returns returns NULL and has done nothing. -/
theorem alignedAlloc_some (ok : Bytes base s) (nullPage : ∀ a < 4096, mapped a = false)
    (fitting : Fitting (demand size alignment)) {errno : Option Errno}
    (returned : s.alignedAlloc mapped alignment size links = some (p, errno, s')) :
    p = 0 ∧ s' = s := by
  by_cases power : alignment &&& -alignment = alignment
  · by_cases refused : Refused size alignment
    · rw [Refused] at refused
      rw [Machine.alignedAlloc, if_neg (by simpa using power), if_pos refused] at returned
      cases returned
      exact ⟨rfl, rfl⟩
    · rw [alignedAlloc_none ok nullPage power refused fitting] at returned
      cases returned
  · rw [Machine.alignedAlloc, if_pos (by simpa using power)] at returned
    cases returned
    exact ⟨rfl, rfl⟩

theorem Bytes.alignedStep (ok : Bytes base s) (nullPage : ∀ a < 4096, mapped a = false)
    {c : AlignedCall} (ordinary : c.Ordinary) (stepped : s.alignedStep mapped c = some s') :
    Bytes base s' := by
  cases c with
  | heap c => exact ok.step ordinary stepped
  | alignedMalloc size alignment links =>
    obtain ⟨⟨p, errno, s''⟩, returned, rfl⟩ := Option.map_eq_some_iff.mp stepped
    obtain ⟨-, rfl⟩ := alignedAlloc_some ok nullPage ordinary returned
    exact ok
  | alignedFree ptr links =>
    rw [Machine.alignedStep] at stepped
    split at stepped
    · next used => exact ok.free (by simpa using used) stepped
    · cases stepped

theorem power_of_two {k : Nat} (power : alignment.toNat = 2 ^ k) :
    alignment &&& -alignment = alignment := by
  have small : k < 64 := (Nat.pow_lt_pow_iff_right (by decide)).mp (power ▸ alignment.isLt)
  have is : alignment = BitVec.twoPow 64 k := by
    apply BitVec.eq_of_toNat_eq
    rw [power, BitVec.toNat_twoPow, Nat.mod_eq_of_lt (power ▸ alignment.isLt)]
  have cleared := toNat_and_neg_twoPow small alignment
  rw [power, Nat.mod_self, ← is] at cleared
  apply BitVec.eq_of_toNat_eq
  rw [power]
  exact cleared

theorem meets_of_refused (power : alignment &&& -alignment = alignment)
    (refused : Refused size alignment) : Meets mapped base s size alignment links := by
  rw [Refused] at refused
  refine ⟨0, some .ENOMEM, s, ?_, .inl rfl, fun _ _ => rfl, fun links => ?_⟩
  · rw [Machine.naClAlignedMalloc, Machine.memalign, Machine.alignedAlloc,
      if_neg (by simpa using power), if_pos refused]
  · exact ⟨s, by rw [Machine.naClAlignedFree, Machine.free, if_pos rfl], rfl, fun _ _ => rfl⟩

theorem aligned_run {start : Machine} (ok : Bytes base start) (nullPage : ∀ a < 4096, mapped a = false)
    {calls : List AlignedCall} (run : calls.foldlM (Machine.alignedStep mapped) start = some s)
    (ordinary : ∀ c ∈ calls, c.Ordinary) : Bytes base s := by
  apply foldlM_invariant
    (fun _ _ _ ok ordinary stepped => Bytes.alignedStep ok nullPage ordinary stepped) calls start s ok ?_ run
  exact fun pre c within _ _ => ordinary c (within.subset (by simp))

/-- In every history, a call that is refused at once does what is to hold of it; and in every history of
    requests that the `int` of `malloc` does not overflow with, no other call does. -/
theorem alignedMalloc_meets {memPool : Addr} (below : memPool.toNat + 2 ^ 28 < 2 ^ 63)
    (nullPage : ∀ a < 4096, mapped a = false) {start : Machine}
    (init : Machine.start memPool links = some start) {calls : List AlignedCall}
    (run : calls.foldlM (Machine.alignedStep mapped) start = some s) :
    (∀ size alignment links, (∃ k, alignment.toNat = 2 ^ k) → Refused size alignment →
      Meets mapped memPool.toNat s size alignment links) ∧
    ((∀ c ∈ calls, c.Ordinary) → ∀ size alignment links, (∃ k, alignment.toNat = 2 ^ k) →
      Fitting (demand size alignment) →
        (Meets mapped memPool.toNat s size alignment links ↔ Refused size alignment)) := by
  constructor
  · intro size alignment links power refused
    obtain ⟨k, power⟩ := power
    exact meets_of_refused (power_of_two power) refused
  · intro ordinary size alignment links power fitting
    obtain ⟨k, power⟩ := power
    have ok := aligned_run (Bytes.start below init) nullPage run ordinary
    constructor
    · intro meets
      by_contra accepted
      obtain ⟨p, errno, s', returned, -⟩ := meets
      rw [Machine.naClAlignedMalloc, Machine.memalign,
        alignedAlloc_none ok nullPage (power_of_two power) accepted fitting] at returned
      cases returned
    · exact meets_of_refused (power_of_two power)

/-- Two blocks, a request for all but 15 bytes of the address space, and NULL freed. -/
def alignedHistory : List AlignedCall :=
  [.heap (.malloc 100 fun _ => 0), .heap (.malloc 5000 fun _ => 0),
    .alignedMalloc (-16) 32 fun _ => 0, .alignedFree 0 fun _ => 0, .heap (.free 0x10c10 fun _ => 1)]

/-- There, 64 bytes at a multiple of 64 are not to be had. -/
theorem alignedMalloc_meets_history : ∃ start s, Machine.start 0x10000 (fun _ => 0) = some start ∧
    alignedHistory.foldlM (Machine.alignedStep fun a => 4096 ≤ a) start = some s ∧
      Meets (fun a => 4096 ≤ a) (0x10000 : Addr).toNat s (-16) 32 (fun _ => 0) ∧
      ¬Meets (fun a => 4096 ≤ a) (0x10000 : Addr).toNat s 64 64 fun _ => 0 := by
  have ran : ((Machine.start 0x10000 fun _ => 0).bind fun start =>
      (alignedHistory.foldlM (Machine.alignedStep fun a => 4096 ≤ a) start).map (·.live.length)) =
        some 1 := by decide +kernel
  obtain ⟨start, init, ran⟩ := Option.bind_eq_some_iff.mp ran
  obtain ⟨s, ran, -⟩ := Option.map_eq_some_iff.mp ran
  have nullPage : ∀ a < 4096, (fun a => decide (4096 ≤ a)) a = false := by
    intro a low
    simpa using low
  have both := alignedMalloc_meets (by decide) nullPage init ran
  refine ⟨start, s, init, ran, both.1 _ _ _ ⟨5, by decide⟩ (.inl (by decide)), fun meets => ?_⟩
  have ordinary : ∀ c ∈ alignedHistory, c.Ordinary := by
    intro c member
    simp only [alignedHistory, List.mem_cons, List.not_mem_nil, or_false] at member
    rcases member with rfl | rfl | rfl | rfl | rfl
    · exact (by decide : (100 : BitVec 64).toNat < 2 ^ 31 - 32)
    · exact (by decide : (5000 : BitVec 64).toNat < 2 ^ 31 - 32)
    · exact .inl (by decide)
    · trivial
    · trivial
  have refused := (both.2 ordinary 64 64 _ ⟨6, by decide⟩ (.inl (by decide))).mp meets
  rw [Refused] at refused
  revert refused
  decide

/-- On the fresh allocator too, with 64 bytes at a multiple of 64. -/
theorem alignedMalloc_not_meets : ¬ ∀ (mapped : Nat → Bool), (∀ a < 4096, mapped a = false) →
    ∀ memPool : Addr, memPool.toNat + 2 ^ 28 < 2 ^ 63 → ∀ links start,
      Machine.start memPool links = some start → ∀ (calls : List AlignedCall) (s : Machine),
        calls.foldlM (Machine.alignedStep mapped) start = some s → ∀ size alignment links,
          (∃ k, alignment.toNat = 2 ^ k) → Meets mapped memPool.toNat s size alignment links := by
  intro all
  have ran : ((Machine.start 0x10000 fun _ => 0).map fun start =>
      (start.naClAlignedMalloc (fun a => 4096 ≤ a) 64 64 fun _ => 0).isNone) = some true := by
    decide +kernel
  obtain ⟨start, init, failed⟩ := Option.map_eq_some_iff.mp ran
  have nullPage : ∀ a < 4096, (fun a => decide (4096 ≤ a)) a = false := by
    intro a low
    simpa using low
  obtain ⟨p, errno, s', returned, -⟩ :=
    all _ nullPage 0x10000 (by decide) _ start init [] start rfl 64 64 (fun _ => 0) ⟨6, by decide⟩
  rw [returned] at failed
  cases failed

end Aligned

end SandboxTEE.Heap
