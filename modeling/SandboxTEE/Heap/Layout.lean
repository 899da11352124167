import SandboxTEE.Heap.SlabMgr

/-! # The layout of the pool

What the allocator takes from the pool are areas of objects and large blocks, one behind the other.
An object in use or free is one of an area's, and not one that the level still hands out for the first
time; no object is both, or twice in a list.  This holds as long as no request is so large that the
allocator's `int` cannot hold it with its header.
-/

namespace SandboxTEE.Heap

/-- The bytes of an object with its header. -/
def objSize (level : Fin 8) : Nat := (slabSize level).toNat

/-- A block as it was asked for. -/
structure Block where
  ptr : Addr
  size : BitVec 64
deriving DecidableEq

def Block.level (b : Block) : Option (Fin 8) := levelOf (b.size.setWidth 32)

/-- What `system_malloc` has given memory for. -/
inductive Chunk where
  | area (level : Fin 8) (a : SlabArea)
  | large (b : Block)

def Chunk.start : Chunk → Nat
  | .area _ a => a.addr.toNat
  | .large b => b.ptr.toNat - 32

def Chunk.stop : Chunk → Nat
  | .area level a => a.addr.toNat + 32 + a.size.toNat * objSize level
  | .large b => b.ptr.toNat + b.size.toNat

inductive Held (h : Allocator) (live : List Block) : Chunk → Prop
  | area {level : Fin 8} {a : SlabArea} (member : a ∈ (h.levels level).areaList) :
      Held h live (.area level a)
  | large {b : Block} (member : b ∈ live) (large : b.level = none) : Held h live (.large b)

/-- Where an object of the level lies. -/
def Slot (mgr : Level) (level : Fin 8) (m : Nat) : Prop :=
  ∃ a ∈ mgr.areaList, ∃ k < a.size.toNat, m = a.addr.toNat + 32 + k * objSize level

/-- And one that is not among those that have not been handed out. -/
structure Carved (mgr : Level) (level : Fin 8) (m : Nat) : Prop where
  slot : Slot mgr level m
  out : m + objSize level ≤ mgr.addr.toNat ∨ mgr.addrTop.toNat ≤ m

/-- The objects of the blocks of a level. -/
def used (live : List Block) (level : Fin 8) : List Addr :=
  (live.filter fun b => b.level = some level).map fun b => b.ptr - objRaw

/-- The area that objects are taken from is the first one of the list. -/
def Active (mgr : Level) (level : Fin 8) : Prop :=
  ∃ area older, mgr.areaList = area :: older ∧ mgr.activeArea = area.addr ∧
    (∀ a ∈ older, a.addr ≠ area.addr) ∧
    mgr.addrTop.toNat = area.addr.toNat + 32 + area.size.toNat * objSize level ∧
    ∃ k ≤ area.size.toNat, mgr.addr.toNat = area.addr.toNat + 32 + k * objSize level

/-- The manager of the pool lies in its first 384 bytes. -/
structure Pool (base : Nat) (h : Allocator) : Prop where
  below : base + 2 ^ 28 < 2 ^ 63
  top : h.memPoolEnd.toNat = base + 2 ^ 28
  bump : h.bump.toNat ≤ h.memPoolEnd.toNat
  manager : base + 384 ≤ h.bump.toNat

structure Layout (base : Nat) (h : Allocator) (live : List Block) : Prop extends Pool base h where
  inside : ∀ c, Held h live c → base + 384 ≤ c.start ∧ c.stop ≤ h.bump.toNat
  apart : ∀ c c', Held h live c → Held h live c' → c ≠ c' → c.stop ≤ c'.start ∨ c'.stop ≤ c.start
  active : ∀ i, Active (h.levels i) i
  total : ∀ i, base + (h.levels i).size.toNat * objSize i ≤ h.bump.toNat
  objects : ∀ i, ∀ m ∈ (h.levels i).freeList ++ used live i, Carved (h.levels i) i m.toNat
  once : ∀ i, ((h.levels i).freeList ++ used live i).Nodup
  large : (live.filter fun b => b.level = none).Nodup
  behind : ∀ b ∈ live, b.level ≠ none → 16 ≤ b.ptr.toNat
  sizes : ∀ b ∈ live, b.size.toNat < 2 ^ 31 - 32

/-- What a call to `malloc` may have changed. -/
structure Grown (h h' : Allocator) : Prop where
  top : h'.memPoolEnd = h.memPoolEnd
  bump : h.bump.toNat ≤ h'.bump.toNat
  kept : ∀ i, ∀ a ∈ (h.levels i).areaList, a ∈ (h'.levels i).areaList
  new : ∀ i, ∀ a ∈ (h'.levels i).areaList, a ∈ (h.levels i).areaList ∨ h.bump.toNat ≤ a.addr.toNat
  free : ∀ i, ∀ m ∈ (h'.levels i).freeList, m ∈ (h.levels i).freeList

/-! ## Sizes -/

theorem objSize_bounds (level : Fin 8) : 32 ≤ objSize level ∧ objSize level ≤ 2048 := by
  revert level
  decide

theorem slabLevels_add (level : Fin 8) : (slabLevels level).toNat + 16 = objSize level := by
  revert level
  decide

theorem setWidth_slabSize (level : Fin 8) : ((slabSize level).setWidth 64).toNat = objSize level := by
  rw [BitVec.toNat_setWidth]
  exact Nat.mod_eq_of_lt (by have := (slabSize level).isLt; omega)

theorem maxMemSize_toNat {level : Fin 8} {size : BitVec 64}
    (short : size.toNat * objSize level ≤ 2 ^ 28) :
    (maxMemSize level size).toNat = 32 + size.toNat * objSize level := by
  have width := setWidth_slabSize level
  rw [maxMemSize, BitVec.toNat_add, BitVec.toNat_mul, width, Nat.mul_comm (objSize level)]
  rw [Nat.mod_eq_of_lt (show size.toNat * objSize level < 2 ^ 64 by omega)]
  exact Nat.mod_eq_of_lt (show 32 + size.toNat * objSize level < 2 ^ 64 by omega)

theorem largeBytes_toNat {size : BitVec 64} (ordinary : size.toNat < 2 ^ 31 - 32) :
    ((sizeofLargeMemObj + (size.setWidth 32).signExtend 64).setWidth 32).toNat = 32 + size.toNat := by
  have narrow : (size.setWidth 32).toNat = size.toNat := by
    rw [BitVec.toNat_setWidth]
    exact Nat.mod_eq_of_lt (by omega)
  have wide : ((size.setWidth 32).signExtend 64).toNat = size.toNat := by
    have high : (size.setWidth 32).msb = false := by
      rw [BitVec.msb_eq_decide, narrow]
      simp
      omega
    rw [BitVec.toNat_signExtend, high, BitVec.toNat_setWidth, narrow,
      Nat.mod_eq_of_lt (show size.toNat < 2 ^ 64 by omega)]
    rfl
  rw [BitVec.toNat_setWidth, BitVec.toNat_add, wide, show sizeofLargeMemObj.toNat = 32 from rfl]
  rw [Nat.mod_eq_of_lt (show 32 + size.toNat < 2 ^ 64 by omega)]
  exact Nat.mod_eq_of_lt (by omega)

theorem add_sizeofLargeMemObj {mem : Addr} (low : mem.toNat + 32 < 2 ^ 64) :
    (mem + sizeofLargeMemObj).toNat = mem.toNat + 32 := by
  rw [BitVec.toNat_add]
  exact Nat.mod_eq_of_lt low

theorem levelOf_some {size : BitVec 32} {level : Fin 8} (small : levelOf size = some level) :
    size.sle (slabLevels level) = true := by
  have found := @List.find?_some _ (fun i => size.sle (slabLevels i)) _ _ small
  exact found

theorem levelOf_none {size : BitVec 32} (large : levelOf size = none) : 2032 < size.toInt := by
  have last := List.find?_eq_none.mp large 7 (List.mem_finRange 7)
  simp only [BitVec.sle, decide_eq_true_eq, Int.not_le] at last
  exact last

theorem setFreeSlabArea_toNat {level : Fin 8} {mgr : Level} {area : SlabArea}
    (low : area.addr.toNat + 32 + area.size.toNat * objSize level < 2 ^ 63)
    (small : mgr.size.toNat + area.size.toNat < 2 ^ 63)
    (narrow : area.size.toNat * objSize level < 2 ^ 32) :
    (setFreeSlabArea area level mgr).addr.toNat = area.addr.toNat + 32 ∧
      (setFreeSlabArea area level mgr).addrTop.toNat =
        area.addr.toNat + 32 + area.size.toNat * objSize level ∧
      (setFreeSlabArea area level mgr).size.toNat = mgr.size.toNat + area.size.toNat := by
  have raw : (area.addr + sizeofSlabArea).toNat = area.addr.toNat + 32 := by
    rw [BitVec.toNat_add]
    exact Nat.mod_eq_of_lt (show area.addr.toNat + 32 < 2 ^ 64 by omega)
  have width : (area.size.setWidth 64).toNat = area.size.toNat := by
    rw [BitVec.toNat_setWidth]
    exact Nat.mod_eq_of_lt (by have := area.size.isLt; omega)
  have objects : ((area.size * slabSize level).setWidth 64).toNat =
      area.size.toNat * objSize level := by
    rw [BitVec.toNat_setWidth, BitVec.toNat_mul, show (slabSize level).toNat = objSize level from rfl,
      Nat.mod_eq_of_lt narrow]
    exact Nat.mod_eq_of_lt (by omega)
  refine ⟨raw, ?_, ?_⟩
  · rw [setFreeSlabArea, BitVec.toNat_add, raw, objects]
    exact Nat.mod_eq_of_lt (by omega)
  · rw [setFreeSlabArea, BitVec.toNat_add, width]
    exact Nat.mod_eq_of_lt (by omega)

/-! ## What is taken from the pool -/

section SystemMalloc

variable {base : Nat} {h h' : Allocator}

theorem systemMalloc_some {size : BitVec 32} {mem : Addr} (pool : Pool base h)
    (positive : size.toNat < 2 ^ 31) (got : h.systemMalloc size = (some mem, h')) :
    mem = h.bump ∧ h' = { h with bump := h.bump + size.signExtend 64 } ∧
      (h.bump + size.signExtend 64).toNat = h.bump.toNat + size.toNat ∧
      h.bump.toNat + size.toNat ≤ h.memPoolEnd.toNat := by
  obtain ⟨below, top, bump, -⟩ := pool
  have width : (size.signExtend 64).toNat = size.toNat := by
    rw [BitVec.toNat_signExtend, BitVec.toNat_setWidth]
    have high : size.msb = false := by
      rw [BitVec.msb_eq_decide]
      simpa using positive
    rw [high]
    simp
    omega
  have sum : (h.bump + size.signExtend 64).toNat = h.bump.toNat + size.toNat := by
    rw [BitVec.toNat_add, width]
    exact Nat.mod_eq_of_lt (by omega)
  rw [Allocator.systemMalloc] at got
  by_cases room : h.bump + size.signExtend 64 ≤ h.memPoolEnd
  · rw [if_pos room] at got
    cases got
    refine ⟨rfl, rfl, sum, ?_⟩
    rw [← sum]
    exact room
  · rw [if_neg room] at got
    cases got

theorem mallocSmaller_some {level : Fin 8} {fuel : Nat} {size size' : BitVec 64} {mem : Addr}
    (pool : Pool base h) (short : size.toNat * objSize level ≤ 2 ^ 28)
    (got : Allocator.mallocSmaller (maxMemSize level) fuel size h = (some (mem, size'), h')) :
    mem = h.bump ∧ size'.toNat ≤ size.toNat ∧ h' = { h with bump := h'.bump } ∧
      h'.bump.toNat = h.bump.toNat + (32 + size'.toNat * objSize level) ∧
      h'.bump.toNat ≤ h.memPoolEnd.toNat := by
  induction fuel generalizing size with
  | zero => cases got
  | succ fuel ih =>
    rw [Allocator.mallocSmaller] at got
    by_cases zero : size = 0
    · rw [if_pos zero] at got
      cases got
    · rw [if_neg zero] at got
      have bytes := maxMemSize_toNat short
      have narrow : ((maxMemSize level size).setWidth 32).toNat = 32 + size.toNat * objSize level := by
        rw [BitVec.toNat_setWidth, bytes]
        exact Nat.mod_eq_of_lt (by omega)
      split at got
      · next mem' h'' found =>
        cases got
        obtain ⟨at_, rest, sum, room⟩ := systemMalloc_some pool (by omega) found
        rw [narrow] at sum room
        subst rest
        exact ⟨at_, Nat.le_refl _, rfl, sum, by rwa [sum]⟩
      · next h'' failed =>
        have same : h'' = h := by
          rw [Allocator.systemMalloc] at failed
          split at failed <;> cases failed
          rfl
        subst same
        have half : (size >>> 1).toNat ≤ size.toNat := by
          rw [BitVec.toNat_ushiftRight]
          exact Nat.shiftRight_le _ _
        obtain ⟨at_, less, rest⟩ := ih
          ((Nat.mul_le_mul_right _ half).trans short) got
        exact ⟨at_, less.trans half, rest⟩

end SystemMalloc

/-! ## Objects and chunks -/

section Steps

variable {base : Nat} {h h' : Allocator} {live live' : List Block} {level : Fin 8} {mgr : Level}
  {m : Nat} {c : Chunk}

theorem Slot.within (slot : Slot mgr level m) : ∃ a ∈ mgr.areaList,
    (Chunk.area level a).start + 32 ≤ m ∧ m + objSize level ≤ (Chunk.area level a).stop := by
  obtain ⟨a, member, k, less, rfl⟩ := slot
  refine ⟨a, member, Nat.le_add_right _ _, ?_⟩
  have last : (k + 1) * objSize level ≤ a.size.toNat * objSize level := Nat.mul_le_mul_right _ less
  rw [Nat.succ_mul] at last
  simp only [Chunk.stop]
  omega

theorem Slot.mono {mgr' : Level} (slot : Slot mgr level m)
    (more : ∀ a ∈ mgr.areaList, a ∈ mgr'.areaList) : Slot mgr' level m := by
  obtain ⟨a, member, rest⟩ := slot
  exact ⟨a, more a member, rest⟩

/-- All objects lie in what was taken from the pool. -/
theorem Layout.slot_below (ok : Layout base h live) (slot : Slot (h.levels level) level m) :
    base + 384 + 32 ≤ m ∧ m + objSize level ≤ h.bump.toNat := by
  obtain ⟨a, member, above, below⟩ := slot.within
  have inside := ok.inside _ (.area member)
  omega

/-- A level with other objects, and blocks to go with it. -/
theorem Layout.relevel (ok : Layout base h live)
    (areas : mgr.areaList = (h.levels level).areaList) (size : mgr.size = (h.levels level).size)
    (active : Active mgr level)
    (objects : ∀ m ∈ mgr.freeList ++ used live' level, Carved mgr level m.toNat)
    (once : (mgr.freeList ++ used live' level).Nodup)
    (others : ∀ i, i ≠ level → (used live' i).Perm (used live i))
    (large : (live'.filter fun b => b.level = none).Perm (live.filter fun b => b.level = none))
    (behind : ∀ b ∈ live', b.level ≠ none → 16 ≤ b.ptr.toNat)
    (sizes : ∀ b ∈ live', b.size.toNat < 2 ^ 31 - 32) :
    Layout base { h with levels := Function.update h.levels level mgr } live' := by
  have held {c : Chunk} (new : Held { h with levels := Function.update h.levels level mgr } live' c) :
      Held h live c := by
    cases new with
    | @area i a member =>
      by_cases same : i = level
      · subst same
        simp only [Function.update_self, areas] at member
        exact .area member
      · simp only [Function.update_of_ne same] at member
        exact .area member
    | @large b member none_ =>
      have kept : b ∈ live.filter fun b => b.level = none :=
        large.mem_iff.mp (List.mem_filter.mpr ⟨member, by simpa using none_⟩)
      exact .large (List.mem_filter.mp kept).1 none_
  exact {
    toPool := ⟨ok.below, ok.top, ok.bump, ok.manager⟩
    inside := fun c new => ok.inside c (held new)
    apart := fun c c' new new' => ok.apart c c' (held new) (held new')
    active := (Function.forall_update_iff _ fun i mgr => Active mgr i).mpr
      ⟨active, fun i _ => ok.active i⟩
    total := (Function.forall_update_iff _ fun i (mgr : Level) =>
      base + mgr.size.toNat * objSize i ≤ h.bump.toNat).mpr
      ⟨by rw [size]; exact ok.total level, fun i _ => ok.total i⟩
    objects := (Function.forall_update_iff _ fun i (mgr : Level) =>
      ∀ m ∈ mgr.freeList ++ used live' i, Carved mgr i m.toNat).mpr
      ⟨objects, fun i other m member =>
        ok.objects i m (((others i other).append_left _).mem_iff.mp member)⟩
    once := (Function.forall_update_iff _ fun i (mgr : Level) =>
      (mgr.freeList ++ used live' i).Nodup).mpr
      ⟨once, fun i other => ((others i other).append_left _).nodup_iff.mpr (ok.once i)⟩
    large := large.nodup_iff.mpr ok.large
    behind
    sizes }

/-! ## `malloc` -/

theorem used_cons_self {b : Block} (small : b.level = some level) :
    used (b :: live) level = (b.ptr - objRaw) :: used live level := by
  rw [used, List.filter_cons_of_pos (by simpa using small)]
  rfl

theorem used_cons_of_ne {b : Block} (other : b.level ≠ some level) :
    used (b :: live) level = used live level := by
  rw [used, List.filter_cons_of_neg (by simpa using other)]
  rfl

variable {mobj : Addr}

theorem add_objRaw_toNat (low : mobj.toNat < 2 ^ 63) : (mobj + objRaw).toNat = mobj.toNat + 16 := by
  rw [BitVec.toNat_add]
  exact Nat.mod_eq_of_lt (show mobj.toNat + 16 < 2 ^ 64 by omega)

variable {size : BitVec 64}

theorem Layout.hand (ok : Layout base h live) (ordinary : size.toNat < 2 ^ 31 - 32)
    (small : levelOf (size.setWidth 32) = some level)
    (areas : mgr.areaList = (h.levels level).areaList) (total : mgr.size = (h.levels level).size)
    (active : Active mgr level)
    (objects : ∀ m ∈ mgr.freeList ++ mobj :: used live level, Carved mgr level m.toNat)
    (once : (mgr.freeList ++ mobj :: used live level).Nodup) :
    Layout base { h with levels := Function.update h.levels level mgr }
      (⟨mobj + objRaw, size⟩ :: live) := by
  have is : (⟨mobj + objRaw, size⟩ : Block).level = some level := small
  have back : mobj + objRaw - objRaw = mobj := BitVec.add_sub_cancel mobj objRaw
  have all : used (⟨mobj + objRaw, size⟩ :: live) level = mobj :: used live level := by
    rw [used_cons_self is, back]
  have carved := objects mobj (by simp)
  have low : mobj.toNat < 2 ^ 63 := by
    have slot : Slot (h.levels level) level mobj.toNat := carved.slot.mono fun a member => areas ▸ member
    have := ok.slot_below slot
    have := ok.below
    have := ok.top
    have := ok.bump
    omega
  apply ok.relevel areas total active
  · rwa [all]
  · rwa [all]
  · intro i other
    rw [used_cons_of_ne (by rw [is]; simpa using Ne.symm other)]
  · rw [List.filter_cons_of_neg (by simp [is])]
  · intro b member small'
    cases List.mem_cons.mp member with
    | inl new =>
      rw [new, add_objRaw_toNat low]
      exact Nat.le_add_left _ _
    | inr old => exact ok.behind b old small'
  · intro b member
    cases List.mem_cons.mp member with
    | inl new => rwa [new]
    | inr old => exact ok.sizes b old

theorem Grown.refl (h : Allocator) : Grown h h :=
  ⟨rfl, Nat.le_refl _, fun _ _ => id, fun _ _ => .inl, fun _ _ => id⟩

theorem Grown.trans {h'' : Allocator} (first : Grown h h') (second : Grown h' h'') : Grown h h'' where
  top := second.top.trans first.top
  bump := first.bump.trans second.bump
  kept := fun i a member => second.kept i a (first.kept i a member)
  new := by
    intro i a member
    cases second.new i a member with
    | inl before => exact first.new i a before
    | inr behind => exact .inr (first.bump.trans behind)
  free := fun i m member => first.free i m (second.free i m member)

theorem Grown.update {bump : Addr} (more : h.bump.toNat ≤ bump.toNat)
    (kept : ∀ a ∈ (h.levels level).areaList, a ∈ mgr.areaList)
    (new : ∀ a ∈ mgr.areaList, a ∈ (h.levels level).areaList ∨ h.bump.toNat ≤ a.addr.toNat)
    (free : ∀ m ∈ mgr.freeList, m ∈ (h.levels level).freeList) :
    Grown h { h with bump, levels := Function.update h.levels level mgr } where
  top := rfl
  bump := more
  kept := (Function.forall_update_iff _ fun i (mgr : Level) =>
    ∀ a ∈ (h.levels i).areaList, a ∈ mgr.areaList).mpr ⟨kept, fun _ _ _ => id⟩
  new := (Function.forall_update_iff _ fun i (mgr : Level) =>
    ∀ a ∈ mgr.areaList, a ∈ (h.levels i).areaList ∨ h.bump.toNat ≤ a.addr.toNat).mpr
    ⟨new, fun _ _ _ => .inl⟩
  free := (Function.forall_update_iff _ fun i (mgr : Level) =>
    ∀ m ∈ mgr.freeList, m ∈ (h.levels i).freeList).mpr ⟨free, fun _ _ _ => id⟩

theorem takeObj_grown (took : h.takeObj level = (mobj, h')) : Grown h h' := by
  simp only [Allocator.takeObj] at took
  split at took
  · next mobj' freeList found =>
    cases took
    apply Grown.update (Nat.le_refl _)
    · exact fun _ => id
    · exact fun _ => .inl
    · intro m member
      rw [found]
      exact List.mem_cons_of_mem _ member
  · cases took
    exact Grown.update (Nat.le_refl _) (fun _ => id) (fun _ => .inl) (fun _ => id)

/-- `slab_alloc` with its assertion. -/
theorem Layout.takeObj (ok : Layout base h live) (ordinary : size.toNat < 2 ^ 31 - 32)
    (small : levelOf (size.setWidth 32) = some level) (took : h.takeObj level = (mobj, h'))
    (room : (h'.levels level).addr ≤ (h'.levels level).addrTop) :
    Layout base h' (⟨mobj + objRaw, size⟩ :: live) := by
  obtain ⟨area, older, areas, activeArea, fresh, top, k, le, addr⟩ := ok.active level
  have objects := ok.objects level
  have once := ok.once level
  simp only [Allocator.takeObj] at took
  split at took
  · next mobj' freeList found =>
    cases took
    rw [found] at objects once
    apply ok.hand ordinary small
    · rfl
    · rfl
    · exact ⟨area, older, areas, activeArea, fresh, top, k, le, addr⟩
    · intro m member
      have carved := objects m ((List.perm_middle.mem_iff).mp member)
      exact ⟨carved.slot, carved.out⟩
    · exact List.perm_middle.nodup_iff.mpr once
  · next found =>
    cases took
    rw [found] at objects once
    simp only [Function.update_self] at room
    have stop := ok.inside _ (.area (show area ∈ (h.levels level).areaList by
      rw [areas]; exact List.mem_cons_self))
    have := ok.below
    have := ok.top
    have := ok.bump
    have bounds := objSize_bounds level
    simp only [Chunk.stop] at stop
    have partly : k * objSize level ≤ area.size.toNat * objSize level := Nat.mul_le_mul_right _ le
    have width := setWidth_slabSize level
    have next : ((h.levels level).addr + (slabSize level).setWidth 64).toNat =
        area.addr.toNat + 32 + (k + 1) * objSize level := by
      rw [BitVec.toNat_add, width, addr, Nat.succ_mul, ← Nat.add_assoc]
      exact Nat.mod_eq_of_lt (by omega)
    rw [BitVec.le_def, next, top] at room
    have less : (k + 1) * objSize level ≤ area.size.toNat * objSize level :=
      Nat.le_of_add_le_add_left room
    have inside : k + 1 ≤ area.size.toNat :=
      Nat.le_of_mul_le_mul_right less (Nat.lt_of_lt_of_le (by decide) bounds.1)
    rw [Nat.succ_mul] at next less
    apply ok.hand ordinary small
    · rfl
    · rfl
    · refine ⟨area, older, areas, activeArea, fresh, top, k + 1, inside, ?_⟩
      rw [Nat.succ_mul]
      exact next
    · intro m member
      simp only [found, List.nil_append, List.mem_cons] at member objects
      cases member with
      | inl new =>
        rw [new]
        refine ⟨⟨area, ?_, k, inside, addr⟩, .inl ?_⟩
        · rw [areas]
          exact List.mem_cons_self
        · simp only
          omega
      | inr old =>
        have carved := objects m old
        refine ⟨carved.slot, ?_⟩
        have out := carved.out
        simp only
        omega
    · simp only [found, List.nil_append, List.nodup_cons] at once objects ⊢
      refine ⟨fun again => ?_, once⟩
      have out := (objects _ again).out
      omega

/-! The level that gets an area, as it is when the area is activated. -/

theorem prevEntry_head {area : SlabArea} {older : List SlabArea}
    (fresh : ∀ a ∈ older, a.addr ≠ area.addr) : prevEntry area.addr (area :: older) = none := by
  have behind (areas : List SlabArea) (first : SlabArea) (all : ∀ a ∈ areas, a.addr ≠ area.addr) :
      prevEntry area.addr (first :: areas) = none := by
    induction areas generalizing first with
    | nil => rfl
    | cons next areas ih =>
      rw [prevEntry, if_neg (all next List.mem_cons_self)]
      exact ih next fun a member => all a (List.mem_cons_of_mem _ member)
  exact behind older area fresh

/-- A level with an area from which nothing has been handed out. -/
theorem Layout.enlarge (ok : Layout base h live) {bump : Addr} {area : SlabArea}
    (start : area.addr = h.bump) (size : area.size = (h.levels level).size.setWidth 32)
    (sum : bump.toNat = h.bump.toNat + (32 + (h.levels level).size.toNat * objSize level))
    (room : bump.toNat ≤ h.memPoolEnd.toNat) :
    Layout base
      { h with
        bump
        levels := Function.update h.levels level
          (setFreeSlabArea area level
            { h.levels level with areaList := area :: (h.levels level).areaList }) } live := by
  have below := ok.below
  have top := ok.top
  have manager := ok.manager
  have total := ok.total level
  have bounds := objSize_bounds level
  have count : (h.levels level).size.toNat * 1 ≤ (h.levels level).size.toNat * objSize level :=
    Nat.mul_le_mul_left _ (by omega)
  have same : area.size.toNat = (h.levels level).size.toNat := by
    rw [size, BitVec.toNat_setWidth]
    exact Nat.mod_eq_of_lt (by omega)
  obtain ⟨raw, addrTop, grown⟩ := @setFreeSlabArea_toNat level
    { h.levels level with areaList := area :: (h.levels level).areaList } area
    (by rw [start, same]; omega) (by simp only; omega) (by rw [same]; omega)
  rw [start] at raw addrTop
  rw [same] at addrTop grown
  simp only at grown
  have stop : (Chunk.area level area).stop = bump.toNat := by
    rw [Chunk.stop, start, same, sum, Nat.add_assoc]
  have old {a : SlabArea} (member : a ∈ (h.levels level).areaList) : a.addr.toNat < h.bump.toNat := by
    have inside := (ok.inside _ (.area member)).2
    rw [Chunk.stop] at inside
    omega
  have held {c : Chunk} (new : Held
      { h with
        bump
        levels := Function.update h.levels level
          (setFreeSlabArea area level
            { h.levels level with areaList := area :: (h.levels level).areaList }) } live c) :
      c = .area level area ∨ Held h live c := by
    cases new with
    | @area i a member =>
      by_cases equal : i = level
      · subst equal
        simp only [Function.update_self, setFreeSlabArea, List.mem_cons] at member
        cases member with
        | inl new => exact .inl (by rw [new])
        | inr old => exact .inr (.area old)
      · simp only [Function.update_of_ne equal] at member
        exact .inr (.area member)
    | large member none_ => exact .inr (.large member none_)
  exact {
    toPool := ⟨below, top, room, by simp only; omega⟩
    inside := by
      intro c new
      cases held new with
      | inl this =>
        rw [this, stop, Chunk.start, start]
        exact ⟨manager, Nat.le_refl _⟩
      | inr before =>
        have inside := ok.inside c before
        exact ⟨inside.1, by simp only; omega⟩
    apart := by
      intro c c' new new' differ
      cases held new with
      | inl this =>
        cases held new' with
        | inl this' => exact absurd (this.trans this'.symm) differ
        | inr before =>
          rw [this, Chunk.start, start]
          exact .inr (ok.inside c' before).2
      | inr before =>
        cases held new' with
        | inl this' =>
          rw [this', Chunk.start, start]
          exact .inl (ok.inside c before).2
        | inr before' => exact ok.apart c c' before before' differ
    active := (Function.forall_update_iff _ fun i mgr => Active mgr i).mpr
      ⟨⟨area, (h.levels level).areaList, rfl, rfl,
        fun a member equal => absurd (old member) (by rw [equal, start]; exact Nat.lt_irrefl _),
        by rw [start, same, addrTop], 0, Nat.zero_le _, by rw [start, Nat.zero_mul]; exact raw⟩, fun i _ => ok.active i⟩
    total := (Function.forall_update_iff _ fun i (mgr : Level) =>
      base + mgr.size.toNat * objSize i ≤ bump.toNat).mpr
      ⟨by
        rw [grown, Nat.add_mul]
        omega,
      fun i _ => (ok.total i).trans (by omega)⟩
    objects := (Function.forall_update_iff _ fun i (mgr : Level) =>
      ∀ m ∈ mgr.freeList ++ used live i, Carved mgr i m.toNat).mpr
      ⟨by
        intro m member
        have carved := ok.objects level m member
        refine ⟨carved.slot.mono fun a member => List.mem_cons_of_mem _ member, .inl ?_⟩
        have end_ := (ok.slot_below carved.slot).2
        rw [raw]
        omega, fun i _ => ok.objects i⟩
    once := (Function.forall_update_iff _ fun i (mgr : Level) =>
      (mgr.freeList ++ used live i).Nodup).mpr ⟨ok.once level, fun i _ => ok.once i⟩
    large := ok.large
    behind := ok.behind
    sizes := ok.sizes }

/-- A level has room then, unless there was memory only for an area that is not activated. -/
theorem Layout.makeRoom (ok : Layout base h live) (made : h.makeRoom level = (true, h')) :
    Layout base h' live ∧ Grown h h' ∨ (h'.levels level).freeList = [] ∧
      (h'.levels level).addr = (h'.levels level).addrTop ∧ (h'.levels level).addr.toNat < 2 ^ 63 := by
  rw [Allocator.makeRoom] at made
  by_cases full : (h.levels level).addr = (h.levels level).addrTop ∧ (h.levels level).freeList = []
  · rw [if_pos full] at made
    obtain ⟨area, older, areas, activeArea, fresh, top, -⟩ := ok.active level
    have low : (h.levels level).addr.toNat < 2 ^ 63 := by
      have stop := (ok.inside _ (.area (show area ∈ (h.levels level).areaList by
        rw [areas]; exact List.mem_cons_self))).2
      have := ok.below
      have := ok.top
      have := ok.bump
      rw [Chunk.stop, ← top] at stop
      rw [full.1]
      omega
    have total := ok.total level
    have poolTop := ok.top
    have poolBump := ok.bump
    simp only [Allocator.enlargeSlabMgr, activeArea, areas, prevEntry_head fresh] at made
    split at made
    · cases made
    · next mem size h'' got =>
      obtain ⟨start, -, rest, sum, room⟩ := mallocSmaller_some ok.toPool (by omega) got
      by_cases equal : (h.levels level).size = size
      · rw [if_pos equal] at made
        cases made
        left
        subst equal
        rw [rest]
        have grown := @Layout.enlarge base h live level ok h''.bump
          ⟨mem, (h.levels level).size.setWidth 32⟩ start rfl sum room
        rw [areas] at grown
        refine ⟨grown, ?_⟩
        apply Grown.update (by rw [sum]; exact Nat.le_add_right _ _)
        · intro a member
          rw [areas] at member
          exact List.mem_cons_of_mem _ member
        · intro a member
          cases List.mem_cons.mp member with
          | inl new => exact .inr (by rw [new, start])
          | inr old => exact .inl (by rwa [areas])
        · exact fun _ => id
      · rw [if_neg equal] at made
        cases made
        right
        simp only [Function.update_self]
        exact ⟨full.2, full.1, low⟩
  · rw [if_neg full] at made
    cases made
    exact .inl ⟨ok, .refl h⟩

theorem Layout.addLarge (ok : Layout base h live) {bump : Addr} {b : Block} (large : b.level = none)
    (ordinary : b.size.toNat < 2 ^ 31 - 32) (ptr : b.ptr.toNat = h.bump.toNat + 32)
    (sum : bump.toNat = b.ptr.toNat + b.size.toNat) (room : bump.toNat ≤ h.memPoolEnd.toNat) :
    Layout base { h with bump } (b :: live) := by
  have manager := ok.manager
  have held {c : Chunk} (new : Held { h with bump } (b :: live) c) : c = .large b ∨ Held h live c := by
    cases new with
    | area member => exact .inr (.area member)
    | large member none_ =>
      cases List.mem_cons.mp member with
      | inl new => exact .inl (by rw [new])
      | inr old => exact .inr (.large old none_)
  have start : (Chunk.large b).start = h.bump.toNat := by
    rw [Chunk.start, ptr]
    exact Nat.add_sub_cancel _ _
  have same (i : Fin 8) : used (b :: live) i = used live i :=
    used_cons_of_ne (by simp [large])
  exact {
    toPool := ⟨ok.below, ok.top, room, by simp only; omega⟩
    inside := by
      intro c new
      cases held new with
      | inl this =>
        rw [this, start, Chunk.stop]
        exact ⟨manager, sum.ge⟩
      | inr before =>
        have inside := ok.inside c before
        exact ⟨inside.1, by simp only; omega⟩
    apart := by
      intro c c' new new' differ
      cases held new with
      | inl this =>
        cases held new' with
        | inl this' => exact absurd (this.trans this'.symm) differ
        | inr before =>
          rw [this, start]
          exact .inr (ok.inside c' before).2
      | inr before =>
        cases held new' with
        | inl this' =>
          rw [this', start]
          exact .inl (ok.inside c before).2
        | inr before' => exact ok.apart c c' before before' differ
    active := ok.active
    total := fun i => (ok.total i).trans (by simp only; omega)
    objects := fun i => by rw [same i]; exact ok.objects i
    once := fun i => by rw [same i]; exact ok.once i
    large := by
      rw [List.filter_cons_of_pos (by simpa using large), List.nodup_cons]
      refine ⟨fun again => ?_, ok.large⟩
      have inside := (ok.inside _ (.large (List.mem_filter.mp again).1 large)).2
      rw [Chunk.stop] at inside
      omega
    behind := by
      intro b' member small
      cases List.mem_cons.mp member with
      | inl new => exact absurd (by rw [new]; exact large) small
      | inr old => exact ok.behind b' old small
    sizes := by
      intro b' member
      cases List.mem_cons.mp member with
      | inl new => rwa [new]
      | inr old => exact ok.sizes b' old }

theorem Layout.malloc (ok : Layout base h live) {ptr : Addr} (ordinary : size.toNat < 2 ^ 31 - 32)
    (got : h.malloc size = (some ptr, h')) (within : (levelOf (size.setWidth 32)).all fun level =>
      (h'.levels level).addr ≤ (h'.levels level).addrTop) :
    Layout base h' (⟨ptr, size⟩ :: live) ∧ Grown h h' ∧
      (levelOf (size.setWidth 32) = none → ptr.toNat = h.bump.toNat + 32) := by
  rw [Allocator.malloc, Allocator.slabAlloc] at got
  cases small : levelOf (size.setWidth 32) with
  | none =>
    rw [small] at got
    have bytes := largeBytes_toNat ordinary
    simp only at got
    split at got
    · cases got
    · next mem h'' found =>
      cases got
      obtain ⟨start, rest, sum, room⟩ := systemMalloc_some ok.toPool (by omega) found
      rw [bytes] at sum room
      subst rest
      have := ok.below
      have := ok.top
      have ptr : (mem + sizeofLargeMemObj).toNat = h.bump.toNat + 32 := by
        rw [start]
        exact add_sizeofLargeMemObj (by omega)
      refine ⟨?_, ?_, fun _ => ptr⟩
      · have is : (⟨mem + sizeofLargeMemObj, size⟩ : Block).level = none := small
        apply ok.addLarge is ordinary ptr
        · rw [sum, ptr, Nat.add_assoc]
        · rwa [sum]
      · exact ⟨rfl, by rw [sum]; exact Nat.le_add_right _ _, fun _ _ => id, fun _ _ => .inl,
          fun _ _ => id⟩
  | some level =>
    rw [small] at got within
    simp only at got
    split at got
    · cases got
    · next h₁ made =>
      cases got
      have within : ((h₁.takeObj level).2.levels level).addr ≤
          ((h₁.takeObj level).2.levels level).addrTop := by simpa using within
      cases ok.makeRoom made with
      | inl more =>
        obtain ⟨ok₁, grown⟩ := more
        exact ⟨ok₁.takeObj ordinary small rfl within, grown.trans (takeObj_grown rfl), by simp⟩
      | inr full =>
        -- the next object would begin behind the area
        obtain ⟨none_, top, low⟩ := full
        simp only [Allocator.takeObj, none_, Function.update_self] at within
        rw [BitVec.le_def, ← top, BitVec.toNat_add, setWidth_slabSize] at within
        have bounds := objSize_bounds level
        omega

/-! ## `free` -/

variable {b : Block}

theorem used_perm (perm : live.Perm live') (i : Fin 8) : (used live i).Perm (used live' i) :=
  (perm.filter _).map _

theorem Layout.freeSmall (ok : Layout base h live) (member : b ∈ live)
    (small : b.level = some level) :
    Layout base
      { h with
        levels := Function.update h.levels level
          { h.levels level with freeList := (h.levels level).freeList ++ [b.ptr - objRaw] } }
      (live.erase b) := by
  have perm := List.perm_cons_erase member
  have objects : ((h.levels level).freeList ++ [b.ptr - objRaw] ++ used (live.erase b) level).Perm
      ((h.levels level).freeList ++ used live level) := by
    have split_ := used_perm perm level
    rw [used_cons_self small] at split_
    rw [List.append_assoc]
    exact split_.symm.append_left _
  apply ok.relevel
  · rfl
  · rfl
  · exact ok.active level
  · intro m there
    have carved := ok.objects level m (objects.mem_iff.mp there)
    exact ⟨carved.slot, carved.out⟩
  · exact objects.nodup_iff.mpr (ok.once level)
  · intro i other
    have split_ := used_perm perm i
    rw [used_cons_of_ne (by rw [small]; simpa using Ne.symm other)] at split_
    exact split_.symm
  · have split_ := perm.filter fun b => b.level = none
    rw [List.filter_cons_of_neg (by simp [small])] at split_
    exact split_.symm
  · exact fun b' there => ok.behind b' (List.mem_of_mem_erase there)
  · exact fun b' there => ok.sizes b' (List.mem_of_mem_erase there)

theorem Layout.freeLarge (ok : Layout base h live) (member : b ∈ live) (large : b.level = none) :
    Layout base h (live.erase b) := by
  have held {c : Chunk} (now : Held h (live.erase b) c) : Held h live c := by
    cases now with
    | area member => exact .area member
    | large member none_ => exact .large (List.mem_of_mem_erase member) none_
  have same (i : Fin 8) : (used (live.erase b) i).Perm (used live i) := by
    have split_ := used_perm (List.perm_cons_erase member) i
    rw [used_cons_of_ne (by simp [large])] at split_
    exact split_.symm
  exact {
    toPool := ok.toPool
    inside := fun c now => ok.inside c (held now)
    apart := fun c c' now now' => ok.apart c c' (held now) (held now')
    active := ok.active
    total := ok.total
    objects := fun i m there => ok.objects i m (((same i).append_left _).mem_iff.mp there)
    once := fun i => ((same i).append_left _).nodup_iff.mpr (ok.once i)
    large := ok.large.sublist (List.erase_sublist.filter _)
    behind := fun b' there => ok.behind b' (List.mem_of_mem_erase there)
    sizes := fun b' there => ok.sizes b' (List.mem_of_mem_erase there) }

end Steps

/-! ## The pool at the start -/

section Start

variable {memPool : Addr}

theorem initMaxMemSize_toNat : (initMaxMemSize startupSize).toNat = 66688 := by decide

theorem poolSize_toNat : poolSize.toNat = 2 ^ 28 := by decide

theorem add_pool_toNat (below : memPool.toNat + 2 ^ 28 < 2 ^ 63) {off : Addr}
    (inside : off.toNat ≤ 2 ^ 28) : (memPool + off).toNat = memPool.toNat + off.toNat := by
  rw [BitVec.toNat_add]
  exact Nat.mod_eq_of_lt (by omega)

theorem createSlabMgr_eq (below : memPool.toNat + 2 ^ 28 < 2 ^ 63) {h : Allocator}
    (created : createSlabMgr memPool = some h) :
    h = ⟨memPool + initMaxMemSize startupSize, memPool + poolSize, initLevel memPool startupSize⟩ := by
  have size := initMaxMemSize_toNat
  have room : memPool + initMaxMemSize startupSize ≤ memPool + poolSize := by
    rw [BitVec.le_def, add_pool_toNat below (by omega), add_pool_toNat below poolSize_toNat.le,
      poolSize_toNat]
    omega
  have bytes : ((initMaxMemSize startupSize).setWidth 32).signExtend 64 =
      initMaxMemSize startupSize := by decide
  have got : Allocator.mallocSmaller initMaxMemSize 65 startupSize
      ⟨memPool, memPool + poolSize, fun _ => ⟨[], [], 0, 0, 0, 0⟩⟩ =
        (some (memPool, startupSize), ⟨memPool + initMaxMemSize startupSize, memPool + poolSize,
          fun _ => ⟨[], [], 0, 0, 0, 0⟩⟩) := by
    rw [Allocator.mallocSmaller, if_neg (by decide), Allocator.systemMalloc, bytes]
    simp only [if_pos room]
  obtain ⟨mem, start, h', got', rfl⟩ := createSlabMgr_some created
  cases got.symm.trans got'
  rfl

/-- The areas of the levels, one behind the other. -/
theorem initOffset_toNat (i : Fin 8) : 384 ≤ (initOffset i).toNat ∧
    (initOffset i).toNat + 32 + 16 * objSize i ≤ 66688 ∧
      ∀ j, i ≠ j → (initOffset i).toNat + 32 + 16 * objSize i ≤ (initOffset j).toNat ∨
        (initOffset j).toNat + 32 + 16 * objSize j ≤ (initOffset i).toNat := by
  revert i
  decide

theorem layout_start (below : memPool.toNat + 2 ^ 28 < 2 ^ 63) {h : Allocator}
    (created : createSlabMgr memPool = some h) : Layout memPool.toNat h [] := by
  obtain rfl := createSlabMgr_eq below created
  have size := initMaxMemSize_toNat
  have bump := add_pool_toNat below (show (initMaxMemSize startupSize).toNat ≤ 2 ^ 28 by omega)
  have top := (add_pool_toNat below poolSize_toNat.le).trans (by rw [poolSize_toNat])
  rw [size] at bump
  have addr (i : Fin 8) : (memPool + initOffset i).toNat = memPool.toNat + (initOffset i).toNat := by
    have := initOffset_toNat i
    exact add_pool_toNat below (by omega)
  have level (i : Fin 8) := @setFreeSlabArea_toNat i
    ⟨[⟨memPool + initOffset i, startupSize.setWidth 32⟩], [], 0, 0, 0, 0⟩
    ⟨memPool + initOffset i, 16⟩
    (by have := initOffset_toNat i; rw [addr]; simp; omega) (show 0 + 16 < 2 ^ 63 by decide)
    (by have := objSize_bounds i; simp; omega)
  have held {c : Chunk} (there : Held ⟨memPool + initMaxMemSize startupSize, memPool + poolSize,
      initLevel memPool startupSize⟩ [] c) :
      ∃ i, c = .area i ⟨memPool + initOffset i, startupSize.setWidth 32⟩ := by
    cases there with
    | @area i a member => exact ⟨i, by rw [List.mem_singleton.mp member]⟩
    | large member => cases member
  have start (i : Fin 8) :
      (Chunk.area i ⟨memPool + initOffset i, startupSize.setWidth 32⟩).start =
        memPool.toNat + (initOffset i).toNat := addr i
  have stop (i : Fin 8) :
      (Chunk.area i ⟨memPool + initOffset i, startupSize.setWidth 32⟩).stop =
        memPool.toNat + ((initOffset i).toNat + 32 + 16 * objSize i) := by
    rw [Chunk.stop, addr, ← Nat.add_assoc, ← Nat.add_assoc]
    rfl
  exact {
    toPool := ⟨below, top, by simp only; omega, by simp only; omega⟩
    inside := by
      intro c there
      obtain ⟨i, rfl⟩ := held there
      have := initOffset_toNat i
      rw [start, stop]
      simp only
      omega
    apart := by
      intro c c' there there' differ
      obtain ⟨i, rfl⟩ := held there
      obtain ⟨j, rfl⟩ := held there'
      rw [start, stop, start, stop]
      have := (initOffset_toNat i).2.2 j fun same => differ (by rw [same])
      omega
    active := fun i => ⟨⟨memPool + initOffset i, startupSize.setWidth 32⟩, [], rfl, rfl, by simp,
      (level i).2.1, 0, Nat.zero_le _, by rw [Nat.zero_mul]; exact (level i).1⟩
    total := by
      intro i
      have bounds := objSize_bounds i
      have size := (level i).2.2
      have sixteen : ((initLevel memPool startupSize i).size).toNat = 16 := size
      simp only
      rw [sixteen]
      omega
    objects := by
      intro i m member
      cases member
    once := fun i => List.nodup_nil
    large := List.nodup_nil
    behind := by simp
    sizes := by simp }

end Start

end SandboxTEE.Heap
