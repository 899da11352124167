import SandboxTEE.DynamicText.Regions
import SandboxTEE.Runtime.App

/-! # Creating dynamic code (`NaClTextDyncodeCreate`)

The code is copied through a second mapping of the shared memory behind the dynamic text; the
pages it covers are made visible, and marked in `dynamic_page_bitmap`, the first time.  An
`Outcome` says what a call returns, which bits it sets and to which offsets in the shared
memory it copies.

The end of the range, `dest + size`, is a `uint32_t`.  It is 0 for a range that ends with the
address space, which `NaClUserToSysAddrRange` admits, and then the check against the end of the
dynamic text is passed; what is left is that `NaClDescImcShmMap` maps nothing behind 2^31
(`ReachesEnd`).
-/

namespace SandboxTEE.DynamicText

open SandboxTEE.Runtime

def naclMapPagesize : Nat := 65536
def naclHaltSledSize : Nat := 32
def int32Max : Nat := 2 ^ 31 - 1

/-- The fields of `struct NaClApp` that concern dynamic text. -/
structure NaClApp where
  space : AddressSpace
  bundleSize : Nat
  /-- Whether `text_shm` is not null. -/
  textShm : Bool
  dynamicTextStart : Nat
  dynamicTextEnd : Nat
  regions : Table
  skipValidator : Bool
  ignoreValidatorResult : Bool
  /-- The bits at the address of the bitmap, and behind it. -/
  dynamicPageBitmap : Nat → Bool
  dynamicMapcacheOffset : Nat
  dynamicMapcacheSize : Nat
  /-- `none` is 0. -/
  dynamicMapcacheRet : Option Nat

/-- What a call depends on besides its arguments. -/
structure Environment where
  /-- Whether `NaClValidateCode` returns `LOAD_OK`. -/
  validated : Bool
  reallocated : Bool
  /-- The address at which the host maps shared memory. -/
  mapped : Option Nat
  /-- Whether the mapped pages can be touched, and be protected. -/
  touched : Bool

/-- What a call does; `retval` is `none` when the process does not survive it. -/
structure Outcome where
  retval : Option Int
  bits : List Nat
  /-- The offset and the size of what is copied into the shared memory. -/
  copied : Option (Nat × Nat)
  nap : NaClApp

def NaClApp.returns (nap : NaClApp) (retval : Int) : Outcome := ⟨some retval, [], none, nap⟩

/-! ## Pages of the shared memory -/

/-- `BitmapIsBitSet` fails from the page on: the end of a block of unallocated pages. -/
def unallocatedEnd (bitmap : Nat → Bool) : Nat → Nat → Nat → Nat
  | 0, current, _ => current
  | fuel + 1, current, stop =>
    if current < stop ∧ bitmap current = false then unallocatedEnd bitmap fuel (current + 1) stop
    else current

/-- The blocks of unallocated pages, each one a call of `MakeDynamicCodePagesVisible`. -/
def unallocatedBlocks (bitmap : Nat → Bool) : Nat → Nat → Nat → List (Nat × Nat)
  | 0, _, _ => []
  | fuel + 1, current, stop =>
    if current < stop then
      let blockEnd := unallocatedEnd bitmap (stop - current) current stop
      if current < blockEnd then
        (current, blockEnd) :: unallocatedBlocks bitmap fuel (blockEnd + 1) stop
      else unallocatedBlocks bitmap fuel (blockEnd + 1) stop
    else []

def blockBits (block : Nat × Nat) : List Nat := List.range' block.1 (block.2 - block.1)

/-- `NaClDescImcShmMap`, which lets nothing be mapped behind 2^31. -/
def naClDescImcShmMap (mapped : Option Nat) (len offset : Nat) : Option Nat :=
  if (offset + len + naclMapPagesize - 1) / naclMapPagesize * naclMapPagesize > int32Max then none
  else mapped

/-- The result of `CachedMapWritableText`: the mapping (`none` is 0), or an abort. -/
inductive Mapping where
  | mapped (ret : Option Nat)
  | aborted

/-- Clear the mapping that is cached. -/
def NaClApp.clearMapcache (nap : NaClApp) : NaClApp :=
  if nap.dynamicMapcacheSize > 0 then
    { nap with dynamicMapcacheOffset := 0, dynamicMapcacheSize := 0, dynamicMapcacheRet := none }
  else nap

/-- Map what is not cached, and make its unallocated pages visible. -/
def mapWritableText (env : Environment) (nap : NaClApp) (offset size : Nat) :
    Mapping × List Nat × NaClApp :=
  match naClDescImcShmMap env.mapped size offset with
  | none => (.mapped none, [], nap)
  | some mapping =>
    let stop := (offset + size) % 2 ^ 32 / naclMapPagesize
    let blocks := unallocatedBlocks nap.dynamicPageBitmap stop (offset / naclMapPagesize) stop
    -- the bits of a block are set before its first page is touched
    if blocks ≠ [] ∧ env.touched = false then
      (.aborted, blockBits (blocks.headD (0, 0)), nap)
    else
      let bits := blocks.flatMap blockBits
      (.mapped (some mapping), bits,
        { nap with
          dynamicPageBitmap := fun i => nap.dynamicPageBitmap i || bits.contains i
          dynamicMapcacheOffset := offset
          dynamicMapcacheSize := size
          dynamicMapcacheRet := some mapping })

/-- `CachedMapWritableText`, with the bits it sets. -/
def cachedMapWritableText (env : Environment) (nap : NaClApp) (offset size : Nat) :
    Mapping × List Nat × NaClApp :=
  if offset ≠ nap.dynamicMapcacheOffset ∨ size ≠ nap.dynamicMapcacheSize then
    if size > 0 then mapWritableText env nap.clearMapcache offset size
    else (.mapped none, [], nap.clearMapcache)
  else (.mapped nap.dynamicMapcacheRet, [], nap)

/-- The page-aligned part of the shared memory that a range covers: `shm_map_offset` and
    `shm_map_size`, all in 32 bits. -/
def shmMapRange (nap : NaClApp) (dest size : Nat) : Nat × Nat :=
  let shmOffset := (dest + (2 ^ 32 - nap.dynamicTextStart % 2 ^ 32)) % 2 ^ 32
  let shmMapOffset := shmOffset / naclMapPagesize * naclMapPagesize
  let shmMapOffsetEnd :=
    (shmOffset + size + naclMapPagesize - 1) % 2 ^ 32 / naclMapPagesize * naclMapPagesize
  (shmMapOffset, (shmMapOffsetEnd + (2 ^ 32 - shmMapOffset)) % 2 ^ 32)

/-- `NaClTextMapClearCacheIfNeeded`. -/
def naClTextMapClearCacheIfNeeded (env : Environment) (nap : NaClApp) (dest size : Nat) : NaClApp :=
  if (shmMapRange nap dest size).2 > naclMapPagesize then (cachedMapWritableText env nap 0 0).2.2
  else nap

/-! ## `NaClTextDyncodeCreate` -/

/-- From `NaClDynamicRegionCreate` on. -/
def createRegion (env : Environment) (nap : NaClApp) (destAddr dest size : Nat) : Outcome :=
  match naClDynamicRegionCreate env.reallocated destAddr size false nap.regions with
  | none => ⟨none, [], none, nap⟩
  | some (false, regions) => { nap with regions := regions }.returns (-naClAbiEINVAL)
  | some (true, regions) =>
    let nap := { nap with regions := regions }
    let shmOffset := (dest + (2 ^ 32 - nap.dynamicTextStart % 2 ^ 32)) % 2 ^ 32
    let range := shmMapRange nap dest size
    match cachedMapWritableText env nap range.1 range.2 with
    | (.aborted, bits, nap) => ⟨none, bits, none, nap⟩
    | (.mapped none, bits, nap) => ⟨some (-naClAbiENOMEM), bits, none, nap⟩
    | (.mapped (some _), bits, nap) =>
      if env.touched then
        ⟨some 0, bits, some (shmOffset, size), naClTextMapClearCacheIfNeeded env nap dest size⟩
      else ⟨none, bits, none, nap⟩

/-- `NaClTextDyncodeCreate` for `uint32_t` values `dest` and `size`. -/
def naClTextDyncodeCreate (env : Environment) (nap : NaClApp) (dest size : Nat) : Outcome :=
  if nap.textShm = false then nap.returns (-naClAbiEINVAL)
  else if dest &&& (nap.bundleSize - 1) ≠ 0 ∨ size &&& (nap.bundleSize - 1) ≠ 0 then
    nap.returns (-naClAbiEINVAL)
  else
    match naClUserToSysAddrRange nap.space dest size with
    | none => nap.returns (-naClAbiEFAULT)
    | some destAddr =>
      if dest < nap.dynamicTextStart then nap.returns (-naClAbiEFAULT)
      -- the sum is a `uint32_t`, the difference a `uintptr_t`
      else if (dest + size) % 2 ^ 32 >
          (nap.dynamicTextEnd + (2 ^ 64 - naclHaltSledSize)) % 2 ^ 64 then
        nap.returns (-naClAbiEFAULT)
      else if size = 0 then nap.returns 0
      else if nap.skipValidator || env.validated || nap.ignoreValidatorResult then
        createRegion env nap destAddr dest size
      else nap.returns (-naClAbiEINVAL)

/-- The checks in front of the region pass. -/
structure Admitted (env : Environment) (nap : NaClApp) (dest size : Nat) : Prop where
  textShm : nap.textShm = true
  alignedDest : dest &&& (nap.bundleSize - 1) = 0
  alignedSize : size &&& (nap.bundleSize - 1) = 0
  notNull : dest ≠ 0
  fits : dest + size ≤ 2 ^ nap.space.addrBits
  low : nap.dynamicTextStart ≤ dest
  high : (dest + size) % 2 ^ 32 ≤ (nap.dynamicTextEnd + (2 ^ 64 - naclHaltSledSize)) % 2 ^ 64
  nonempty : 0 < size
  accepted : (nap.skipValidator || env.validated || nap.ignoreValidatorResult) = true

/-- A call that is not admitted returns at once. -/
theorem naClTextDyncodeCreate_cases (env : Environment) (nap : NaClApp) (dest size : Nat) :
    (¬ Admitted env nap dest size ∧
      ∃ retval, naClTextDyncodeCreate env nap dest size = nap.returns retval) ∨
    (Admitted env nap dest size ∧ naClTextDyncodeCreate env nap dest size =
      createRegion env nap (dest + nap.space.memStart) dest size) := by
  unfold naClTextDyncodeCreate
  by_cases shm : nap.textShm = false
  · exact Or.inl ⟨fun h => by simp [h.textShm] at shm, _, if_pos shm⟩
  rw [if_neg shm]
  by_cases misaligned : dest &&& (nap.bundleSize - 1) ≠ 0 ∨ size &&& (nap.bundleSize - 1) ≠ 0
  · refine Or.inl ⟨fun h => ?_, _, if_pos misaligned⟩
    cases misaligned with
    | inl wrong => exact wrong h.alignedDest
    | inr wrong => exact wrong h.alignedSize
  rw [if_neg misaligned]
  rw [not_or, not_not, not_not] at misaligned
  cases translated : naClUserToSysAddrRange nap.space dest size with
  | none =>
    refine Or.inl ⟨fun h => ?_, _, rfl⟩
    have inSpace := nap.space.inSpace
    have fits := h.fits
    rw [naClUserToSysAddrRange, if_neg h.notNull, if_neg (by omega), if_neg (by omega)] at translated
    cases translated
  | some destAddr =>
    obtain ⟨notNull, fits, rfl⟩ := naClUserToSysAddrRange_some translated
    dsimp only
    by_cases low : dest < nap.dynamicTextStart
    · exact Or.inl ⟨fun h => absurd h.low (Nat.not_le_of_lt low), _, if_pos low⟩
    rw [if_neg low]
    by_cases high : (dest + size) % 2 ^ 32 >
        (nap.dynamicTextEnd + (2 ^ 64 - naclHaltSledSize)) % 2 ^ 64
    · exact Or.inl ⟨fun h => absurd h.high (Nat.not_le_of_lt high), _, if_pos high⟩
    rw [if_neg high]
    by_cases empty : size = 0
    · exact Or.inl ⟨fun h => absurd empty h.nonempty.ne', _, if_pos empty⟩
    rw [if_neg empty]
    by_cases accepted : (nap.skipValidator || env.validated || nap.ignoreValidatorResult) = true
    · exact Or.inr ⟨⟨by simpa using shm, misaligned.1, misaligned.2, notNull, fits,
        Nat.le_of_not_lt low, Nat.le_of_not_lt high, Nat.pos_of_ne_zero empty, accepted⟩,
        if_pos accepted⟩
    · exact Or.inl ⟨fun h => accepted h.accepted, _, if_neg accepted⟩

/-! ## Layout -/

/-- `NaClMakeDynamicTextShared` and the layout checks before it: the dynamic text is a number of
    whole pages between the static text and the data, and what is cached has been mapped. -/
structure NaClApp.Shared (nap : NaClApp) : Prop where
  bundle : nap.bundleSize = 32
  addrBits : nap.space.addrBits ≤ 32
  first : naclMapPagesize ≤ nap.dynamicTextStart
  startAligned : naclMapPagesize ∣ nap.dynamicTextStart
  endAligned : naclMapPagesize ∣ nap.dynamicTextEnd
  nonempty : nap.dynamicTextStart < nap.dynamicTextEnd
  inside : nap.dynamicTextEnd < 2 ^ nap.space.addrBits
  cached : 0 < nap.dynamicMapcacheSize → nap.dynamicMapcacheRet.isSome ∧
    (nap.dynamicMapcacheOffset + nap.dynamicMapcacheSize + naclMapPagesize - 1) /
      naclMapPagesize * naclMapPagesize ≤ int32Max
  inOrder : InOrder nap.regions.dynamicRegions

/-- The range with the address space's end as its end, which the check in 32 bits lets pass. -/
structure ReachesEnd (nap : NaClApp) (dest size : Nat) : Prop where
  textShm : nap.textShm = true
  alignedDest : 32 ∣ dest
  alignedSize : 32 ∣ size
  nonempty : 0 < size
  addrBits : nap.space.addrBits = 32
  low : nap.dynamicTextStart ≤ dest
  ends : dest + size = 2 ^ 32
  /-- `NaClDescImcShmMap` maps up to 2^31. -/
  far : 2 ^ 31 < nap.dynamicTextStart
  free : ∀ r ∈ nap.regions.dynamicRegions, ∀ a, r.Has a →
    a < dest + nap.space.memStart ∨ dest + nap.space.memStart + size ≤ a
  room : (enlarge true nap.regions).isSome

/-- What a call may do: it succeeds for aligned ranges inside the dynamic text in front of the
    halt sled, sets bits of the bitmap, and copies to the range. -/
structure Outcome.Confined (nap : NaClApp) (dest size : Nat) (o : Outcome) : Prop where
  returned : o.retval = some 0 → nap.dynamicTextStart ≤ dest ∧
    dest + size ≤ nap.dynamicTextEnd - naclHaltSledSize ∧ 32 ∣ dest ∧ 32 ∣ size
  bits : ∀ bit ∈ o.bits, bit < (nap.dynamicTextEnd - nap.dynamicTextStart) / naclMapPagesize
  copied : ∀ range ∈ o.copied, nap.dynamicTextStart + range.1 = dest ∧ range.2 = size ∧
    dest + size ≤ nap.dynamicTextEnd - naclHaltSledSize

theorem returns_confined (nap nap' : NaClApp) (dest size : Nat) {retval : Int} (failed : retval ≠ 0) :
    (nap'.returns retval).Confined nap dest size where
  returned := fun same => absurd (Option.some.inj same) failed
  bits := fun _ mem => by cases mem
  copied := fun _ mem => by cases mem

/-! ## Pages -/

theorem unallocatedEnd_le (bitmap : Nat → Bool) (fuel : Nat) {current stop : Nat}
    (inside : current ≤ stop) : current ≤ unallocatedEnd bitmap fuel current stop ∧
      unallocatedEnd bitmap fuel current stop ≤ stop := by
  induction fuel generalizing current with
  | zero => exact ⟨Nat.le_refl _, inside⟩
  | succ fuel ih =>
    rw [unallocatedEnd]
    split
    · next more =>
      have next : current + 1 ≤ stop := more.1
      obtain ⟨first, last⟩ := ih next
      exact ⟨by omega, last⟩
    · exact ⟨Nat.le_refl _, inside⟩

theorem unallocatedBlocks_inside (bitmap : Nat → Bool) (fuel : Nat) {current stop : Nat} :
    ∀ block ∈ unallocatedBlocks bitmap fuel current stop, block.2 ≤ stop := by
  induction fuel generalizing current with
  | zero => exact fun block mem => by cases mem
  | succ fuel ih =>
    rw [unallocatedBlocks]
    split
    · next more =>
      dsimp only
      split
      · intro block mem
        rcases List.mem_cons.mp mem with rfl | mem
        · exact (unallocatedEnd_le bitmap _ (Nat.le_of_lt more)).2
        · exact ih block mem
      · exact ih
    · exact fun block mem => by cases mem

theorem shmMapRange_congr {nap nap' : NaClApp}
    (same : nap'.dynamicTextStart = nap.dynamicTextStart) (dest size : Nat) :
    shmMapRange nap' dest size = shmMapRange nap dest size := by
  rw [shmMapRange, shmMapRange, same]

/-- The range of pages around a range in the dynamic text. -/
theorem shmMapRange_eq {nap : NaClApp} (shared : nap.Shared) {dest size : Nat}
    (low : nap.dynamicTextStart ≤ dest) (fits : dest + size ≤ 2 ^ 32) (nonempty : 0 < size) :
    let range := shmMapRange nap dest size
    (dest + (2 ^ 32 - nap.dynamicTextStart % 2 ^ 32)) % 2 ^ 32 = dest - nap.dynamicTextStart ∧
      0 < range.2 ∧ range.1 + range.2 =
        (dest - nap.dynamicTextStart + size + naclMapPagesize - 1) / naclMapPagesize *
          naclMapPagesize := by
  have first := shared.first
  have offset : (dest + (2 ^ 32 - nap.dynamicTextStart % 2 ^ 32)) % 2 ^ 32 =
      dest - nap.dynamicTextStart := by omega
  dsimp only [shmMapRange]
  rw [offset]
  simp only [naclMapPagesize] at *
  refine ⟨trivial, ?_, ?_⟩
  · omega
  · omega

/-! ## One mapping -/

section Mapping

variable {env : Environment} {nap : NaClApp}

theorem blockBits_lt {bitmap : Nat → Bool} {fuel current stop bit : Nat} {block : Nat × Nat}
    (member : block ∈ unallocatedBlocks bitmap fuel current stop) (here : bit ∈ blockBits block) :
    bit < stop := by
  have bound := unallocatedBlocks_inside bitmap fuel block member
  have := List.mem_range'_1.mp here
  omega

theorem naClDescImcShmMap_some {mapped : Option Nat} {len offset mapping : Nat}
    (accepted : naClDescImcShmMap mapped len offset = some mapping) :
    (offset + len + naclMapPagesize - 1) / naclMapPagesize * naclMapPagesize ≤ int32Max := by
  unfold naClDescImcShmMap at accepted
  split at accepted
  · cases accepted
  · next near => exact Nat.le_of_not_lt near

theorem mapWritableText_bits {offset size : Nat} :
    ∀ bit ∈ (mapWritableText env nap offset size).2.1,
      bit < (offset + size) % 2 ^ 32 / naclMapPagesize := by
  rw [mapWritableText]
  generalize (offset + size) % 2 ^ 32 / naclMapPagesize = stop
  cases naClDescImcShmMap env.mapped size offset with
  | none => exact fun bit mem => absurd mem List.not_mem_nil
  | some mapping =>
    dsimp only
    split
    · next aborted =>
      intro bit mem
      obtain ⟨first, rest, same⟩ := List.exists_cons_of_ne_nil aborted.1
      rw [same] at mem
      exact blockBits_lt (same ▸ List.mem_cons_self) mem
    · intro bit mem
      obtain ⟨block, member, here⟩ := List.mem_flatMap.mp mem
      exact blockBits_lt member here

/-- The bits set by a call of `CachedMapWritableText` are those of pages in its range. -/
theorem cachedMapWritableText_bits {offset size : Nat} :
    ∀ bit ∈ (cachedMapWritableText env nap offset size).2.1,
      bit < (offset + size) % 2 ^ 32 / naclMapPagesize := by
  intro bit mem
  unfold cachedMapWritableText at mem
  split at mem
  · split at mem
    · exact mapWritableText_bits bit mem
    · cases mem
  · cases mem

theorem cachedMapWritableText_far (shared : nap.Shared) {offset size : Nat} (nonempty : 0 < size)
    (far : int32Max < (offset + size + naclMapPagesize - 1) / naclMapPagesize * naclMapPagesize) :
    (cachedMapWritableText env nap offset size).1 = .mapped none ∧
      (cachedMapWritableText env nap offset size).2.1 = [] := by
  have refused : naClDescImcShmMap env.mapped size offset = none := if_pos far
  unfold cachedMapWritableText
  split
  · rw [mapWritableText, refused]
    exact ⟨rfl, rfl⟩
  · next hit =>
    obtain ⟨sameOffset, sameSize⟩ := not_or.mp hit
    rw [not_not] at sameOffset sameSize
    have cached := (shared.cached (sameSize ▸ nonempty)).2
    rw [← sameOffset, ← sameSize] at cached
    omega

/-- A range that ends at or below 2^31 is mapped, if the host maps it. -/
theorem cachedMapWritableText_near (shared : nap.Shared) {offset size : Nat} (nonempty : 0 < size)
    (near : (offset + size + naclMapPagesize - 1) / naclMapPagesize * naclMapPagesize ≤ int32Max)
    (mapped : env.mapped.isSome) (touched : env.touched = true) :
    ∃ ret, (cachedMapWritableText env nap offset size).1 = .mapped (some ret) := by
  have accepted : naClDescImcShmMap env.mapped size offset = env.mapped :=
    if_neg (Nat.not_lt_of_le near)
  obtain ⟨ret, host⟩ := Option.isSome_iff_exists.mp mapped
  unfold cachedMapWritableText
  split
  · rw [mapWritableText, accepted, host]
    dsimp only
    rw [if_neg (by simp [touched])]
    exact ⟨ret, rfl⟩
  · next hit =>
    obtain ⟨sameOffset, sameSize⟩ := not_or.mp hit
    rw [not_not] at sameOffset sameSize
    obtain ⟨ret', cached⟩ :=
      Option.isSome_iff_exists.mp (shared.cached (sameSize ▸ nonempty)).1
    exact ⟨ret', by rw [cached]⟩

theorem NaClApp.Shared.clearMapcache (shared : nap.Shared) : nap.clearMapcache.Shared := by
  unfold NaClApp.clearMapcache
  split
  · exact { shared with cached := fun pos => absurd pos (Nat.lt_irrefl 0) }
  · exact shared

theorem mapWritableText_shared (shared : nap.Shared) (offset size : Nat) :
    (mapWritableText env nap offset size).2.2.Shared := by
  rw [mapWritableText]
  generalize (offset + size) % 2 ^ 32 / naclMapPagesize = stop
  cases accepted : naClDescImcShmMap env.mapped size offset with
  | none => exact shared
  | some mapping =>
    dsimp only
    split
    · exact shared
    · exact { shared with cached := fun _ => ⟨rfl, naClDescImcShmMap_some accepted⟩ }

theorem cachedMapWritableText_shared (shared : nap.Shared) (offset size : Nat) :
    (cachedMapWritableText env nap offset size).2.2.Shared := by
  unfold cachedMapWritableText
  split
  · split
    · exact mapWritableText_shared shared.clearMapcache offset size
    · exact shared.clearMapcache
  · exact shared

end Mapping

/-! ## The end of a call -/

/-- What `createRegion` makes of a mapping. -/
def Outcome.ofMapping (env : Environment) (dest size shmOffset : Nat) :
    Mapping × List Nat × NaClApp → Outcome
  | (.aborted, bits, nap) => ⟨none, bits, none, nap⟩
  | (.mapped none, bits, nap) => ⟨some (-naClAbiENOMEM), bits, none, nap⟩
  | (.mapped (some _), bits, nap) =>
    if env.touched then
      ⟨some 0, bits, some (shmOffset, size), naClTextMapClearCacheIfNeeded env nap dest size⟩
    else ⟨none, bits, none, nap⟩

section Create

variable {env : Environment} {nap : NaClApp} {destAddr dest size : Nat} {regions : Table}

theorem createRegion_aborted
    (created : naClDynamicRegionCreate env.reallocated destAddr size false nap.regions = none) :
    createRegion env nap destAddr dest size = ⟨none, [], none, nap⟩ := by
  rw [createRegion, created]

theorem createRegion_inUse
    (created : naClDynamicRegionCreate env.reallocated destAddr size false nap.regions =
      some (false, regions)) : createRegion env nap destAddr dest size =
      { nap with regions := regions }.returns (-naClAbiEINVAL) := by
  rw [createRegion, created]

theorem createRegion_created
    (created : naClDynamicRegionCreate env.reallocated destAddr size false nap.regions =
      some (true, regions)) :
    createRegion env nap destAddr dest size =
      Outcome.ofMapping env dest size ((dest + (2 ^ 32 - nap.dynamicTextStart % 2 ^ 32)) % 2 ^ 32)
        (cachedMapWritableText env { nap with regions := regions } (shmMapRange nap dest size).1
          (shmMapRange nap dest size).2) := by
  rw [createRegion, created]
  dsimp only
  have ranges : shmMapRange { nap with regions := regions } dest size =
    shmMapRange nap dest size := shmMapRange_congr rfl dest size
  rw [ranges]
  generalize cachedMapWritableText env { nap with regions := regions } (shmMapRange nap dest size).1
    (shmMapRange nap dest size).2 = result
  obtain ⟨mapping, bits, after⟩ := result
  cases mapping with
  | aborted => rfl
  | mapped ret => cases ret <;> rfl

end Create

/-! ## Confinement -/

section Create

variable {env : Environment} {nap : NaClApp} (shared : nap.Shared) {dest size : Nat}

theorem NaClApp.Shared.withRegions (shared : nap.Shared) {regions : Table}
    (inOrder : InOrder regions.dynamicRegions) : { nap with regions := regions }.Shared :=
  { shared with inOrder := inOrder }

theorem enlarge_true {reallocated : Bool} {t t' : Table} (enlarged : enlarge reallocated t = some t') :
    enlarge true t ≠ none := by
  unfold enlarge at enlarged ⊢
  dsimp only at enlarged ⊢
  split_ifs at enlarged with full room
  · rw [if_pos full, if_pos ⟨rfl, room.2⟩]
    exact Option.some_ne_none _
  · rw [if_neg full]
    exact Option.some_ne_none _

/-- A range the address space admits, in system addresses. -/
def NaClApp.sysRange (nap : NaClApp) (dest size : Nat) (nonempty : 0 < size)
    (fits : dest + size ≤ 2 ^ nap.space.addrBits) : Range where
  start := dest + nap.space.memStart
  size := size
  nonempty := nonempty
  noWrap := by
    have := nap.space.inSpace
    omega

include shared

theorem createRegion_inside (nonempty : 0 < size) (low : nap.dynamicTextStart ≤ dest)
    (high : dest + size ≤ nap.dynamicTextEnd - naclHaltSledSize)
    (alignedDest : 32 ∣ dest) (alignedSize : 32 ∣ size) :
    (createRegion env nap (dest + nap.space.memStart) dest size).Confined nap dest size := by
  have small : nap.dynamicTextEnd < 2 ^ 32 :=
    Nat.lt_of_lt_of_le shared.inside (Nat.pow_le_pow_right (by decide) shared.addrBits)
  obtain ⟨offset, pos, stop⟩ := shmMapRange_eq shared low (by omega) nonempty
  -- the pages of the range are pages of the dynamic text
  have pages : ∀ bit, bit < ((shmMapRange nap dest size).1 + (shmMapRange nap dest size).2) %
      2 ^ 32 / naclMapPagesize →
        bit < (nap.dynamicTextEnd - nap.dynamicTextStart) / naclMapPagesize := by
    rw [stop]
    obtain ⟨m, hm⟩ := shared.startAligned
    obtain ⟨n, hn⟩ := shared.endAligned
    simp only [naclMapPagesize] at *
    intro bit below
    omega
  cases created : naClDynamicRegionCreate env.reallocated (dest + nap.space.memStart) size false
    nap.regions with
  | none =>
    rw [createRegion_aborted created]
    exact ⟨nofun, nofun, nofun⟩
  | some outcome =>
    obtain ⟨ok, regions⟩ := outcome
    cases ok with
    | false =>
      rw [createRegion_inUse created]
      exact returns_confined _ _ _ _ (by decide)
    | true =>
      have bits := @cachedMapWritableText_bits env { nap with regions := regions }
        (shmMapRange nap dest size).1 (shmMapRange nap dest size).2
      rw [createRegion_created created, offset]
      generalize cachedMapWritableText env { nap with regions := regions }
        (shmMapRange nap dest size).1 (shmMapRange nap dest size).2 = mapping at bits
      obtain ⟨mapping, set, after⟩ := mapping
      have set_inside := fun bit mem => pages bit (bits bit mem)
      cases mapping with
      | aborted => exact ⟨nofun, set_inside, nofun⟩
      | mapped ret =>
        cases ret with
        | none => exact ⟨fun same => absurd (Option.some.inj same) (by decide), set_inside, nofun⟩
        | some ret =>
          rw [Outcome.ofMapping]
          split
          · refine ⟨fun _ => ⟨low, high, alignedDest, alignedSize⟩, set_inside, fun range mem => ?_⟩
            cases mem
            exact ⟨Nat.add_sub_cancel' low, rfl, high⟩
          · exact ⟨nofun, set_inside, nofun⟩

/-- At the end of the address space nothing happens if the region is not created, or the shared
    memory is not mapped that far. -/
theorem createRegion_end (nonempty : 0 < size) (low : nap.dynamicTextStart ≤ dest)
    (ends : dest + size = 2 ^ 32) (addrBits : nap.space.addrBits = 32)
    (stops : nap.dynamicTextStart ≤ 2 ^ 31 ∨
      (∃ r ∈ nap.regions.dynamicRegions, r.Meets (nap.sysRange dest size nonempty
        (by rw [addrBits, ends]))) ∨ enlarge true nap.regions = none) :
    (createRegion env nap (dest + nap.space.memStart) dest size).Confined nap dest size := by
  obtain ⟨offset, pos, stop⟩ := shmMapRange_eq shared low (Nat.le_of_eq ends) nonempty
  cases created : naClDynamicRegionCreate env.reallocated (dest + nap.space.memStart) size false
    nap.regions with
  | none =>
    rw [createRegion_aborted created]
    exact ⟨nofun, nofun, nofun⟩
  | some outcome =>
    obtain ⟨ok, regions⟩ := outcome
    have spec := @naClDynamicRegionCreate_spec _ _ shared.inOrder _ _ _
      (nap.sysRange dest size nonempty (by rw [addrBits, ends])) created
    cases ok with
    | false =>
      rw [createRegion_inUse created]
      exact returns_confined _ _ _ _ (by decide)
    | true =>
      have near : nap.dynamicTextStart ≤ 2 ^ 31 := by
        rcases stops with near | ⟨r, mem, meets⟩ | full
        · exact near
        · exact absurd meets (spec.1.mp rfl r mem)
        · obtain ⟨u, enlarged, _⟩ := Option.map_eq_some_iff.mp created
          exact absurd full (enlarge_true enlarged)
      obtain ⟨unmapped, noBits⟩ := @cachedMapWritableText_far env _
        (shared.withRegions spec.2.1) (shmMapRange nap dest size).1 (shmMapRange nap dest size).2 pos
        (by
          rw [stop]
          simp only [naclMapPagesize, int32Max]
          omega)
      rw [createRegion_created created]
      generalize cachedMapWritableText env { nap with regions := regions }
        (shmMapRange nap dest size).1 (shmMapRange nap dest size).2 = mapping at unmapped noBits
      obtain ⟨mapping, set, after⟩ := mapping
      obtain rfl : mapping = .mapped none := unmapped
      obtain rfl : set = [] := noBits
      exact ⟨fun same => absurd (Option.some.inj same) (by decide), nofun, nofun⟩

theorem createRegion_shared (nonempty : 0 < size) (fits : dest + size ≤ 2 ^ nap.space.addrBits) :
    (createRegion env nap (dest + nap.space.memStart) dest size).nap.Shared := by
  cases created : naClDynamicRegionCreate env.reallocated (dest + nap.space.memStart) size false
    nap.regions with
  | none =>
    rw [createRegion_aborted created]
    exact shared
  | some outcome =>
    obtain ⟨ok, regions⟩ := outcome
    have spec := @naClDynamicRegionCreate_spec _ _ shared.inOrder _ _ _
      (nap.sysRange dest size nonempty fits) created
    have changed := shared.withRegions spec.2.1
    cases ok with
    | false =>
      rw [createRegion_inUse created]
      exact changed
    | true =>
      have mapped := @cachedMapWritableText_shared env _ changed
        (shmMapRange nap dest size).1 (shmMapRange nap dest size).2
      rw [createRegion_created created]
      generalize cachedMapWritableText env { nap with regions := regions }
        (shmMapRange nap dest size).1 (shmMapRange nap dest size).2 = mapping at mapped
      obtain ⟨mapping, set, after⟩ := mapping
      cases mapping with
      | aborted => exact mapped
      | mapped ret =>
        cases ret with
        | none => exact mapped
        | some ret =>
          rw [Outcome.ofMapping]
          split
          · unfold naClTextMapClearCacheIfNeeded
            split
            · exact cachedMapWritableText_shared mapped 0 0
            · exact mapped
          · exact mapped

theorem naClTextDyncodeCreate_shared : (naClTextDyncodeCreate env nap dest size).nap.Shared := by
  cases naClTextDyncodeCreate_cases env nap dest size with
  | inl refused =>
    obtain ⟨-, retval, same⟩ := refused
    rw [same]
    exact shared
  | inr reached =>
    obtain ⟨admitted, same⟩ := reached
    rw [same]
    exact createRegion_shared shared admitted.nonempty admitted.fits

/-- At the end of the address space, when nothing stops it, a call succeeds. -/
theorem ReachesEnd.createRegion (reaches : ReachesEnd nap dest size) :
    (DynamicText.createRegion ⟨true, true, some 1, true⟩ nap (dest + nap.space.memStart) dest
      size).retval = some 0 := by
  obtain ⟨offset, pos, stop⟩ :=
    shmMapRange_eq shared reaches.low (Nat.le_of_eq reaches.ends) reaches.nonempty
  have far := reaches.far
  have ends := reaches.ends
  have low := reaches.low
  obtain ⟨u, enlarged⟩ := Option.isSome_iff_exists.mp reaches.room
  obtain ⟨ok, regions, created⟩ : ∃ ok regions, naClDynamicRegionCreate true
      (dest + nap.space.memStart) size false nap.regions = some (ok, regions) := by
    rw [naClDynamicRegionCreate, enlarged]
    exact ⟨_, _, rfl⟩
  have spec := @naClDynamicRegionCreate_spec _ _ shared.inOrder _ _ _
    (nap.sysRange dest size reaches.nonempty (by rw [reaches.addrBits, ends])) created
  obtain rfl : ok = true := by
    rw [spec.1]
    rintro r mem ⟨a, has, hit⟩
    have hit : dest + nap.space.memStart ≤ a ∧ a < dest + nap.space.memStart + size := hit
    have := reaches.free r mem a has
    omega
  obtain ⟨ret, mapped⟩ := @cachedMapWritableText_near ⟨true, true, some 1, true⟩ _
    (shared.withRegions spec.2.1) (shmMapRange nap dest size).1 (shmMapRange nap dest size).2 pos
    (by
      rw [stop]
      obtain ⟨m, hm⟩ := shared.startAligned
      simp only [naclMapPagesize, int32Max] at *
      omega) rfl rfl
  rw [createRegion_created created]
  generalize cachedMapWritableText ⟨true, true, some 1, true⟩ { nap with regions := regions }
    (shmMapRange nap dest size).1 (shmMapRange nap dest size).2 = mapping at mapped
  obtain ⟨mapping, set, after⟩ := mapping
  obtain rfl : mapping = .mapped (some ret) := mapped
  rfl

/-- Whatever the code, the validator and the host are, a call keeps to the dynamic text exactly
    when its range is not one that ends with the address space, which the check in 32 bits lets
    pass. -/
theorem naClTextDyncodeCreate_confined_iff (dest32 : dest < 2 ^ 32) (size32 : size < 2 ^ 32) :
    (∀ env, (naClTextDyncodeCreate env nap dest size).Confined nap dest size) ↔
      ¬ ReachesEnd nap dest size := by
  have aligned : ∀ n, n &&& (nap.bundleSize - 1) = 0 ↔ 32 ∣ n := by
    intro n
    have mask : n &&& (32 - 1) = n % 32 := Nat.and_two_pow_sub_one_eq_mod n 5
    rw [shared.bundle, mask, Nat.dvd_iff_mod_eq_zero]
  have addrBits : 2 ^ nap.space.addrBits ≤ 2 ^ 32 :=
    Nat.pow_le_pow_right (by decide) shared.addrBits
  have bound : nap.dynamicTextEnd < 2 ^ 32 := Nat.lt_of_lt_of_le shared.inside addrBits
  have end_text : (nap.dynamicTextEnd + (2 ^ 64 - naclHaltSledSize)) % 2 ^ 64 =
      nap.dynamicTextEnd - naclHaltSledSize := by
    have first := shared.first
    have nonempty := shared.nonempty
    simp only [naclMapPagesize, naclHaltSledSize] at *
    omega
  constructor
  · intro confined reaches
    have first := shared.first
    have low := reaches.low
    have ends := reaches.ends
    have translated : naClUserToSysAddrRange nap.space dest size =
        some (dest + nap.space.memStart) := by
      simp only [naclMapPagesize] at first
      rw [naClUserToSysAddrRange, if_neg (by omega), if_neg (by omega),
        if_neg (by rw [reaches.addrBits]; omega)]
    have reached : (naClTextDyncodeCreate ⟨true, true, some 1, true⟩ nap dest size).retval =
        some 0 := by
      have nonempty := reaches.nonempty
      rw [naClTextDyncodeCreate, if_neg (by simp [reaches.textShm]),
        if_neg (by
          rw [not_or, not_not, not_not, aligned, aligned]
          exact ⟨reaches.alignedDest, reaches.alignedSize⟩), translated]
      dsimp only
      rw [if_neg (by omega), if_neg (by rw [ends]; simp), if_neg (by omega), if_pos (by simp)]
      exact reaches.createRegion shared
    have := ((confined _).returned reached).2.1
    omega
  · intro stops env
    have nonempty_text := shared.nonempty
    unfold naClTextDyncodeCreate
    split
    · exact returns_confined _ _ _ _ (by decide)
    next shm =>
    split
    · exact returns_confined _ _ _ _ (by decide)
    next alignment =>
    rw [not_or, not_not, not_not, aligned, aligned] at alignment
    cases translated : naClUserToSysAddrRange nap.space dest size with
    | none => exact returns_confined _ _ _ _ (by decide)
    | some destAddr =>
      obtain ⟨-, fits, rfl⟩ := naClUserToSysAddrRange_some translated
      dsimp only
      split
      · exact returns_confined _ _ _ _ (by decide)
      next low =>
      rw [Nat.not_lt] at low
      split
      · exact returns_confined _ _ _ _ (by decide)
      next high =>
      rw [end_text] at high
      split
      · next empty =>
        refine ⟨fun _ => ⟨low, ?_, alignment⟩, (fun a copied => by cases copied),
          (fun a copied => by cases copied)⟩
        rw [empty, Nat.add_zero, Nat.mod_eq_of_lt dest32] at high
        omega
      next nonempty =>
      split
      · by_cases ends : dest + size = 2 ^ 32
        · have wide : nap.space.addrBits = 32 := by
            by_contra narrow
            have : 2 ^ nap.space.addrBits ≤ 2 ^ 31 :=
              Nat.pow_le_pow_right (by decide) (by have := shared.addrBits; omega)
            omega
          apply createRegion_end shared (Nat.pos_of_ne_zero nonempty) low ends wide
          by_contra further
          rw [not_or, not_or] at further
          obtain ⟨far, free, room⟩ := further
          refine stops ⟨by simpa using shm, alignment.1, alignment.2, Nat.pos_of_ne_zero nonempty,
            wide, low, ends, Nat.lt_of_not_le far, ?_, Option.isSome_iff_ne_none.mpr room⟩
          intro r mem a has
          by_contra inside
          refine free ⟨r, mem, a, has, ?_⟩
          change dest + nap.space.memStart ≤ a ∧ a < dest + nap.space.memStart + size
          omega
        · refine createRegion_inside shared (Nat.pos_of_ne_zero nonempty) low ?_ alignment.1
            alignment.2
          rw [Nat.mod_eq_of_lt (by omega)] at high
          omega
      · exact returns_confined _ _ _ _ (by decide)

end Create

theorem zeroBased_inSpace : 0 + 2 ^ 32 < 2 ^ 64 := by decide

/-- A 2 GiB module: `[0xffffffe0, 0x100000000)` is far behind its one page of dynamic text. -/
def farText : NaClApp where
  space := ⟨32, 0, zeroBased_inSpace⟩
  bundleSize := 32
  textShm := true
  dynamicTextStart := 0x90000000
  dynamicTextEnd := 0x90010000
  regions := .empty
  skipValidator := false
  ignoreValidatorResult := false
  dynamicPageBitmap := fun _ => false
  dynamicMapcacheOffset := 0
  dynamicMapcacheSize := 0
  dynamicMapcacheRet := none

theorem farText_shared : farText.Shared where
  bundle := rfl
  addrBits := by decide
  first := by decide
  startAligned := by decide
  endAligned := by decide
  nonempty := by decide
  inside := by decide
  cached := by decide
  inOrder := ⟨fun r mem => (by cases mem), .nil⟩

theorem naClTextDyncodeCreate_confined_iff_farText :
    (naClTextDyncodeCreate ⟨true, true, some 1, true⟩ farText 0x90000000 32).Confined farText
      0x90000000 32 :=
  (naClTextDyncodeCreate_confined_iff farText_shared (by decide) (by decide)).mpr
    (fun reaches => absurd reaches.ends (by decide)) _

/-- The call succeeds, and sets bit 28671 of a bitmap of one bit. -/
theorem farText_escapes :
    (naClTextDyncodeCreate ⟨true, true, some 1, true⟩ farText 0xffffffe0 32).retval = some 0 ∧
      ¬ 0xffffffe0 + 32 ≤ farText.dynamicTextEnd - naclHaltSledSize ∧
      28671 ∈ (naClTextDyncodeCreate ⟨true, true, some 1, true⟩ farText 0xffffffe0 32).bits ∧
      28671 ∈ (naClTextDyncodeCreate ⟨true, true, some 1, false⟩ farText 0xffffffe0 32).bits ∧
      (farText.dynamicTextEnd - farText.dynamicTextStart) / naclMapPagesize = 1 := by
  decide +kernel

end SandboxTEE.DynamicText
