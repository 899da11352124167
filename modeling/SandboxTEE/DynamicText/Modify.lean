import SandboxTEE.DynamicText.CopyInstruction
import SandboxTEE.DynamicText.Create

/-! # Modifying dynamic code (`NaClSysDyncodeModify`)

The bundles around the range are copied, the change is made in the copy, and what it comes to is
validated as a replacement and copied back, through a mapping of the shared memory behind the dynamic
text.  The code is in this shared memory (`shm`, by offset); `user` is what is read at the addresses of the
sandbox: in a page of the dynamic text that has not been made visible a read faults.
-/

namespace SandboxTEE.DynamicText

open SandboxTEE.Runtime
open SandboxTEE.Validator

def naclInstrBlockSize : Nat := 32
def uint32Max : Nat := 2 ^ 32 - 1

/-- What the application is run with: `code_replacement` and the DFA are those of its validator. -/
structure ModifyConfig where
  codeReplacement : Bool
  enableDyncodeSyscalls : Bool
  validatorStubOutMode : Bool
  dfa : Dfa

/-- What a call depends on besides its arguments. -/
structure ModifyEnvironment where
  host : Environment
  /-- Whether `malloc` of the copy succeeds. -/
  codeCopyAllocated : Bool
  /-- Whether the bitmaps of the two runs of the validator can be allocated. -/
  bitmapsAllocated : Bool × Bool
  /-- Which calls of `SerializeAllProcessors` succeed. -/
  serialize : Nat → Bool
  /-- Whether the new code can be read. -/
  sourceReadable : Bool

/-- `retval` is `none` when the process does not survive the call. -/
structure ModifyOutcome where
  retval : Option Int
  shm : Bytes
  nap : NaClApp

/-- The region that contains the range. -/
def regionToModify (regions : List NaClDynamicRegion) (destAddr size : Nat) : Option NaClDynamicRegion :=
  ((naClDynamicRegionFind regions destAddr size).bind (regions[·]?)).filter fun region =>
    ¬(region.start > destAddr ∨ region.stop < destAddr + size ∨ region.isMmap = true)

/-- All pages of the range have been made visible. -/
def NaClApp.visible (nap : NaClApp) (offset size : Nat) : Bool :=
  (List.range' (offset / naclMapPagesize)
    ((offset + size - 1) / naclMapPagesize + 1 - offset / naclMapPagesize)).all nap.dynamicPageBitmap

/-- `MakeDynamicCodePagesVisible` fills the pages with HLTs. -/
def fillPages (pages : List Nat) (shm : Bytes) : Bytes := fun o =>
  if pages.contains (o / naclMapPagesize) then naclHaltOpcode else shm o

section Modify

variable (c : ModifyConfig) (env : ModifyEnvironment)

def naClValidateCodeReplacement (bundleSize guestAddr : Nat) (existing new : Bytes) (size : Nat) :
    Option NaClErrorCode :=
  if c.validatorStubOutMode then some .loadBadFile
  else if guestAddr % bundleSize ≠ 0 ∨ size % bundleSize ≠ 0 then some .loadBadFile
  else (validatorCodeReplacement_x86_64 c.dfa env.bitmapsAllocated.1 existing new size).map naClValidateStatus

/-- `NaClCopyCode`; the shared memory from `shmMapOffset` on is at `mapping`. -/
def naClCopyCode (mapping shmMapOffset mappedAddr : Nat) (new : Bytes) (size : Nat) (shm : Bytes) :
    Option (NaClErrorCode × Bytes) :=
  let s : CopyState := ⟨fun a => shm (a - mapping + shmMapOffset), 0⟩
  (validatorCodeCopy_x86_64 (fun s dst => naClCopyInstruction env.serialize s (mappedAddr + dst)) c.dfa
    env.bitmapsAllocated.2 new size s).map fun (status, s) =>
      (naClValidateStatus status,
        fun o => if shmMapOffset ≤ o then s.mem (o - shmMapOffset + mapping) else shm o)

/-- With the mapping: copy the code. -/
def modifyMapped (nap : NaClApp) (shm : Bytes) (dest size : Nat) (new : Bytes) :
    Mapping × List Nat × NaClApp → ModifyOutcome
  | (.aborted, bits, nap) => ⟨none, fillPages bits shm, nap⟩
  | (.mapped none, bits, nap) => ⟨some (-naClAbiENOMEM), fillPages bits shm, nap⟩
  | (.mapped (some mapping), bits, nap') =>
    let shm := fillPages bits shm
    let shmOffset := (dest + (2 ^ 32 - nap.dynamicTextStart % 2 ^ 32)) % 2 ^ 32
    let shmMapOffset := shmOffset / naclMapPagesize * naclMapPagesize
    let withinPageOffset := shmOffset % naclMapPagesize
    if env.host.touched = false then ⟨none, shm, nap'⟩
    else
      match naClCopyCode c env mapping shmMapOffset (mapping + withinPageOffset) new size shm with
      | none => ⟨none, shm, nap'⟩
      | some (.loadOk, shm) => ⟨some 0, shm, naClTextMapClearCacheIfNeeded env.host nap' dest size⟩
      | some (_, shm) => ⟨some (-naClAbiEINVAL), shm, nap'⟩

/-- Validate the bundles as a replacement, and copy them. -/
def modifyBundles (nap : NaClApp) (shm : Bytes) (dest size : Nat) (existing new : Bytes) : ModifyOutcome :=
  match naClValidateCodeReplacement c env nap.bundleSize dest existing new size with
  | none => ⟨none, shm, nap⟩
  | some validatorResult =>
    if validatorResult ≠ .loadOk ∧ nap.ignoreValidatorResult = false then
      ⟨some (-naClAbiEINVAL), shm, nap⟩
    else
      let range := shmMapRange nap dest size
      modifyMapped c env nap shm dest size new (cachedMapWritableText env.host nap range.1 range.2)

/-- From `NaClDynamicRegionFind` on. -/
def modifyRegion (nap : NaClApp) (user shm : Bytes) (dest destAddr srcAddr size : Nat) : ModifyOutcome :=
  match regionToModify nap.regions.dynamicRegions destAddr size with
  | none => ⟨some (-naClAbiEFAULT), shm, nap⟩
  | some _ =>
    let beginbundle := destAddr / nap.bundleSize * nap.bundleSize
    let endbundle := (destAddr + size - 1 + nap.bundleSize) / nap.bundleSize * nap.bundleSize
    let offset := destAddr % nap.bundleSize
    let bundles := endbundle - beginbundle
    if bundles > naclInstrBlockSize ∧ env.codeCopyAllocated = false then
      ⟨some (-naClAbiENOMEM), shm, nap⟩
    else if nap.visible (beginbundle - nap.space.memStart - nap.dynamicTextStart) bundles = false ∨
        env.sourceReadable = false then
      ⟨none, shm, nap⟩
    else
      let existing := fun i => user (beginbundle + i)
      let codeCopy := memcpy offset (fun i => user (srcAddr + i)) size existing
      if bundles < uint32Max then
        modifyBundles c env nap shm (dest / nap.bundleSize * nap.bundleSize) bundles existing codeCopy
      else ⟨none, shm, nap⟩

/-- `NaClSysDyncodeModify` for `uint32_t` values `dest`, `src` and `size`. -/
def naClSysDyncodeModify (nap : NaClApp) (user shm : Bytes) (dest src size : Nat) : ModifyOutcome :=
  if c.codeReplacement = false then ⟨some (-naClAbiENOSYS), shm, nap⟩
  else if c.enableDyncodeSyscalls = false then ⟨some (-naClAbiENOSYS), shm, nap⟩
  else if nap.textShm = false then ⟨some (-naClAbiEINVAL), shm, nap⟩
  else if size = 0 then ⟨some 0, shm, nap⟩
  else
    match naClUserToSysAddrRange nap.space dest size, naClUserToSysAddrRange nap.space src size with
    | some destAddr, some srcAddr => modifyRegion c env nap user shm dest destAddr srcAddr size
    | _, _ => ⟨some (-naClAbiEFAULT), shm, nap⟩

end Modify

/-! ## Pages that are visible -/

theorem unallocatedBlocks_visible {bitmap : Nat → Bool} (fuel : Nat) {current stop : Nat}
    (visible : ∀ i, current ≤ i → i < stop → bitmap i = true) :
    unallocatedBlocks bitmap fuel current stop = [] := by
  induction fuel generalizing current with
  | zero => rfl
  | succ fuel ih =>
    rw [unallocatedBlocks]
    split
    · next more =>
      have here : unallocatedEnd bitmap (stop - current) current stop = current := by
        cases stop - current with
        | zero => rfl
        | succ n =>
          rw [unallocatedEnd, if_neg]
          rintro ⟨-, clear⟩
          rw [visible current (Nat.le_refl _) more] at clear
          cases clear
      simp only [here, Nat.lt_irrefl, if_false]
      exact ih fun i low high => visible i (Nat.le_of_succ_le low) high
    · rfl

/-- No page is made visible, and the process does not abort, where all are visible. -/
theorem cachedMapWritableText_visible {env : Environment} {nap : NaClApp} {offset size : Nat}
    (visible : ∀ i, offset / naclMapPagesize ≤ i → i < (offset + size) % 2 ^ 32 / naclMapPagesize →
      nap.dynamicPageBitmap i = true) : (cachedMapWritableText env nap offset size).2.1 = [] ∧
      (cachedMapWritableText env nap offset size).1 ≠ .aborted := by
  have cleared : nap.clearMapcache.dynamicPageBitmap = nap.dynamicPageBitmap := by
    unfold NaClApp.clearMapcache
    split <;> rfl
  unfold cachedMapWritableText
  split
  · split
    · rw [mapWritableText, cleared]
      cases naClDescImcShmMap env.mapped size offset with
      | none => exact ⟨rfl, by simp⟩
      | some mapping =>
        dsimp only
        rw [unallocatedBlocks_visible _ visible]
        exact ⟨rfl, by simp⟩
    · exact ⟨rfl, by simp⟩
  · exact ⟨rfl, by simp⟩

theorem fillPages_nil (shm : Bytes) : fillPages [] shm = shm := rfl

/-! ## The copy of the bundles -/

section Bundles

variable {c : ModifyConfig} {env : ModifyEnvironment} {nap : NaClApp} {shm existing new : Bytes}
  {dest size : Nat}

/-- The bundles at an offset have become the new code, but HLTs, which were there, for what the CPU lacks. -/
structure Rewritten (dfa : Dfa) (existing new : Bytes) (size offset : Nat) (shm shm' : Bytes) : Prop where
  code : ∀ o, shm' o = if offset ≤ o ∧ o < offset + size then
    if LacksAt dfa new size (o - offset) then naclHaltOpcode else new (o - offset) else shm o
  halted : ∀ i, LacksAt dfa new size i → existing i = naclHaltOpcode

theorem naClValidateStatus_loadOk {status : NaClValidationStatus}
    (ok : naClValidateStatus status = .loadOk) : status = .succeeded := by
  cases status with
  | succeeded => rfl
  | _ => cases ok

variable (accepted : validateChunkAMD64 (processCodeReplacementInstruction existing new) c.dfa
  env.bitmapsAllocated.1 new size callUserCallbackOnEachInstruction = some true)

include accepted

variable {mapping shmMapOffset : Nat} {shm' : Bytes}

theorem naClCopyCode_rewritten {withinPageOffset : Nat}
    (copied : naClCopyCode c env mapping shmMapOffset (mapping + withinPageOffset) new size shm =
      some (.loadOk, shm')) :
    Rewritten c.dfa existing new size (shmMapOffset + withinPageOffset) shm shm' := by
  obtain ⟨⟨status, s'⟩, run, outcome⟩ := Option.map_eq_some_iff.mp copied
  obtain ⟨ok, rfl⟩ := Prod.mk.inj outcome
  rw [naClValidateStatus_loadOk ok] at run
  refine ⟨fun o => ?_, fun i => halted_of_lacksAt accepted⟩
  by_cases mapped : shmMapOffset ≤ o
  · have address : mapping + withinPageOffset ≤ o - shmMapOffset + mapping ∧
        o - shmMapOffset + mapping < mapping + withinPageOffset + size ↔
        shmMapOffset + withinPageOffset ≤ o ∧ o < shmMapOffset + withinPageOffset + size := by omega
    have index : o - shmMapOffset + mapping - (mapping + withinPageOffset) =
        o - (shmMapOffset + withinPageOffset) := by omega
    have there : o - shmMapOffset + mapping - mapping + shmMapOffset = o := by omega
    rw [if_pos mapped, validatorCodeCopy_copied accepted
      (naClCopyInstruction_copies env.serialize (mapping + withinPageOffset)) run, index]
    simp only [address, there]
  · rw [if_neg mapped, if_neg fun range => mapped (Nat.le_trans (Nat.le_add_right ..) range.1)]

theorem naClCopyCode_total (always : ∀ n, env.serialize n = true) {mappedAddr : Nat}
    {status : NaClErrorCode}
    (copied : naClCopyCode c env mapping shmMapOffset mappedAddr new size shm = some (status, shm')) :
    status = .loadOk ∨ shm' = shm := by
  obtain ⟨⟨status, s'⟩, run, outcome⟩ := Option.map_eq_some_iff.mp copied
  obtain ⟨rfl, rfl⟩ := Prod.mk.inj outcome
  rcases validatorCodeCopy_total accepted (fun s dst src n => naClCopyInstruction_total always s _ src n)
    run with ok | same
  · left
    rw [ok]
    rfl
  · right
    funext o
    split
    · next mapped =>
      rw [same]
      dsimp only
      rw [Nat.add_sub_cancel, Nat.sub_add_cancel mapped]
    · rfl

end Bundles

/-! ## The outcome -/

/-- On success the code is as it is to be; on failure it is as it was, unless the processors could not be
    serialized. -/
structure ModifyOutcome.Behaves (env : ModifyEnvironment) (shm : Bytes) (done : Bytes → Prop)
    (o : ModifyOutcome) : Prop where
  success : o.retval = some 0 → done o.shm
  failure : (∀ n, env.serialize n = true) → ∀ retval, o.retval = some retval → retval < 0 → o.shm = shm

section Outcome

variable {c : ModifyConfig} {env : ModifyEnvironment} {nap : NaClApp} {user shm existing new : Bytes}
  {dest size : Nat} {done : Bytes → Prop}

theorem behaves_error (nap : NaClApp) {errno : Int} (negative : errno ≠ 0) :
    ModifyOutcome.Behaves env shm done ⟨some errno, shm, nap⟩ :=
  ⟨fun zero => absurd (Option.some.inj zero) negative, fun _ _ _ _ => rfl⟩

theorem behaves_dead (nap : NaClApp) (shm' : Bytes) : ModifyOutcome.Behaves env shm done ⟨none, shm', nap⟩ :=
  ⟨fun zero => (by cases zero), fun _ _ dead => (by cases dead)⟩

theorem ModifyOutcome.Behaves.mono {done' : Bytes → Prop} {o : ModifyOutcome} (behaves : o.Behaves env shm done)
    (weaken : ∀ shm', done shm' → done' shm') : o.Behaves env shm done' :=
  ⟨fun zero => weaken _ (behaves.success zero), behaves.failure⟩

theorem modifyMapped_behaves (accepted : validateChunkAMD64 (processCodeReplacementInstruction existing new)
      c.dfa env.bitmapsAllocated.1 new size callUserCallbackOnEachInstruction = some true)
    {result : Mapping × List Nat × NaClApp} (visible : result.2.1 = []) :
    (modifyMapped c env nap shm dest size new result).Behaves env shm
      (Rewritten c.dfa existing new size ((dest + (2 ^ 32 - nap.dynamicTextStart % 2 ^ 32)) % 2 ^ 32) shm) := by
  obtain ⟨mapping, bits, nap'⟩ := result
  cases visible
  cases mapping with
  | aborted => exact behaves_dead _ _
  | mapped ret =>
    cases ret with
    | none => exact behaves_error _ (by decide)
    | some mapping =>
      generalize offset_eq : (dest + (2 ^ 32 - nap.dynamicTextStart % 2 ^ 32)) % 2 ^ 32 = offset
      have start : offset / naclMapPagesize * naclMapPagesize + offset % naclMapPagesize = offset :=
        Nat.div_add_mod' ..
      simp only [modifyMapped, fillPages_nil, offset_eq]
      split
      · exact behaves_dead _ _
      cases copied : naClCopyCode c env mapping (offset / naclMapPagesize * naclMapPagesize)
        (mapping + offset % naclMapPagesize) new size shm with
      | none => exact behaves_dead _ _
      | some outcome =>
        obtain ⟨status, shm'⟩ := outcome
        have failed : status ≠ .loadOk → ModifyOutcome.Behaves env shm
            (Rewritten c.dfa existing new size offset shm) ⟨some (-naClAbiEINVAL), shm', nap'⟩ := fun bad =>
          ⟨fun zero => (by cases zero), fun always _ _ _ =>
            (naClCopyCode_total accepted always copied).resolve_left bad⟩
        cases status with
        | loadOk =>
          have rewritten := naClCopyCode_rewritten accepted copied
          rw [start] at rewritten
          refine ⟨fun _ => rewritten, fun _ retval returned negative => ?_⟩
          cases returned
          exact absurd negative (by decide)
        | loadBadFile => exact failed (by decide)
        | loadValidationFailed => exact failed (by decide)

theorem naClValidateCodeReplacement_accepted {bundleSize : Nat}
    (ok : naClValidateCodeReplacement c env bundleSize dest existing new size = some .loadOk) :
    validateChunkAMD64 (processCodeReplacementInstruction existing new) c.dfa env.bitmapsAllocated.1 new size
      callUserCallbackOnEachInstruction = some true := by
  unfold naClValidateCodeReplacement at ok
  split at ok
  · cases ok
  split at ok
  · cases ok
  obtain ⟨status, replaced, succeeded⟩ := Option.map_eq_some_iff.mp ok
  rw [naClValidateStatus_loadOk succeeded] at replaced
  exact validatorCodeReplacement_accepted replaced

theorem modifyBundles_behaves (validated : nap.ignoreValidatorResult = false)
    (visible : (cachedMapWritableText env.host nap (shmMapRange nap dest size).1
      (shmMapRange nap dest size).2).2.1 = []) :
    (modifyBundles c env nap shm dest size existing new).Behaves env shm
      (Rewritten c.dfa existing new size ((dest + (2 ^ 32 - nap.dynamicTextStart % 2 ^ 32)) % 2 ^ 32) shm) := by
  unfold modifyBundles
  cases result : naClValidateCodeReplacement c env nap.bundleSize dest existing new size with
  | none => exact behaves_dead _ _
  | some validatorResult =>
    dsimp only
    split
    · exact behaves_error _ (by decide)
    · next ok =>
      rw [not_and] at ok
      have loadOk : validatorResult = .loadOk := by
        by_contra bad
        exact ok bad validated
      rw [loadOk] at result
      exact modifyMapped_behaves (naClValidateCodeReplacement_accepted result) visible

end Outcome

/-! ## The range -/

/-- The regions that do not come from files are bundles of the dynamic text. -/
structure NaClApp.Bundled (nap : NaClApp) : Prop where
  memStart : naclMapPagesize ∣ nap.space.memStart
  region : ∀ r ∈ nap.regions.dynamicRegions, r.isMmap = false →
    nap.dynamicTextStart + nap.space.memStart ≤ r.start ∧ 32 ∣ r.start ∧ 32 ∣ r.size

/-- What is read in them, where the page has been made visible, is the shared memory. -/
structure NaClApp.CodeView (nap : NaClApp) (user shm : Bytes) : Prop extends nap.Bundled where
  read : ∀ r ∈ nap.regions.dynamicRegions, r.isMmap = false → ∀ o,
    r.Has (o + nap.dynamicTextStart + nap.space.memStart) →
    nap.dynamicPageBitmap (o / naclMapPagesize) = true →
    user (o + nap.dynamicTextStart + nap.space.memStart) = shm o

section Bundled

variable {env : Environment} {nap : NaClApp} {dest size : Nat}

theorem NaClApp.Bundled.clearMapcache (bundled : nap.Bundled) : nap.clearMapcache.Bundled := by
  unfold NaClApp.clearMapcache
  split <;> exact ⟨bundled.memStart, bundled.region⟩

theorem mapWritableText_bundled (bundled : nap.Bundled) (offset size : Nat) :
    (mapWritableText env nap offset size).2.2.Bundled := by
  rw [mapWritableText]
  generalize (offset + size) % 2 ^ 32 / naclMapPagesize = stop
  cases naClDescImcShmMap env.mapped size offset with
  | none => exact bundled
  | some mapping =>
    dsimp only
    split <;> exact ⟨bundled.memStart, bundled.region⟩

theorem cachedMapWritableText_bundled (bundled : nap.Bundled) (offset size : Nat) :
    (cachedMapWritableText env nap offset size).2.2.Bundled := by
  unfold cachedMapWritableText
  split
  · split
    · exact mapWritableText_bundled bundled.clearMapcache offset size
    · exact bundled.clearMapcache
  · exact bundled

theorem Outcome.ofMapping_bundled {result : Mapping × List Nat × NaClApp} (bundled : result.2.2.Bundled)
    (shmOffset : Nat) : (Outcome.ofMapping env dest size shmOffset result).nap.Bundled := by
  obtain ⟨mapping, bits, after⟩ := result
  cases mapping with
  | aborted => exact bundled
  | mapped ret =>
    cases ret with
    | none => exact bundled
    | some ret =>
      rw [Outcome.ofMapping]
      split
      · unfold naClTextMapClearCacheIfNeeded
        split
        · exact cachedMapWritableText_bundled bundled 0 0
        · exact bundled
      · exact bundled

theorem naClTextDyncodeCreate_bundled (shared : nap.Shared) (bundled : nap.Bundled) :
    (naClTextDyncodeCreate env nap dest size).nap.Bundled := by
  rcases naClTextDyncodeCreate_cases env nap dest size with ⟨-, retval, same⟩ | ⟨admitted, same⟩
  · rw [same]
    exact bundled
  rw [same]
  cases created : naClDynamicRegionCreate env.reallocated (dest + nap.space.memStart) size false
    nap.regions with
  | none =>
    rw [createRegion_aborted created]
    exact bundled
  | some outcome =>
    obtain ⟨ok, regions⟩ := outcome
    obtain ⟨-, -, inUse, inserted⟩ := @naClDynamicRegionCreate_spec _ _ shared.inOrder _ _ _
      (nap.sysRange dest size admitted.nonempty admitted.fits) created
    cases ok with
    | false =>
      rw [createRegion_inUse created]
      exact ⟨bundled.memStart, inUse rfl ▸ bundled.region⟩
    | true =>
      obtain ⟨before, after, split, regions_eq⟩ := inserted rfl
      have changed : { nap with regions := regions }.Bundled := by
        refine ⟨bundled.memStart, fun r mem notMmap => ?_⟩
        have old := bundled.region r
        rw [split, List.mem_append] at old
        rw [regions_eq] at mem
        rcases List.mem_append.mp mem with front | back
        · exact old (.inl front) notMmap
        rcases List.mem_cons.mp back with rfl | behind
        · have alignedDest := admitted.alignedDest
          have alignedSize := admitted.alignedSize
          have mask (n : Nat) : n &&& (32 - 1) = n % 32 := Nat.and_two_pow_sub_one_eq_mod n 5
          rw [shared.bundle, mask] at alignedDest alignedSize
          obtain ⟨m, memStart⟩ := bundled.memStart
          have low := admitted.low
          change _ ≤ dest + nap.space.memStart ∧ 32 ∣ dest + nap.space.memStart ∧ 32 ∣ size
          simp only [naclMapPagesize] at memStart ⊢
          omega
        · exact old (.inr behind) notMmap
      rw [createRegion_created created]
      exact Outcome.ofMapping_bundled (cachedMapWritableText_bundled changed ..) _

end Bundled

/-- The region that `NaClSysDyncodeModify` changes: from no file, with the whole range in it. -/
structure NaClDynamicRegion.Modifiable (r : NaClDynamicRegion) (regions : List NaClDynamicRegion)
    (destAddr size : Nat) : Prop where
  member : r ∈ regions
  notMmap : r.isMmap = false
  start_le : r.start ≤ destAddr
  le_stop : destAddr + size ≤ r.start + r.size

variable {regions : List NaClDynamicRegion} {r : NaClDynamicRegion}

theorem regionToModify_some (inOrder : InOrder regions) {destAddr size : Nat}
    (found : regionToModify regions destAddr size = some r) :
    r.Modifiable regions destAddr size := by
  obtain ⟨here, range⟩ := Option.filter_eq_some_iff.mp found
  obtain ⟨i, -, here⟩ := Option.bind_eq_some_iff.mp here
  have member := List.mem_of_getElem? here
  simp only [decide_eq_true_eq, not_or, Nat.not_lt, Bool.not_eq_true,
    (inOrder.proper r member).stop_eq] at range
  exact ⟨member, range.2.2, range.1, range.2.1⟩

/-- The size of the bundles around a range. -/
def bundlesSize (dest size : Nat) : Nat := (dest % 32 + size + 31) / 32 * 32

/-- The bundles around a range in a region of bundles. -/
structure Widened (r : NaClDynamicRegion) (memStart dest size : Nat) : Prop where
  begin_eq : (dest + memStart) / 32 * 32 = dest / 32 * 32 + memStart
  size_eq : (dest + memStart + size - 1 + 32) / 32 * 32 - (dest + memStart) / 32 * 32 =
    bundlesSize dest size
  offset_eq : (dest + memStart) % 32 = dest % 32
  low : r.start ≤ dest / 32 * 32 + memStart
  high : dest / 32 * 32 + memStart + bundlesSize dest size ≤ r.start + r.size
  fits : dest / 32 * 32 + bundlesSize dest size ≤ 2 ^ 32

theorem NaClDynamicRegion.Modifiable.widened {memStart dest size : Nat}
    (target : r.Modifiable regions (dest + memStart) size) (nonempty : 0 < size)
    (fits : dest + size ≤ 2 ^ 32) (memAligned : naclMapPagesize ∣ memStart)
    (bundles : 32 ∣ r.start ∧ 32 ∣ r.size) : Widened r memStart dest size := by
  have low := target.start_le
  have high := target.le_stop
  obtain ⟨m, rfl⟩ := memAligned
  obtain ⟨⟨b, start⟩, ⟨n, stop⟩⟩ := bundles
  have count : bundlesSize dest size = (dest % 32 + size + 31) / 32 * 32 := rfl
  simp only [naclMapPagesize] at *
  constructor <;> omega

section Range

variable {nap : NaClApp} {user shm : Bytes} {dest size : Nat}

/-- The pages of a range, each with a byte of it. -/
theorem visible_page (visible : nap.visible dest size = true) {page : Nat}
    (first : dest / naclMapPagesize ≤ page) (last : page * naclMapPagesize < dest + size) :
    nap.dynamicPageBitmap page = true := by
  apply List.all_eq_true.mp visible
  rw [List.mem_range'_1]
  simp only [naclMapPagesize] at *
  omega

theorem shmMapRange_visible (shared : nap.Shared) (low : nap.dynamicTextStart ≤ dest)
    (fits : dest + size ≤ 2 ^ 32) (nonempty : 0 < size)
    (visible : nap.visible (dest - nap.dynamicTextStart) size = true) (page : Nat)
    (first : (shmMapRange nap dest size).1 / naclMapPagesize ≤ page)
    (last : page < ((shmMapRange nap dest size).1 + (shmMapRange nap dest size).2) % 2 ^ 32 /
      naclMapPagesize) : nap.dynamicPageBitmap page = true := by
  obtain ⟨offset, -, stop⟩ := shmMapRange_eq shared low fits nonempty
  have text := shared.first
  rw [stop] at last
  simp only [shmMapRange, offset] at first
  apply visible_page visible <;> simp only [naclMapPagesize] at * <;> omega

theorem NaClApp.CodeView.user_eq (view : nap.CodeView user shm) {r : NaClDynamicRegion}
    (member : r ∈ nap.regions.dynamicRegions) (notMmap : r.isMmap = false)
    (low : r.start ≤ dest + nap.space.memStart) (high : dest + nap.space.memStart + size ≤ r.start + r.size)
    (visible : nap.visible (dest - nap.dynamicTextStart) size = true) {i : Nat} (inside : i < size) :
    user (dest + nap.space.memStart + i) = shm (dest - nap.dynamicTextStart + i) := by
  have text := (view.region r member notMmap).1
  have start : nap.dynamicTextStart ≤ dest := by omega
  have address : dest + nap.space.memStart + i =
      dest - nap.dynamicTextStart + i + nap.dynamicTextStart + nap.space.memStart := by omega
  rw [address]
  apply view.read r member notMmap
  · constructor <;> omega
  · apply visible_page visible
    · exact Nat.div_le_div_right (Nat.le_add_right ..)
    · exact Nat.lt_of_le_of_lt (Nat.div_mul_le_self ..) (Nat.add_lt_add_left inside _)

end Range

/-! ## `NaClSysDyncodeModify` -/

/-- The bundles around the range, as they are read. -/
def existingCode (nap : NaClApp) (user : Bytes) (dest : Nat) : Bytes := fun i =>
  user (dest / 32 * 32 + nap.space.memStart + i)

/-- The bundles with the change made. -/
def changedCode (nap : NaClApp) (user : Bytes) (dest src size : Nat) : Bytes :=
  memcpy (dest % 32) (fun i => user (src + nap.space.memStart + i)) size (existingCode nap user dest)

theorem changedCode_inside (nap : NaClApp) (user : Bytes) (dest src : Nat) {size i : Nat} (inside : i < size) :
    changedCode nap user dest src size (dest % 32 + i) = user (src + nap.space.memStart + i) := by
  rw [changedCode, memcpy, if_pos ⟨Nat.le_add_right .., Nat.add_lt_add_left inside _⟩, Nat.add_sub_cancel_left]

/-- The range, in one region that is from no file, has become what is at `src`, but for instructions that
    the CPU lacks: they were HLTs and stay so.  Nothing else has changed. -/
structure Modified (dfa : Dfa) (nap : NaClApp) (user shm : Bytes) (dest src size : Nat) (shm' : Bytes) :
    Prop where
  region : ∃ r : NaClDynamicRegion,
    r.Modifiable nap.regions.dynamicRegions (dest + nap.space.memStart) size
  inside : ∀ i < size, shm' (dest - nap.dynamicTextStart + i) =
    if LacksAt dfa (changedCode nap user dest src size) (bundlesSize dest size) (dest % 32 + i) then
      naclHaltOpcode
    else user (src + nap.space.memStart + i)
  halted : ∀ i < size,
    LacksAt dfa (changedCode nap user dest src size) (bundlesSize dest size) (dest % 32 + i) →
    shm (dest - nap.dynamicTextStart + i) = naclHaltOpcode
  outside : ∀ o, o < dest - nap.dynamicTextStart ∨ dest - nap.dynamicTextStart + size ≤ o → shm' o = shm o

section Modified

variable {c : ModifyConfig} {env : ModifyEnvironment} {nap : NaClApp} {user shm : Bytes}
  {dest src size : Nat}

/-- What is left of the bundles when they are rewritten is the change. -/
theorem Rewritten.modified {shm' : Bytes} {r : NaClDynamicRegion}
    (target : r.Modifiable nap.regions.dynamicRegions (dest + nap.space.memStart) size)
    (low : nap.dynamicTextStart ≤ dest / 32 * 32) (existing : ∀ i < bundlesSize dest size,
      existingCode nap user dest i = shm (dest / 32 * 32 - nap.dynamicTextStart + i))
    (rewritten : Rewritten c.dfa (existingCode nap user dest) (changedCode nap user dest src size)
      (bundlesSize dest size) (dest / 32 * 32 - nap.dynamicTextStart) shm shm') :
    Modified c.dfa nap user shm dest src size shm' := by
  have count : bundlesSize dest size = (dest % 32 + size + 31) / 32 * 32 := rfl
  refine ⟨⟨r, target⟩, fun i inside => ?_, fun i inside lacks => ?_, fun o outside => ?_⟩
  · have index : dest - nap.dynamicTextStart + i - (dest / 32 * 32 - nap.dynamicTextStart) =
        dest % 32 + i := by omega
    rw [rewritten.code, if_pos (by omega), index, changedCode_inside nap user dest src inside]
  · have address : dest - nap.dynamicTextStart + i =
        dest / 32 * 32 - nap.dynamicTextStart + (dest % 32 + i) := by omega
    rw [address, ← existing _ (by omega)]
    exact rewritten.halted _ lacks
  · rw [rewritten.code]
    split
    · next within =>
      have kept := existing (o - (dest / 32 * 32 - nap.dynamicTextStart)) (by omega)
      rw [Nat.add_sub_cancel' within.1] at kept
      split
      · next lacks => rw [← kept, rewritten.halted _ lacks]
      · rw [← kept, changedCode, memcpy, if_neg (by omega)]
    · rfl

variable (shared : nap.Shared) (view : nap.CodeView user shm) (validated : nap.ignoreValidatorResult = false)
  (nonempty : 0 < size)

include shared view validated nonempty

theorem modifyRegion_behaves (fits : dest + size ≤ 2 ^ 32) :
    (modifyRegion c env nap user shm dest (dest + nap.space.memStart) (src + nap.space.memStart) size).Behaves
      env shm (Modified c.dfa nap user shm dest src size) := by
  unfold modifyRegion
  cases found : regionToModify nap.regions.dynamicRegions (dest + nap.space.memStart) size with
  | none => exact behaves_error _ (by decide)
  | some r =>
    have target := regionToModify_some shared.inOrder found
    obtain ⟨start, bundles⟩ := view.region r target.member target.notMmap
    have wide := target.widened nonempty fits view.memStart bundles
    have low : nap.dynamicTextStart ≤ dest / 32 * 32 := by
      have := wide.low
      omega
    have positive : 0 < bundlesSize dest size := by
      have count : bundlesSize dest size = (dest % 32 + size + 31) / 32 * 32 := rfl
      omega
    dsimp only
    rw [shared.bundle, wide.size_eq, wide.begin_eq, wide.offset_eq, Nat.add_sub_cancel]
    split
    · exact behaves_error _ (by decide)
    split
    · exact behaves_dead _ _
    next readable =>
    rw [not_or, Bool.not_eq_false] at readable
    split
    · have visible := shmMapRange_visible shared low wide.fits positive readable.1
      refine (modifyBundles_behaves validated (cachedMapWritableText_visible visible).1).mono
        fun shm' rewritten => ?_
      rw [(shmMapRange_eq shared low wide.fits positive).1] at rewritten
      exact rewritten.modified target low fun i inside =>
        view.user_eq target.member target.notMmap wide.low wide.high readable.1 inside
    · exact behaves_dead _ _

/-- Whatever the validator, the host and the serialization do, a call that succeeds has made the change in a
    region that is from no file, and one that fails has changed nothing if all serializations succeed. -/
theorem naClSysDyncodeModify_modifies : (naClSysDyncodeModify c env nap user shm dest src size).Behaves env shm
    (Modified c.dfa nap user shm dest src size) := by
  unfold naClSysDyncodeModify
  split
  · exact behaves_error _ (by decide)
  split
  · exact behaves_error _ (by decide)
  split
  · exact behaves_error _ (by decide)
  rw [if_neg nonempty.ne']
  split
  · next destAddr srcAddr translated source =>
    obtain ⟨-, fits, rfl⟩ := naClUserToSysAddrRange_some translated
    obtain ⟨-, -, rfl⟩ := naClUserToSysAddrRange_some source
    have bits : 2 ^ nap.space.addrBits ≤ 2 ^ 32 := Nat.pow_le_pow_right (by decide) shared.addrBits
    exact modifyRegion_behaves shared view validated nonempty (Nat.le_trans fits bits)
  · exact behaves_error _ (by decide)

end Modified

/-! ## Runs -/

section Runs

variable {c : ModifyConfig} {env : ModifyEnvironment} {nap : NaClApp} (keep : NaClApp → Prop)
  (mapped : ∀ nap offset size, keep nap → keep (cachedMapWritableText env.host nap offset size).2.2)
  (kept : keep nap)

include mapped kept

theorem modifyMapped_keeps (before : NaClApp) (shm : Bytes) (dest size : Nat) (new : Bytes)
    (mapping : Mapping) (bits : List Nat) :
    keep (modifyMapped c env before shm dest size new (mapping, bits, nap)).nap := by
  cases mapping with
  | aborted => exact kept
  | mapped ret =>
    cases ret with
    | none => exact kept
    | some ret =>
      simp only [modifyMapped]
      -- Only with the copy made may the cached mapping be given up.
      split
      · exact kept
      · split
        · exact kept
        · unfold naClTextMapClearCacheIfNeeded
          split
          · exact mapped _ _ _ kept
          · exact kept
        · exact kept

/-- A call changes no more of the sandbox than a mapping of the text does. -/
theorem naClSysDyncodeModify_keeps (user shm : Bytes) (dest src size : Nat) :
    keep (naClSysDyncodeModify c env nap user shm dest src size).nap := by
  simp only [naClSysDyncodeModify, modifyRegion, modifyBundles]
  repeat' split
  all_goals first | exact kept | exact modifyMapped_keeps keep mapped (mapped _ _ _ kept) ..

end Runs

/-- A call under the mutex `dynamic_load_mutex`. -/
inductive DyncodeCall where
  | naClTextDyncodeCreate (env : Environment) (dest size : Nat)
  | naClSysDyncodeModify (c : ModifyConfig) (env : ModifyEnvironment) (user shm : Bytes)
    (dest src size : Nat)

def NaClApp.run (nap : NaClApp) : DyncodeCall → NaClApp
  | .naClTextDyncodeCreate env dest size => (DynamicText.naClTextDyncodeCreate env nap dest size).nap
  | .naClSysDyncodeModify c env user shm dest src size =>
    (DynamicText.naClSysDyncodeModify c env nap user shm dest src size).nap

section

variable {nap : NaClApp} (shared : nap.Shared) (bundled : nap.Bundled)

include shared bundled

theorem run_keeps (call : DyncodeCall) : (nap.run call).Shared ∧ (nap.run call).Bundled := by
  cases call with
  | naClTextDyncodeCreate env dest size =>
    exact ⟨naClTextDyncodeCreate_shared shared, naClTextDyncodeCreate_bundled shared bundled⟩
  | naClSysDyncodeModify c env user shm dest src size =>
    constructor
    · exact naClSysDyncodeModify_keeps NaClApp.Shared
        (fun _ _ _ kept => cachedMapWritableText_shared kept _ _) shared ..
    · exact naClSysDyncodeModify_keeps NaClApp.Bundled
        (fun _ _ _ kept => cachedMapWritableText_bundled kept _ _) bundled ..

/-- Whatever the arguments, the validator and the host are, the regions stay in order and apart,
    and those that are from no file stay bundles of the dynamic text. -/
theorem dyncodeCalls_keep (calls : List DyncodeCall) :
    (calls.foldl NaClApp.run nap).Shared ∧ (calls.foldl NaClApp.run nap).Bundled := by
  induction calls generalizing nap with
  | nil => exact ⟨shared, bundled⟩
  | cons call calls ih =>
    obtain ⟨shared, bundled⟩ := run_keeps shared bundled call
    exact ih shared bundled

end

/-! ## A patch across a word -/

theorem four_bytes : 0 < 4 := by decide

/-- A `mov` of five bytes behind four bytes, which may get another immediate. -/
def patchDfa : Dfa := fun _ start stop =>
  if total : stop - start = kBundleSize then
    .accept [.single ⟨4, four_bytes, [.process0Operands]⟩,
      .single ⟨5, by decide, [.collectInfo (modifiableInstruction ||| 4), .process0Operands]⟩,
      .single ⟨8, by decide, [.process0Operands]⟩, .single ⟨15, by decide, [.process0Operands]⟩]
      (by rw [total]; rfl)
  else .error [] [] 0 (nothing_within start stop)

def patchConfig : ModifyConfig := ⟨true, true, false, patchDfa⟩

def patchEnvironment (serialize : Bool) : ModifyEnvironment :=
  ⟨⟨true, true, some 0x7f0000000000, true⟩, true, (true, true), fun _ => serialize, true⟩

/-- One region, whose deletion has been requested. -/
def patchText : NaClApp where
  space := ⟨32, 0, zeroBased_inSpace⟩
  bundleSize := 32
  textShm := true
  dynamicTextStart := 0x20000
  dynamicTextEnd := 0x30000
  regions := ⟨[⟨0x20000, 32, 1, false⟩], 32⟩
  skipValidator := false
  ignoreValidatorResult := false
  dynamicPageBitmap := fun _ => true
  dynamicMapcacheOffset := 0
  dynamicMapcacheSize := 0
  dynamicMapcacheRet := none

def patchShm : Bytes := fun o => if o = 4 then 0xb8 else 0x90

def patchUser : Bytes := fun a => if 0x20000 ≤ a ∧ a < 0x30000 then patchShm (a - 0x20000) else 0x11

theorem patchText_shared : patchText.Shared where
  bundle := rfl
  addrBits := by decide
  first := by decide
  startAligned := by decide
  endAligned := by decide
  nonempty := by decide
  inside := by decide
  cached := by decide
  inOrder := ⟨fun r mem => List.mem_singleton.mp mem ▸ ⟨by decide, by decide⟩, List.pairwise_singleton ..⟩

theorem patchText_codeView : patchText.CodeView patchUser patchShm where
  memStart := by decide
  region := by decide
  read := fun r mem _ o has _ => by
    obtain rfl := List.mem_singleton.mp mem
    change 0x20000 ≤ o + 0x20000 ∧ o + 0x20000 < 0x20000 + 32 at has
    change patchUser (o + 0x20000) = patchShm o
    rw [patchUser, if_pos (by omega), Nat.add_sub_cancel]

/-- A second region, and the change of the first one. -/
def patchCalls : List DyncodeCall :=
  [.naClTextDyncodeCreate (patchEnvironment true).host 0x20040 32,
    .naClSysDyncodeModify patchConfig (patchEnvironment true) patchUser patchShm 0x20007 0x10000 2]

theorem dyncodeCalls_keep_patch : (patchCalls.foldl NaClApp.run patchText).Shared ∧
    (patchCalls.foldl NaClApp.run patchText).Bundled :=
  dyncodeCalls_keep patchText_shared patchText_codeView.toBundled _

/-- The last two bytes of the immediate are changed. -/
theorem naClSysDyncodeModify_modifies_patch : Modified patchDfa patchText patchUser patchShm 0x20007 0x10000 2
    (naClSysDyncodeModify patchConfig (patchEnvironment true) patchText patchUser patchShm 0x20007 0x10000
      2).shm :=
  (@naClSysDyncodeModify_modifies patchConfig (patchEnvironment true) _ _ _ 0x20007 0x10000 2
    patchText_shared patchText_codeView rfl (by decide)).success (by decide +kernel)

/-- The region need not be one that stays, and when the processors cannot be serialized a HLT is left in
    front of the instruction. -/
theorem naClSysDyncodeModify_leaves_halt :
    (¬ ∀ (c : ModifyConfig) (env : ModifyEnvironment) (nap : NaClApp) (user shm : Bytes) (dest src size : Nat),
      nap.Shared → nap.CodeView user shm → nap.ignoreValidatorResult = false → 0 < size →
      (naClSysDyncodeModify c env nap user shm dest src size).retval = some 0 →
      ∃ r : NaClDynamicRegion, r.Modifiable nap.regions.dynamicRegions (dest + nap.space.memStart) size ∧
        r.deleteGeneration < 0) ∧
    ¬ ∀ (c : ModifyConfig) (env : ModifyEnvironment) (nap : NaClApp) (user shm : Bytes) (dest src size : Nat),
      nap.Shared → nap.CodeView user shm → nap.ignoreValidatorResult = false → 0 < size →
      ∀ retval, (naClSysDyncodeModify c env nap user shm dest src size).retval = some retval → retval < 0 →
      (naClSysDyncodeModify c env nap user shm dest src size).shm = shm := by
  constructor
  · intro live
    obtain ⟨r, target, unmarked⟩ := live patchConfig (patchEnvironment true) patchText patchUser patchShm
      0x20007 0x10000 2 patchText_shared patchText_codeView rfl (by decide) (by decide +kernel)
    obtain rfl := List.mem_singleton.mp target.member
    exact absurd unmarked (by decide)
  · intro kept
    have same := kept patchConfig (patchEnvironment false) patchText patchUser patchShm 0x20007 0x10000 2
      patchText_shared patchText_codeView rfl (by decide) (-22) (by decide +kernel) (by decide)
    have halted : (naClSysDyncodeModify patchConfig (patchEnvironment false) patchText patchUser patchShm
        0x20007 0x10000 2).shm 4 = naclHaltOpcode := by decide +kernel
    rw [same] at halted
    exact absurd halted (by decide)

end SandboxTEE.DynamicText
