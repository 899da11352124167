import SandboxTEE.IntervalMultiset.RangeTree
import SandboxTEE.Runtime.App
import SandboxTEE.Vmmap.Protect

/-! # The memory system calls of the enclave (`sys_memory.c`, `NACL_SGX`)

`brk`, `mmap`, `munmap` and `mprotect` check their arguments, ask the race detector
whether an I/O operation uses the memory, and then change the memory map.  Inside an
enclave no page protection changes: `munmap` fills the range with zeros, the mapping of
a descriptor leaves the memory as it is, `mprotect` only records.

Addresses are user addresses, `uintptr_t` and `size_t` are natural numbers (no sum of
the source wraps at 64 bits).  What a call learns from a descriptor is an argument of
it.  `Effect` records what happens to the memory itself.
-/

namespace SandboxTEE.Memory

open SandboxTEE.Vmmap SandboxTEE.Runtime
open SandboxTEE.IntervalMultiset (Tree naClIntervalRangeTreeOverlapsWith)

/-- The calls of `NaClLog` at `LOG_FATAL`, which is documented to abort the program. -/
inductive Fatal where
  /-- "NaClVmIoWillStart: program mem write race detected. ABORTING" -/
  | memWriteRace
  /-- An abort of the interval multiset. -/
  | intervalMultiset (failure : IntervalMultiset.Failure)
  /-- An abort of the memory map. -/
  | vmmap
  /-- `NaClUserToSys` of an address outside of the address space. -/
  | userToSys
  /-- A failed `CHECK`. -/
  | check
  /-- "current break (…) not in address map" -/
  | breakNotMapped
  /-- The `Map` method of the descriptor ended the enclave. -/
  | mapFailed

/-- What a call does to the memory of the sandbox: a range of user addresses that is
    filled with zeros, or that `Map` is asked to map. -/
inductive Effect where
  | zero (usraddr length : Nat)
  | map (usraddr length : Nat)

/-- The fields of `struct NaClApp` that the memory calls use. -/
structure NaClApp where
  space : AddressSpace
  staticTextEnd : Nat
  dynamicTextStart : Nat
  dynamicTextEnd : Nat
  dataEnd : Nat
  breakAddr : Nat
  pnaclMode : Bool
  enableDyncodeSyscalls : Bool
  memMap : Map
  memIoRegions : Tree

/-- A call ends the enclave, or returns an `int32_t`; the effects are in order. -/
abbrev CallResult := Except Fatal (BitVec 32 × NaClApp × List Effect)

/-- `return -errno` before anything was changed. -/
def fail (nap : NaClApp) (errno : Nat) : CallResult := .ok (negErrno errno, nap, [])

def naClPageShift : Nat := 12
def naClPageSize : Nat := 2 ^ 12
def naClMapPageSize : Nat := 2 ^ 16

def naClRoundPage (nbytes : Nat) : Nat :=
  (nbytes + naClPageSize - 1) / naClPageSize * naClPageSize

/-- On Linux, the unit of the host is a page. -/
def naClRoundHostAllocPage (nbytes : Nat) : Nat := naClRoundPage nbytes

def naClRoundAllocPage (nbytes : Nat) : Nat :=
  (nbytes + naClMapPageSize - 1) / naClMapPageSize * naClMapPageSize

def naClTruncAllocPage (nbytes : Nat) : Nat := nbytes / naClMapPageSize * naClMapPageSize

def naClIsAllocPageMultiple (addrOrSize : Nat) : Bool := addrOrSize % naClMapPageSize == 0

/-- `SIZE_T_MAX >> 1` -/
def kMaxUsableFileSize : Nat := 2 ^ 63 - 1

/-- An abort of the memory map is an abort of the call. -/
def orFatal {α : Type} (result : Option α) : Except Fatal α :=
  match result with
  | some a => .ok a
  | none => .error .vmmap

/-! ## The guards -/

/-- `(uint32_t) (addr + length - 1)` -/
def lastByte (addr length : Nat) : Nat := (addr + length + (2 ^ 32 - 1)) % 2 ^ 32

def naClVmIoPendingCheckMu (nap : NaClApp) (addrFirstUsr addrLastUsr : Nat) :
    Except Fatal Unit :=
  if naClIntervalRangeTreeOverlapsWith nap.memIoRegions addrFirstUsr addrLastUsr then
    .error .memWriteRace
  else .ok ()

def naClSysCommonAddrRangeContainsExecutablePages (nap : NaClApp) (usraddr _length : Nat) :
    Bool :=
  decide (naClTruncAllocPage usraddr < nap.dynamicTextEnd)

def naClSysCommonAddrRangeInAllowedDynamicCodeSpace (nap : NaClApp) (usraddr length : Nat) :
    Bool :=
  decide (nap.dynamicTextStart ≤ usraddr ∧
    naClRoundAllocPage (usraddr + length) ≤ nap.dynamicTextEnd)

/-! ## `munmap` -/

/-- `MunmapInternal` of a range that translates to system addresses. -/
def munmapInternal (nap : NaClApp) (usraddr length : Nat) :
    Except Fatal (NaClApp × List Effect) := do
  let memMap ← orFatal
    (naClVmmapRemove nap.memMap (usraddr / naClPageSize) (length / naClPageSize))
  .ok ({ nap with memMap := memMap }, [.zero usraddr length])

/-- The checks of `NaClSysMunmap`: an error number, or the rounded length. -/
def munmapArguments (nap : NaClApp) (start length : BitVec 32) : Except Nat Nat :=
  if naClIsAllocPageMultiple start.toNat = false then .error naClAbiEINVAL
  else
    let rounded := naClRoundAllocPage length.toNat % 2 ^ 32
    if rounded = 0 then .error naClAbiEINVAL
    else if naClUserToSysAddrRange nap.space start.toNat rounded = none then
      .error naClAbiEFAULT
    else if naClSysCommonAddrRangeContainsExecutablePages nap start.toNat rounded then
      .error naClAbiEINVAL
    else .ok rounded

def naClSysMunmap (nap : NaClApp) (start length : BitVec 32) : CallResult :=
  match munmapArguments nap start length with
  | .error errno => fail nap errno
  | .ok length => do
    naClVmIoPendingCheckMu nap start.toNat (lastByte start.toNat length)
    let (nap, effects) ← munmapInternal nap start.toNat length
    .ok (0, nap, effects)

/-! ## `mprotect` -/

/-- `NaClSysMprotectInternal` up to the race detector: an error number, or the rounded
    length and the memory map with the new protection.  The map may have been sorted also
    when the call fails. -/
def mprotectArguments (getFlags : DescId → BitVec 32) (nap : NaClApp) (start : BitVec 32)
    (length : Nat) (prot : BitVec 32) : Except Fatal (Except Nat Nat × Map) := do
  if naClIsAllocPageMultiple start.toNat = false then .ok (.error naClAbiEINVAL, nap.memMap)
  else
    let length := naClRoundAllocPage length
    if naClUserToSysAddrRange nap.space start.toNat length = none then
      .ok (.error naClAbiEFAULT, nap.memMap)
    else if ~~~(naClAbiProtRead ||| naClAbiProtWrite) &&& prot ≠ 0 then
      .ok (.error naClAbiEACCES, nap.memMap)
    else if naClSysCommonAddrRangeContainsExecutablePages nap start.toNat length then
      .ok (.error naClAbiEACCES, nap.memMap)
    else do
      let (changed, memMap) ← orFatal (naClVmmapChangeProt getFlags nap.memMap
        (start.toNat / naClPageSize) (length / naClPageSize) prot)
      if changed then .ok (.ok length, memMap) else .ok (.error naClAbiEACCES, memMap)

/-- `MprotectInternal` does nothing in an enclave. -/
def naClSysMprotectInternal (getFlags : DescId → BitVec 32) (nap : NaClApp)
    (start : BitVec 32) (length : Nat) (prot : BitVec 32) : CallResult := do
  let (arguments, memMap) ← mprotectArguments getFlags nap start length prot
  let nap := { nap with memMap := memMap }
  match arguments with
  | .error errno => fail nap errno
  | .ok length => do
    naClVmIoPendingCheckMu nap start.toNat (lastByte start.toNat length)
    .ok (0, nap, [])

/-! ## `mmap` -/

/-- What `Fstat` tells about a file. -/
structure Stat where
  mode : BitVec 32
  size : Int

def naClAbiSIfmt : BitVec 32 := 0o370000
def naClAbiSIfreg : BitVec 32 := 0o100000
def naClAbiSIfshm : BitVec 32 := 0o240000

/-- The outcome of the `Map` method for a mapping at a fixed address. -/
inductive MapAnswer where
  | honored
  | errno (e : BitVec 32)
  | fatal

/-- A descriptor of a call of `mmap`, with the answers of its methods in this call: of
    `Fstat`, and for code mappings the type tag, the blessing, the trusted mapping and the
    validator. -/
structure DescAnswers where
  id : DescId
  fstat : Except (BitVec 32) Stat
  map : MapAnswer
  isHostIo : Bool
  isSafeForMmap : Bool
  mapTrusted : Except (BitVec 32) Unit
  validates : Bool

/-- The arguments of `NaClSysMmapIntern`; `desc` is the descriptor that `d` names. -/
structure MmapCall where
  start : Nat
  length : Nat
  prot : BitVec 32
  flags : BitVec 32
  desc : Option DescAnswers
  offset : BitVec 64

/-- The range an `mmap` is about to map: `[usraddr, usraddr + allocRoundedLength)`, of
    which `[usraddr, usraddr + length)` lies in the file. -/
structure MmapTarget where
  usraddr : Nat
  length : Nat
  allocRoundedLength : Nat
  fileSize : Nat
  mappingCode : Bool

def MmapCall.anonymous (call : MmapCall) : Bool := decide (call.flags &&& naClAbiMapAnonymous ≠ 0)

/-- The bits of `flags` that are kept. -/
def MmapCall.allowedFlags (call : MmapCall) : BitVec 32 :=
  call.flags &&& (naClAbiMapFixed ||| naClAbiMapShared ||| naClAbiMapPrivate |||
    naClAbiMapAnonymous)

def MmapCall.fixed (call : MmapCall) : Bool := decide (call.flags &&& naClAbiMapFixed ≠ 0)

/-- The descriptor of a mapping that is not anonymous. -/
def MmapCall.ndp (call : MmapCall) : Option DescAnswers :=
  if call.anonymous then none else call.desc

/-- The test for dynamic code loading: an error number, or `mapping_code`. -/
def mmapMappingCode (nap : NaClApp) (call : MmapCall) : Except Nat Bool :=
  if naClAbiProtExec &&& call.prot ≠ 0 ∧ call.fixed ∧ call.ndp.isSome ∧
      naClSysCommonAddrRangeInAllowedDynamicCodeSpace nap call.start call.length then
    if nap.enableDyncodeSyscalls = false then .error naClAbiEINVAL
    else if naClAbiProtWrite &&& call.prot ≠ 0 then .error naClAbiEINVAL
    else .ok true
  else if call.prot &&& naClAbiProtExec ≠ 0 then .error naClAbiEINVAL
  else .ok false

/-- The file behind a mapping: an error word, or `file_size` and the two limits of the
    mapped length, `file_bytes` and `host_rounded_file_bytes`. -/
def mmapFile (call : MmapCall) : Except (BitVec 32) (Nat × Nat × Nat) :=
  match call.ndp with
  | none => .ok (kMaxUsableFileSize, kMaxUsableFileSize, kMaxUsableFileSize)
  | some ndp =>
    match ndp.fstat with
    | .error e => .error e
    | .ok stbuf =>
      if stbuf.mode &&& naClAbiSIfmt ≠ naClAbiSIfreg ∧
          stbuf.mode &&& naClAbiSIfmt ≠ naClAbiSIfshm then .error (negErrno naClAbiENODEV)
      else if stbuf.size < call.offset.toNat then .error (negErrno naClAbiEINVAL)
      else
        let fileBytes := stbuf.size.toNat - call.offset.toNat
        .ok (stbuf.size.toNat, fileBytes, naClRoundHostAllocPage fileBytes)

/-- The address of a mapping: the given one if it is fixed, else a hole. -/
def mmapAddress (nap : NaClApp) (call : MmapCall) (usraddr allocRoundedLength : Nat) :
    Except Fatal (Nat × Map) :=
  if call.fixed then .ok (usraddr, nap.memMap)
  else
    let numPages := allocRoundedLength / naClPageSize
    if usraddr = 0 then do
      let (usrpage, memMap) ← orFatal (naClVmmapFindMapSpace nap.memMap numPages)
      .ok (usrpage * naClPageSize, memMap)
    else do
      let (usrpage, memMap) ← orFatal
        (naClVmmapFindMapSpaceAboveHint nap.memMap usraddr numPages)
      if usrpage = 0 then do
        let (usrpage, memMap) ← orFatal (naClVmmapFindMapSpace memMap numPages)
        .ok (usrpage * naClPageSize, memMap)
      else .ok (usrpage * naClPageSize, memMap)

/-- `NaClSysMmapIntern` up to the race detector: an error word or the range to map, and
    the memory map, which a search sorts. -/
def mmapTarget (nap : NaClApp) (call : MmapCall) :
    Except Fatal (Except (BitVec 32) MmapTarget × Map) :=
  if call.anonymous = false ∧ call.desc.isNone then
    .ok (.error (negErrno naClAbiEBADF), nap.memMap)
  else
    match mmapMappingCode nap call with
    | .error errno => .ok (.error (negErrno errno), nap.memMap)
    | .ok mappingCode =>
      if naClIsAllocPageMultiple call.start = false ∧ call.fixed then
        .ok (.error (negErrno naClAbiEINVAL), nap.memMap)
      else if call.offset.toInt < 0 ∨ naClIsAllocPageMultiple call.offset.toNat = false then
        .ok (.error (negErrno naClAbiEINVAL), nap.memMap)
      else
        let allocRoundedLength := naClRoundAllocPage call.length
        if mappingCode ∧ allocRoundedLength ≠ call.length then
          .ok (.error (negErrno naClAbiEINVAL), nap.memMap)
        else if allocRoundedLength % 2 ^ 32 = 0 then
          .ok (.error (negErrno naClAbiEINVAL), nap.memMap)
        else if allocRoundedLength ≠ allocRoundedLength % 2 ^ 32 then .error .check
        else
          match mmapFile call with
          | .error e => .ok (.error e, nap.memMap)
          | .ok (fileSize, fileBytes, hostRoundedFileBytes) =>
            if mappingCode ∧ fileBytes < allocRoundedLength then
              .ok (.error (negErrno naClAbiEINVAL), nap.memMap)
            else do
              let (usraddr, memMap) ←
                mmapAddress nap call (naClTruncAllocPage call.start) allocRoundedLength
              if usraddr = 0 ∧ call.fixed = false then
                .ok (.error (negErrno naClAbiENOMEM), memMap)
              else if 2 ^ nap.space.addrBits ≤ usraddr ∨
                  2 ^ nap.space.addrBits < usraddr + allocRoundedLength then
                .ok (.error (negErrno naClAbiEINVAL), memMap)
              else if mappingCode ∧ call.ndp.all (·.isSafeForMmap) = false then
                .ok (.error (negErrno naClAbiEINVAL), memMap)
              else if mappingCode = false ∧ naClSysCommonAddrRangeContainsExecutablePages nap
                  usraddr (min allocRoundedLength hostRoundedFileBytes) then
                .ok (.error (negErrno naClAbiEINVAL), memMap)
              else
                .ok (.ok ⟨usraddr, min allocRoundedLength hostRoundedFileBytes,
                  allocRoundedLength, fileSize, mappingCode⟩, memMap)

/-- Exactly one of `NACL_ABI_MAP_SHARED` and `NACL_ABI_MAP_PRIVATE` is set. -/
def MmapCall.oneSharing (call : MmapCall) : Bool :=
  decide (call.flags &&& naClAbiMapShared = 0) != decide (call.flags &&& naClAbiMapPrivate = 0)

/-- A mapping of code, which never reaches executable memory in the enclave: a validated
    image does not get a dynamic region (`ret = 0`), any other is dropped (`sys_ret = 0`). -/
def mmapCode (nap : NaClApp) (target : MmapTarget) (ndp : DescAnswers) : CallResult :=
  if ndp.isHostIo = false then fail nap naClAbiEINVAL
  else
    match ndp.mapTrusted with
    | .error e => .ok (e, nap, [])
    | .ok _ =>
      if ndp.validates then fail nap naClAbiEINVAL
      else .ok (BitVec.ofNat 32 target.usraddr, nap, [])

/-- `NaClDescIoDescMapAnon` at a fixed address. -/
def naClDescIoDescMapAnon (prot : BitVec 32) : MapAnswer :=
  if ~~~naClAbiProtMask &&& prot ≠ 0 then .errno (negErrno naClAbiEINVAL) else .honored

/-- The part of `NaClSysMmapIntern` behind the race detector. -/
def mmapApply (nap : NaClApp) (call : MmapCall) (target : MmapTarget) : CallResult :=
  let prot := call.prot &&& ~~~naClAbiProtExec
  if call.oneSharing = false then fail nap naClAbiEINVAL
  else if target.usraddr = 0 then .error .userToSys
  else
    match target.mappingCode, call.ndp with
    | true, some ndp => mmapCode nap target ndp
    | _, ndp => do
      let answer := if target.length = 0 then .honored
        else ndp.elim (naClDescIoDescMapAnon prot) DescAnswers.map
      match answer with
      | .fatal => .error .mapFailed
      | .errno e => .ok (e, nap, [])
      | .honored => do
        let mapped := if target.length = 0 then []
          else [Effect.map target.usraddr target.length]
        let (nap, zeroed) ←
          (if target.length < target.allocRoundedLength then
            munmapInternal nap (target.usraddr + target.length)
              (target.allocRoundedLength - target.length)
          else .ok (nap, []))
        let memMap ← orFatal (naClVmmapAddWithOverwrite nap.memMap
          (target.usraddr / naClPageSize) (target.allocRoundedLength / naClPageSize) prot
          (call.allowedFlags ||| naClAbiMapFixed) (ndp.map DescAnswers.id) call.offset
          (BitVec.ofNat 64 target.fileSize))
        .ok (BitVec.ofNat 32 target.usraddr, { nap with memMap := memMap }, mapped ++ zeroed)

def naClSysMmapIntern (nap : NaClApp) (call : MmapCall) : CallResult := do
  let (target, memMap) ← mmapTarget nap call
  let nap := { nap with memMap := memMap }
  match target with
  | .error e => .ok (e, nap, [])
  | .ok target => do
    naClVmIoPendingCheckMu nap (target.usraddr % 2 ^ 32) (lastByte target.usraddr target.length)
    mmapApply nap call target

/-! ## `brk` -/

/-- The sorted memory map, and the same with the entry that holds the current break
    extended to the page of the new one, unless the next entry is in the way. -/
def brkExtend (memMap : Map) (usrLastDataPage usrNewLastDataPage lastInternalPage : Nat) :
    Except Fatal (Map × Option Map) := do
  let (index, memMap) ← orFatal (naClVmmapFindPageIter memMap usrLastDataPage)
  match memMap.vmentry[index]? with
  | none => .error .breakNotMapped
  | some ent =>
    if usrNewLastDataPage < ent.pageNum + ent.npages then .ok (memMap, some memMap)
    else if memMap.vmentry[index + 1]?.any (fun nextEnt => nextEnt.pageNum ≤ lastInternalPage) then
      .ok (memMap, none)
    else
      let extended := { ent with npages := lastInternalPage - ent.pageNum + 1 }
      .ok (memMap, some { memMap with vmentry := memMap.vmentry.set index extended })

/-- Returns the break afterwards, which is the old one when the call fails. -/
def naClSysBrk (nap : NaClApp) (newBreak : Nat) : CallResult :=
  if nap.pnaclMode then fail nap naClAbiENOSYS
  else if naClUserToSysAddr nap.space newBreak = none then
    .ok (BitVec.ofNat 32 nap.breakAddr, nap, [])
  else if newBreak < nap.dataEnd then .ok (BitVec.ofNat 32 nap.breakAddr, nap, [])
  else if newBreak ≤ nap.breakAddr then
    .ok (BitVec.ofNat 32 newBreak, { nap with breakAddr := newBreak }, [])
  else if naClUserToSysAddr nap.space nap.breakAddr = none then .error .userToSys
  else do
    let (sorted, extended) ← brkExtend nap.memMap ((nap.breakAddr - 1) / naClPageSize)
      ((newBreak - 1) / naClPageSize) ((naClRoundAllocPage newBreak - 1) / naClPageSize)
    match extended with
    | none => .ok (BitVec.ofNat 32 nap.breakAddr, { nap with memMap := sorted }, [])
    | some memMap =>
      .ok (BitVec.ofNat 32 newBreak, { nap with memMap := memMap, breakAddr := newBreak },
        [.zero nap.breakAddr (newBreak - nap.breakAddr)])

end SandboxTEE.Memory
