import Mathlib.Algebra.Group.Int.Defs
import Mathlib.Algebra.Group.Nat.Defs
import SandboxTEE.Lib.Run

/-! # Loading an executable

The layout of the address space, from the program headers of an image to the regions that the
loader records (`elf_util_usgx.c`, `sel_ldr_standard_usgx.c`, `sel_addrspace_usgx.c`, `nacl_text.c`).
The fields of a program header have 32 bits; sizes and addresses are `uintptr_t`.
-/

namespace SandboxTEE.Loader

def naclSyscallStartAddr : Nat := 0x10000
def naclTrampolineStart : Nat := naclSyscallStartAddr
def naclTrampolineEnd : Nat := 0x20000
def naclPagesize : Nat := 2 ^ 12
def naclMapPagesize : Nat := 2 ^ 16
def naclHaltSledSize : Nat := 32
def naclInstrBlockSize : Nat := 32
def naclMaxAddrBits : Nat := 32

def naClRoundPage (nbytes : Nat) : Nat :=
  (nbytes + naclPagesize - 1) % 2 ^ 64 / naclPagesize * naclPagesize

def naClRoundAllocPage (nbytes : Nat) : Nat :=
  (nbytes + naclMapPagesize - 1) % 2 ^ 64 / naclMapPagesize * naclMapPagesize

def naClTruncAllocPage (nbytes : Nat) : Nat := nbytes / naclMapPagesize * naclMapPagesize

/-- `a - b` in `uintptr_t`: it wraps when `b` is the larger one. -/
def wordSub (a b : Nat) : Nat := if b ≤ a then a - b else 2 ^ 64 + a - b

/-! ## Errors -/

inductive NaClErrorCode where
  | addrSpaceTooBig
  | badSegment
  | dupSegment
  | segmentBadLoc
  | segmentOutsideAddrspace
  | segmentBadParam
  | badElfText
  | requiredSegMissing
  | codeSegmentTooLarge
  | badEntry
  | dataNotLastSegment
  | noDataButRodataNotLastSegment
  | rodataOverlapsData
  | textOverlapsRodata
  | textOverlapsData
  | badRodataAlignment
  | dataOverlapsStackSection
  | noMemoryForDynamicText
  | mprotectFail
  | other (code : Nat)
deriving DecidableEq

/-- How a load ends early: with an error code, or in `LOG_FATAL` or a `CHECK`. -/
inductive Stop where
  | code (error : NaClErrorCode)
  | fatal (message : String)
deriving DecidableEq

/-- An error code is an error of the load. -/
def orCode {α : Type} (result : Except NaClErrorCode α) : Except Stop α :=
  match result with
  | .ok a => .ok a
  | .error e => .error (.code e)

/-- `if (refused) return error;` -/
def refuseIf {ε : Type} (refused : Prop) [Decidable refused] (error : ε) : Except ε Unit :=
  if refused then .error error else .ok ()

/-! ## Program headers -/

/-- The fields of `Elf32_Phdr` that decide the layout. -/
structure ElfPhdr where
  pType : BitVec 32
  pFlags : BitVec 32
  pVaddr : BitVec 32
  pFilesz : BitVec 32
  pMemsz : BitVec 32

structure NaClElfImage where
  entry : BitVec 32
  phdrs : List ElfPhdr

inductive NaClPhdrCheckAction where
  | none
  | textCheck
  | rodata
  | data
  | ignore
deriving DecidableEq

structure NaClPhdrChecks where
  pType : BitVec 32
  pFlags : BitVec 32
  action : NaClPhdrCheckAction
  required : Bool
  pVaddr : BitVec 32
deriving DecidableEq

def ptNull : BitVec 32 := 0
def ptLoad : BitVec 32 := 1
def ptDynamic : BitVec 32 := 2
def ptInterp : BitVec 32 := 3
def ptNote : BitVec 32 := 4
def ptPhdr : BitVec 32 := 6
def ptTls : BitVec 32 := 7
def ptGnuEhFrame : BitVec 32 := 0x6474e550
def ptGnuStack : BitVec 32 := 0x6474e551
def ptGnuRelro : BitVec 32 := 0x6474e552

def pfX : BitVec 32 := 1
def pfW : BitVec 32 := 2
def pfR : BitVec 32 := 4

/-- `nacl_phdr_check_data`, on x86. -/
def naclPhdrCheckData : List NaClPhdrChecks :=
  [⟨ptPhdr, pfR, .ignore, false, 0⟩,
   ⟨ptLoad, pfR ||| pfX, .textCheck, true, BitVec.ofNat 32 naclTrampolineEnd⟩,
   ⟨ptLoad, pfR, .rodata, false, 0⟩,
   ⟨ptLoad, pfR ||| pfW, .data, false, 0⟩,
   ⟨ptTls, pfR, .ignore, false, 0⟩,
   ⟨ptGnuStack, pfR ||| pfW, .none, false, 0⟩,
   ⟨ptDynamic, pfR ||| pfW, .ignore, false, 0⟩,
   ⟨ptDynamic, pfR, .ignore, false, 0⟩,
   ⟨ptInterp, pfR, .ignore, false, 0⟩,
   ⟨ptNote, pfR, .ignore, false, 0⟩,
   ⟨ptGnuEhFrame, pfR, .ignore, false, 0⟩,
   ⟨ptGnuRelro, pfR, .ignore, false, 0⟩,
   ⟨ptNull, pfR, .ignore, false, 0⟩]

/-- The row of the table that a segment matches. -/
def checkRow (php : ElfPhdr) : Option NaClPhdrChecks :=
  naclPhdrCheckData.find? fun row => php.pType = row.pType ∧ php.pFlags = row.pFlags

structure NaClElfImageInfo where
  staticTextEnd : Nat := 0
  rodataStart : Nat := 0
  rodataEnd : Nat := 0
  dataStart : Nat := 0
  dataEnd : Nat := 0
  maxVaddr : Nat := naclTrampolineEnd

/-- `php->p_vaddr + php->p_memsz`, in 32 bits. -/
def ElfPhdr.memEnd (php : ElfPhdr) : Nat := (php.pVaddr + php.pMemsz).toNat

/-- The checks of a segment that will be loaded. -/
def checkSegment (addrBits : Nat) (row : NaClPhdrChecks) (php : ElfPhdr) :
    Except NaClErrorCode Unit :=
  if row.pVaddr ≠ 0 ∧ row.pVaddr ≠ php.pVaddr then .error .segmentBadLoc
  else if php.pVaddr.toNat < naclTrampolineEnd then .error .segmentOutsideAddrspace
  else if 2 ^ addrBits ≤ php.pVaddr.toNat ∨
      2 ^ addrBits - php.pVaddr.toNat < php.pMemsz.toNat then
    .error .segmentOutsideAddrspace
  else if php.pMemsz < php.pFilesz then .error .segmentBadParam
  else .ok ()

/-- What a loaded segment adds to the layout. -/
def recordSegment (action : NaClPhdrCheckAction) (php : ElfPhdr) (info : NaClElfImageInfo) :
    Except NaClErrorCode NaClElfImageInfo :=
  let info := if info.maxVaddr < php.memEnd then { info with maxVaddr := php.memEnd } else info
  match action with
  | .none => .ok info
  | .textCheck =>
    if php.pMemsz = 0 then .error .badElfText
    else .ok { info with
      staticTextEnd := (BitVec.ofNat 32 naclTrampolineEnd + php.pFilesz).toNat }
  | .rodata => .ok { info with rodataStart := php.pVaddr.toNat, rodataEnd := php.memEnd }
  | .data => .ok { info with dataStart := php.pVaddr.toNat, dataEnd := php.memEnd }
  | .ignore => .ok info

/-- The loop over the program headers: the rows that were seen, and the layout so far. -/
structure Scan where
  seenSeg : List NaClPhdrChecks := []
  info : NaClElfImageInfo := {}

def scanSegment (addrBits : Nat) (scan : Scan) (php : ElfPhdr) : Except NaClErrorCode Scan :=
  -- a segment without memory is not loaded
  if php.pMemsz = 0 then .ok scan
  else match checkRow php with
    | none => .error .badSegment
    | some row =>
      if row ∈ scan.seenSeg then .error .dupSegment
      else if row.action = .ignore then .ok { scan with seenSeg := row :: scan.seenSeg }
      else do
        checkSegment addrBits row php
        let info ← recordSegment row.action php scan.info
        .ok { seenSeg := row :: scan.seenSeg, info }

def naClElfImageValidateProgramHeaders (image : NaClElfImage) (addrBits : Nat) :
    Except NaClErrorCode NaClElfImageInfo := do
  let scan ← image.phdrs.foldlM (scanSegment addrBits) {}
  if naclPhdrCheckData.any fun row => row.required ∧ row ∉ scan.seenSeg then
    .error .requiredSegMissing
  else .ok scan.info

/-! ## The layout -/

/-- The settings of an application that the loader reads. -/
structure NaClAppOptions where
  addrBits : Nat
  stackSize : Nat
  initialNexeMaxCodeBytes : Nat
  useShmForDynamicText : Bool

/-- The fields of `struct NaClApp` that the loader reads and writes. -/
structure NaClApp extends NaClAppOptions where
  staticTextEnd : Nat
  rodataStart : Nat
  dataStart : Nat
  dataEnd : Nat
  breakAddr : Nat
  dynamicTextStart : Nat
  dynamicTextEnd : Nat
  textShm : Bool
  initialEntryPt : Nat
  bundleSize : Nat

/-- An application before anything is loaded. -/
def naClAppCtor (options : NaClAppOptions) : NaClApp :=
  { options with
    staticTextEnd := 0
    rodataStart := 0
    dataStart := 0
    dataEnd := 0
    breakAddr := 0
    dynamicTextStart := 0
    dynamicTextEnd := 0
    textShm := false
    initialEntryPt := 0
    bundleSize := 0 }

/-- `max_vaddr` as the break: without data it is rounded up, past a halt sled where there is
    no read-only data either. -/
def breakOf (info : NaClElfImageInfo) : Nat :=
  if info.dataStart = 0 then
    let maxVaddr :=
      if info.rodataStart = 0 ∧
          wordSub (naClRoundAllocPage info.maxVaddr) info.maxVaddr < naclHaltSledSize then
        info.maxVaddr + naclMapPagesize
      else info.maxVaddr
    naClRoundAllocPage maxVaddr
  else info.maxVaddr

/-- The part of `NaClAppLoadFileAslr` that takes the layout of the image over. -/
def setLayout (nap : NaClApp) (image : NaClElfImage) (info : NaClElfImageInfo) : NaClApp :=
  { nap with
    staticTextEnd := info.staticTextEnd
    rodataStart := info.rodataStart
    dataStart := info.dataStart
    dataEnd := breakOf info
    breakAddr := breakOf info
    bundleSize := naclInstrBlockSize
    initialEntryPt := image.entry.toNat }

def naClAddrIsValidEntryPt (nap : NaClApp) (addr : Nat) : Bool :=
  addr % nap.bundleSize = 0 ∧ addr < nap.staticTextEnd

def naClEndOfStaticText (nap : NaClApp) : Nat := nap.staticTextEnd

def naClCheckAddressSpaceLayoutSanity (nap : NaClApp) (rodataEnd dataEnd maxVaddr : Nat) :
    Except NaClErrorCode Unit := do
  refuseIf (nap.dataStart ≠ 0 ∧ dataEnd ≠ maxVaddr) .dataNotLastSegment
  refuseIf (nap.dataStart = 0 ∧ nap.rodataStart ≠ 0 ∧ naClRoundAllocPage rodataEnd ≠ maxVaddr)
    .noDataButRodataNotLastSegment
  refuseIf (nap.rodataStart ≠ 0 ∧ nap.dataStart ≠ 0 ∧ rodataEnd > naClTruncAllocPage nap.dataStart)
    .rodataOverlapsData
  refuseIf (nap.rodataStart ≠ 0 ∧
      naClRoundAllocPage (naClEndOfStaticText nap) > nap.rodataStart) .textOverlapsRodata
  refuseIf (nap.rodataStart = 0 ∧ nap.dataStart ≠ 0 ∧
      naClRoundAllocPage (naClEndOfStaticText nap) > naClTruncAllocPage nap.dataStart)
    .textOverlapsData
  refuseIf (nap.rodataStart ≠ 0 ∧ naClRoundAllocPage nap.rodataStart ≠ nap.rodataStart)
    .badRodataAlignment
  .ok ()

/-- What the calls to the host, the file and the validator answer. -/
structure Outside where
  allocateSpace : Except NaClErrorCode Unit
  releaseHole : Except NaClErrorCode Unit
  imageWritable : Bool
  loadImage : Except NaClErrorCode Unit
  makeTextShm : Bool
  mapTextShm : Bool
  validateImage : Except NaClErrorCode Unit
  protectText : Bool
  protectRodata : Bool
  protectData : Bool
  mapStack : Bool

def holeStart (nap : NaClApp) : Nat := naClRoundAllocPage nap.dataEnd

def stackStart (nap : NaClApp) : Nat :=
  naClTruncAllocPage (wordSub (2 ^ nap.addrBits) nap.stackSize)

def naClAllocAddrSpaceAslr (nap : NaClApp) (outside : Outside) : Except Stop Unit := do
  orCode outside.allocateSpace
  refuseIf (nap.stackSize ≥ 2 ^ nap.addrBits) (.fatal "NaClAllocAddrSpace: stack too large!")
  refuseIf (stackStart nap < holeStart nap) (.code .dataOverlapsStackSection)
  if naClTruncAllocPage (wordSub (stackStart nap) (holeStart nap)) = 0 then .ok ()
  else orCode outside.releaseHole

/-- The end of the gap that can hold dynamic text. -/
def shmUpperBound (nap : NaClApp) : Nat :=
  if nap.rodataStart ≠ 0 then nap.rodataStart
  else if naClTruncAllocPage nap.dataStart ≠ 0 then naClTruncAllocPage nap.dataStart
  else naClRoundAllocPage (naClEndOfStaticText nap)

def withoutDynamicText (nap : NaClApp) : NaClApp :=
  { nap with
    dynamicTextStart := naClRoundAllocPage (naClEndOfStaticText nap)
    dynamicTextEnd := naClRoundAllocPage (naClEndOfStaticText nap) }

def withDynamicText (nap : NaClApp) : NaClApp :=
  { nap with
    dynamicTextStart := naClRoundAllocPage (naClEndOfStaticText nap)
    dynamicTextEnd := shmUpperBound nap
    textShm := true }

def naClMakeDynamicTextShared (nap : NaClApp) (outside : Outside) : Except Stop NaClApp :=
  if ¬ nap.useShmForDynamicText then .ok (withoutDynamicText nap)
  else if wordSub (shmUpperBound nap) (naClRoundAllocPage (naClEndOfStaticText nap)) = 0 then
    .ok (withoutDynamicText nap)
  else do
    refuseIf (¬ outside.makeTextShm) (.code .noMemoryForDynamicText)
    refuseIf (¬ outside.mapTextShm) (.fatal "Could not map in shm for dynamic text region\n")
    .ok (withDynamicText nap)

/-- The halts that follow the text.  With dynamic text the halt sled is part of it. -/
def pagePad (nap : NaClApp) : Nat :=
  if nap.textShm then wordSub (naClRoundAllocPage nap.staticTextEnd) nap.staticTextEnd
  else wordSub (naClRoundAllocPage (nap.staticTextEnd + naclHaltSledSize)) nap.staticTextEnd

def padText (nap : NaClApp) : NaClApp :=
  { nap with staticTextEnd := nap.staticTextEnd + pagePad nap }

def naClFillEndOfTextRegion (nap : NaClApp) : Except Stop NaClApp := do
  refuseIf (nap.dataStart ≠ 0 ∧
      nap.staticTextEnd + naclHaltSledSize > naClTruncAllocPage nap.dataStart)
    (.fatal "Missing gap between text and data for halt_sled\n")
  refuseIf (nap.rodataStart ≠ 0 ∧ nap.staticTextEnd + naclHaltSledSize > nap.rodataStart)
    (.fatal "Missing gap between text and rodata for halt_sled\n")
  refuseIf (¬ nap.textShm ∧ pagePad nap < naclHaltSledSize) (.fatal "CHECK")
  refuseIf (¬ nap.textShm ∧ naclMapPagesize + naclHaltSledSize ≤ pagePad nap) (.fatal "CHECK")
  .ok (padText nap)

/-! ## The regions -/

inductive Prot where
  | none
  | readExec
  | read
  | readWrite

/-- A range of user addresses that is recorded in the memory map. -/
structure Region where
  start : Nat
  size : Nat
  prot : Prot

/-- The addresses below the trampolines. -/
def guardRegion : Region := ⟨0, naclSyscallStartAddr, .none⟩

/-- The trampolines and the text that follows them. -/
def textRegion (nap : NaClApp) : Region :=
  ⟨naclSyscallStartAddr, naClRoundPage (wordSub nap.staticTextEnd naclSyscallStartAddr), .readExec⟩

def dynamicTextRegion (nap : NaClApp) : List Region :=
  let regionSize := wordSub nap.dynamicTextEnd nap.dynamicTextStart
  if regionSize ≠ 0 then [⟨nap.dynamicTextStart, regionSize, .readExec⟩] else []

def rodataEnd (nap : NaClApp) : Nat :=
  if nap.dataStart ≠ 0 then naClTruncAllocPage nap.dataStart else nap.breakAddr

def rodataRegion (nap : NaClApp) : List Region :=
  if nap.rodataStart ≠ 0 then
    [⟨nap.rodataStart,
      naClRoundPage (wordSub (naClRoundAllocPage (rodataEnd nap)) nap.rodataStart), .read⟩]
  else []

def dataRegion (nap : NaClApp) : List Region :=
  if nap.dataStart ≠ 0 then
    [⟨naClTruncAllocPage nap.dataStart,
      naClRoundPage
        (wordSub (naClRoundAllocPage nap.dataEnd) (naClTruncAllocPage nap.dataStart)),
      .readWrite⟩]
  else []

def stackRegion (nap : NaClApp) : Region := ⟨stackStart nap, nap.stackSize, .readWrite⟩

/-- The regions that `NaClMemoryProtection` protects and records, in the order of its code. -/
def protectedRegions (nap : NaClApp) : List Region :=
  guardRegion :: textRegion nap ::
    (dynamicTextRegion nap ++ rodataRegion nap ++ dataRegion nap ++ [stackRegion nap])

def naClMemoryProtection (nap : NaClApp) (outside : Outside) : Except Stop (List Region) := do
  refuseIf (¬ outside.protectText) (.code .mprotectFail)
  refuseIf (nap.rodataStart ≠ 0 ∧ ¬ outside.protectRodata) (.code .mprotectFail)
  refuseIf (nap.dataStart ≠ 0 ∧ ¬ outside.protectData) (.code .mprotectFail)
  refuseIf (¬ outside.mapStack) (.code .mprotectFail)
  .ok (protectedRegions nap)

def roundStack (nap : NaClApp) : NaClApp :=
  { nap with stackSize := naClRoundAllocPage nap.stackSize }

/-- `NaClAppLoadFileAslr` up to the protection of the regions. -/
def beforeProtection (nap : NaClApp) (image : NaClElfImage) (outside : Outside) :
    Except Stop NaClApp := do
  refuseIf (nap.addrBits > naclMaxAddrBits) (.code .addrSpaceTooBig)
  let nap := roundStack nap
  let info ← orCode (naClElfImageValidateProgramHeaders image nap.addrBits)
  refuseIf (nap.initialNexeMaxCodeBytes ≠ 0 ∧
      wordSub info.staticTextEnd naclTrampolineEnd > nap.initialNexeMaxCodeBytes)
    (.code .codeSegmentTooLarge)
  let nap := setLayout nap image info
  refuseIf (¬ naClAddrIsValidEntryPt nap nap.initialEntryPt) (.code .badEntry)
  orCode (naClCheckAddressSpaceLayoutSanity nap info.rodataEnd info.dataEnd nap.breakAddr)
  naClAllocAddrSpaceAslr nap outside
  refuseIf (¬ outside.imageWritable)
    (.fatal "NaClAppLoadFile: Failed to make image pages writable. Error code 0x%x\n")
  orCode outside.loadImage
  let nap ← naClMakeDynamicTextShared nap outside
  let nap ← naClFillEndOfTextRegion nap
  orCode outside.validateImage
  return nap

def naClAppLoadFileAslr (nap : NaClApp) (image : NaClElfImage) (outside : Outside) :
    Except Stop (NaClApp × List Region) := do
  let nap ← beforeProtection nap image outside
  let regions ← naClMemoryProtection nap outside
  return (nap, regions)

end SandboxTEE.Loader
