import SandboxTEE.Measurement.HostPages
import SandboxTEE.Measurement.Signer

/-! # What the measurement binds

The records of the signer determine the addresses and the flags of the pages.  The records of their
contents are never fed to the hash, and the host has none of the contents measured: two enclaves
that differ in nothing but code or data have the same measurement.
-/

namespace SandboxTEE.Measurement

open SandboxTEE.Lib
open SandboxTEE.Loader (pfR pfX ptLoad)
open SandboxTEE.Loader.ElfFile (Bytes Elf32Phdr)

/-! ## Images -/

structure EnclavePage where
  addr : Nat
  flags : Nat
  contents : Bytes

def EnclavePage.place (page : EnclavePage) : Nat × Nat := (page.addr, page.flags)

/-- The bytes of a page, by their positions. -/
def pageContents (byte : Nat → BitVec 8) : Bytes := (List.range pagesize).map byte

/-- Pages with these contents. -/
def withContents (contents : Nat → Bytes) (pages : List (Nat × Nat)) : List EnclavePage :=
  pages.map fun page => ⟨page.1, page.2, contents page.1⟩

/-- A page of a segment of the executable, which the host maps from the allocation page of its
    offset on. -/
def execContents (file : BinaryFile) (c : LoadCmd) (pg : Nat) : Bytes :=
  pageContents fun i =>
    file.contents.getD (naClTruncAllocPage c.offset + (pg - (execArea c).addr) + i) 0

/-- A page of `load_file`, with zeros outside the part that is in the file. -/
def fileContents (file : BinaryFile) (offset addr filesize pg : Nat) : Bytes :=
  let fAddr := rounddown offset
  let mAddr := rounddown addr
  pageContents fun i =>
    let start := pg - mAddr + fAddr + i
    if offset ≤ start ∧ start < offset + filesize then file.contents.getD start 0 else 0

/-- The page of an area without a file. -/
def zeroContents (_pg : Nat) : Bytes := pageContents fun _ => 0

/-- The pages of the service runtime. -/
def runtimeImage (file : BinaryFile) (area : MemoryArea) : List EnclavePage :=
  if area.isBinary then
    file.loadcmds.flatMap fun c =>
      let addr := area.addr - mapaddr file.loadcmds + c.addr
      withContents (fileContents file c.offset addr c.filesize)
        ((filePages addr c.memsize).map fun pg => (pg, addProt area.flags c.prot))
  else
    withContents (fileContents file 0 area.addr file.contents.length)
      ((filePages area.addr area.size).map fun pg => (pg, area.flags))

/-- The enclave that the two files describe, page by page. -/
def image (x : SignerInput) : List EnclavePage :=
  (x.exec.loadcmds.flatMap fun c => withContents (execContents x.exec c) (execArea c).pages) ++
    withContents zeroContents (measuredPages [trampolineArea, naclStackArea]) ++
    runtimeImage x.libsel (fileArea x.libsel pageinfoReg runtimeBase) ++
    withContents zeroContents (measuredPages (threadAreas x.threadNum))

/-- Where the pages are, and with which flags. -/
def layout (x : SignerInput) : List (Nat × Nat) := (image x).map EnclavePage.place

/-! ## The pages that are measured -/

theorem map_place_withContents (contents : Nat → Bytes) (pages : List (Nat × Nat)) :
    (withContents contents pages).map EnclavePage.place = pages := by
  rw [withContents, List.map_map]
  exact List.map_id _

theorem fileArea_file (file : BinaryFile) (flags addr : Nat) :
    (fileArea file flags addr).file = some file := by
  rw [fileArea]
  split <;> rfl

theorem map_place_runtimeImage (file : BinaryFile) (flags addr : Nat) :
    (runtimeImage file (fileArea file flags addr)).map EnclavePage.place =
      (fileArea file flags addr).pages := by
  rw [runtimeImage, MemoryArea.pages, fileArea_file]
  dsimp only
  split
  · rw [List.map_flatMap]
    exact List.flatMap_congr fun c _ => map_place_withContents ..
  · exact map_place_withContents ..

/-- The image of a file with segments is that of the segments. -/
theorem runtimeImage_of_segments {file : BinaryFile} (some : file.loadcmds ≠ []) (flags addr : Nat) :
    runtimeImage file (fileArea file flags addr) = file.loadcmds.flatMap fun c =>
      withContents (fileContents file c.offset c.addr c.filesize)
        ((filePages c.addr c.memsize).map fun pg => (pg, addProt flags c.prot)) := by
  have base : rounddown (mapaddr file.loadcmds) - mapaddr file.loadcmds = 0 := by
    rw [rounddown]
    omega
  rw [fileArea, if_pos some, runtimeImage]
  simp only [if_true, base, Nat.zero_add]

/-- The signer measures the pages of the image, without their contents. -/
theorem measuredPages_getMemoryAreas (x : SignerInput) :
    measuredPages (getMemoryAreas x) = layout x := by
  have exec : (x.exec.loadcmds.flatMap fun c =>
      withContents (execContents x.exec c) (execArea c).pages).map EnclavePage.place =
      measuredPages (x.exec.loadcmds.map execArea) := by
    rw [List.map_flatMap, measuredPages, List.flatMap_map]
    exact List.flatMap_congr fun c _ => map_place_withContents ..
  rw [layout, image, List.map_append, List.map_append, List.map_append, exec,
    map_place_withContents, map_place_runtimeImage, map_place_withContents, getMemoryAreas]
  simp [measuredPages]

/-- The hash is fed the same bytes just if the layouts are the same. -/
theorem bytes_eq_iff {x y : SignerInput} {bytes bytes' : Bytes}
    (measured : generateMeasurement (getMemoryAreas x) = some bytes)
    (measured' : generateMeasurement (getMemoryAreas y) = some bytes') :
    bytes = bytes' ↔ layout x = layout y := by
  constructor
  · rintro rfl
    rw [← measuredPages_getMemoryAreas, ← measuredPages_getMemoryAreas]
    exact generateMeasurement_inj measured measured'
  · intro same
    rw [← measuredPages_getMemoryAreas, ← measuredPages_getMemoryAreas] at same
    rw [generateMeasurement_eq, same, ← generateMeasurement_eq, measured'] at measured
    exact (Option.some.inj measured).symm

/-! ## The pages of the service runtime -/

/-- A segment adds no page just if it has no bytes in the file or in memory. -/
theorem runtimePages_eq_nil_iff (php : Elf32Phdr) :
    runtimePages php = [] ↔ (php.pType = ptLoad → php.pFilesz = 0 ∨ php.pMemsz = 0) := by
  have memory : php.pMemsz = 0 ↔ php.pMemsz.toNat = 0 :=
    ⟨fun zero => zero ▸ rfl, fun zero => BitVec.eq_of_toNat_eq zero⟩
  have word : php.pMemsz.toNat < 2 ^ 32 := php.pMemsz.isLt
  by_cases load : php.pType = ptLoad ∧ php.pFilesz ≠ 0
  · rw [runtimePages, if_pos load, ← List.length_eq_zero_iff, length_addPagesToEnclave,
      naClRoundPage_word word]
    constructor
    · intro none _
      right
      rw [memory]
      omega
    · intro none
      have zero := memory.mp ((none load.1).resolve_left load.2)
      rw [zero]
  · rw [runtimePages, if_neg load]
    exact iff_of_true rfl fun type => Or.inl (not_not.mp fun some => load ⟨type, some⟩)

/-- `mrmask` of a page that is measured. -/
def wholePage : Nat := 0xffff

/-- The pages of a service runtime are measured just if there are none. -/
theorem runtime_measured_iff {file : Bytes} {phdrs : List Elf32Phdr} {runtime : List AddPage}
    (loaded : naClElfImageLoadServiceRuntime file phdrs = .ok runtime) :
    (∀ page ∈ runtime, page.mrmask = wholePage) ↔
      ∀ php ∈ phdrs, php.pType = ptLoad → php.pFilesz = 0 ∨ php.pMemsz = 0 := by
  have none : (∀ page ∈ runtime, page.mrmask = wholePage) ↔ runtime = [] := by
    constructor
    · intro measured
      refine List.eq_nil_iff_forall_not_mem.mpr fun page member => ?_
      have zero := runtime_not_measured loaded page member
      rw [measured page member] at zero
      exact absurd zero (by decide)
    · rintro rfl page member
      cases member
  rw [none, (naClElfImageLoadServiceRuntime_pages loaded).1, List.flatMap_eq_nil_iff]
  exact forall₂_congr fun php _ => runtimePages_eq_nil_iff php

/-- Two files of which the images differ feed different bytes to the hash just if the images differ
    in where a page is or in its flags, and no page of a service runtime is measured. -/
theorem generateMeasurement_binds_iff {x y : SignerInput} {bytes bytes' file : Bytes}
    {phdrs : List Elf32Phdr} {runtime : List AddPage}
    (measured : generateMeasurement (getMemoryAreas x) = some bytes)
    (measured' : generateMeasurement (getMemoryAreas y) = some bytes')
    (loaded : naClElfImageLoadServiceRuntime file phdrs = .ok runtime) :
    ((image x ≠ image y → bytes ≠ bytes') ↔ image x = image y ∨ layout x ≠ layout y) ∧
      ((∀ page ∈ runtime, page.mrmask = wholePage) ↔
        ∀ php ∈ phdrs, php.pType = ptLoad → php.pFilesz = 0 ∨ php.pMemsz = 0) := by
  refine ⟨?_, runtime_measured_iff loaded⟩
  rw [ne_eq bytes, bytes_eq_iff measured measured', or_iff_not_imp_left]

/-! ### Two enclaves with other code -/

/-- An executable with a text of 32 bytes, and a service runtime of one byte. -/
def onePageInput (byte : BitVec 8) : SignerInput where
  threadNum := 1
  exec := ⟨[⟨0, 0x20000, 32, 32, 5⟩], List.replicate 32 0x90⟩
  libsel := ⟨[⟨0, runtimeBase, 1, 1, 5⟩], [byte]⟩

/-- The page of the service runtime begins with the byte. -/
theorem runtimeImage_onePageInput (byte : BitVec 8) : ((runtimeImage (onePageInput byte).libsel
      (fileArea (onePageInput byte).libsel pageinfoReg runtimeBase)).head?.bind
        fun page => page.contents.head?) = some byte := by
  have pages : filePages runtimeBase 1 = [runtimeBase] := by decide +kernel
  have segment : (onePageInput byte).libsel.loadcmds = [⟨0, runtimeBase, 1, 1, 5⟩] := rfl
  rw [runtimeImage_of_segments (List.cons_ne_nil _ _), segment]
  simp only [List.flatMap_cons, List.flatMap_nil, List.append_nil, pages, withContents,
    List.map_cons, List.map_nil, List.head?_cons, Option.bind_some]
  have start : runtimeBase - rounddown runtimeBase + rounddown 0 + 0 = 0 := rfl
  have front : (List.range pagesize).head? = some 0 := by decide +kernel
  rw [fileContents, pageContents, List.head?_map, front, Option.map_some, start]
  rfl

theorem representable_onePageInput (byte : BitVec 8) :
    ∀ page ∈ measuredPages (getMemoryAreas (onePageInput byte)), Representable page := by
  have runtime : ∀ page ∈ (fileArea (onePageInput byte).libsel pageinfoReg runtimeBase).pages,
      Representable page := by
    intro page member
    rw [fileArea_pages (List.cons_ne_nil _ _)] at member
    have pages : filePages runtimeBase 1 = [runtimeBase] := by decide +kernel
    have segment : (onePageInput byte).libsel.loadcmds = [⟨0, runtimeBase, 1, 1, 5⟩] := rfl
    rw [segment, List.flatMap_singleton, pages, List.map_singleton, List.mem_singleton] at member
    rw [member]
    decide
  have all : ∀ area ∈ getMemoryAreas (onePageInput byte), ∀ page ∈ area.pages,
      Representable page := by
    have areas : getMemoryAreas (onePageInput byte) = execArea ⟨0, 0x20000, 32, 32, 5⟩ ::
      trampolineArea :: naclStackArea :: fileArea (onePageInput byte).libsel pageinfoReg runtimeBase ::
      threadAreas 1 := rfl
    rw [areas, threadAreas_one]
    simp only [List.forall_mem_cons]
    refine ⟨?_, ?_, ?_, runtime, ?_, ?_, ?_, ?_, ?_, by simp⟩
    all_goals exact memoryArea_representable (by decide) (by decide)
  intro page member
  obtain ⟨area, there, here⟩ := List.mem_flatMap.mp member
  exact all area there page here

theorem image_onePageInput_inj {a b : BitVec 8}
    (same : image (onePageInput a) = image (onePageInput b)) : a = b := by
  have runtime := List.append_cancel_left (List.append_cancel_right same)
  have first := runtimeImage_onePageInput a
  rw [runtime, runtimeImage_onePageInput] at first
  exact (Option.some.inj first).symm

/-- The measurement of the two pages. -/
def onePageMeasurement : Bytes :=
  doEcreate [] (1024 * 1024 * 1024 * 64) ++
    ((measuredPages (getMemoryAreas (onePageInput 0))).map words).flatMap eaddRecord

/-- The measurement does not depend on the code. -/
theorem measured_onePageInput (byte : BitVec 8) :
    generateMeasurement (getMemoryAreas (onePageInput byte)) = some onePageMeasurement := by
  have runtime : (fileArea (onePageInput byte).libsel pageinfoReg runtimeBase).pages =
      (fileArea (onePageInput 0).libsel pageinfoReg runtimeBase).pages := by
    rw [fileArea_pages (List.cons_ne_nil _ _), fileArea_pages (List.cons_ne_nil _ _)]
    rfl
  have same : measuredPages (getMemoryAreas (onePageInput byte)) =
      measuredPages (getMemoryAreas (onePageInput 0)) := by
    simp only [measuredPages, getMemoryAreas, List.flatMap_append, List.flatMap_cons, runtime]
    rfl
  rw [generateMeasurement_eq, if_pos (representable_onePageInput byte), same, onePageMeasurement]

/-- A segment of the service runtime with its one byte. -/
def onePageSegment : Elf32Phdr where
  pType := ptLoad
  pOffset := 0
  pVaddr := 0
  pPaddr := 0
  pFilesz := 1
  pMemsz := 1
  pFlags := pfR ||| pfX
  pAlign := 0

theorem load_onePageSegment : naClElfImageLoadServiceRuntime [0xc3] [onePageSegment] =
    .ok [⟨0xc00000000, 0x205, 0⟩] := by
  decide +kernel

/-- Two enclaves of which the service runtimes differ in their only byte of code. -/
theorem generateMeasurement_binds_iff_onePage :
    ((image (onePageInput 0x90) ≠ image (onePageInput 0xc3) →
        onePageMeasurement ≠ onePageMeasurement) ↔
      image (onePageInput 0x90) = image (onePageInput 0xc3) ∨
        layout (onePageInput 0x90) ≠ layout (onePageInput 0xc3)) ∧
      ((∀ page ∈ [(⟨0xc00000000, 0x205, 0⟩ : AddPage)], page.mrmask = wholePage) ↔
        ∀ php ∈ [onePageSegment], php.pType = ptLoad → php.pFilesz = 0 ∨ php.pMemsz = 0) :=
  generateMeasurement_binds_iff (measured_onePageInput 0x90) (measured_onePageInput 0xc3)
    load_onePageSegment

/-- The code of two enclaves differs, their measurements are the same, and the page of the code is
    added without being measured. -/
theorem generateMeasurement_not_binding :
    image (onePageInput 0x90) ≠ image (onePageInput 0xc3) ∧
      generateMeasurement (getMemoryAreas (onePageInput 0x90)) =
        generateMeasurement (getMemoryAreas (onePageInput 0xc3)) ∧
      naClElfImageLoadServiceRuntime [0xc3] [onePageSegment] = .ok [⟨0xc00000000, 0x205, 0⟩] :=
  ⟨fun same => absurd (image_onePageInput_inj same) (by decide),
    (measured_onePageInput 0x90).trans (measured_onePageInput 0xc3).symm, load_onePageSegment⟩

end SandboxTEE.Measurement
