import SandboxTEE.Lib.Parts
import SandboxTEE.Loader.Headers
import SandboxTEE.Measurement.HostPages
import SandboxTEE.Measurement.Signer

/-! # The signed pages and the pages that are added

The signer takes the sizes of segments from the memory they need, the loader of the executable from
the file, and the loader of the service runtime passes segments by that have nothing in the file.
The signed pages are the pages of the enclave just if the two agree on each segment
(`measuredPages_eq_hostPages_iff`).
-/

namespace SandboxTEE.Measurement

open SandboxTEE.Lib
open SandboxTEE.Loader (NaClPhdrChecks naclPhdrCheckData loadedRow checkRow Placed
  naclTrampolineEnd pfR pfW pfX ptLoad)
open SandboxTEE.Loader.ElfFile (Bytes Elf32Phdr Elf64Phdr NaClElfImage convertPhdr World LoadApp
  Loading FromFile Mappable placementOf protOf sgxAddr roundedFilesz InAddressSpace
  naClElfImageLoad protRead protWrite protExec)

def AddPage.place (page : AddPage) : Nat × Nat := (page.addr, page.flags)

/-! ## The files, as `readelf` shows them -/

/-- The letters of a segment: the lowest bits of `p_flags`. -/
def loadProt (pFlags : Word 4) : Nat := pFlags.toNat % 8

def loadCmd (php : Elf32Phdr) : LoadCmd :=
  ⟨php.pOffset.toNat, php.pVaddr.toNat, php.pFilesz.toNat, php.pMemsz.toNat, loadProt php.pFlags⟩

def loadCmd64 (php : Elf64Phdr) : LoadCmd :=
  ⟨php.pOffset.toNat, php.pVaddr.toNat, php.pFilesz.toNat, php.pMemsz.toNat, loadProt php.pFlags⟩

/-- An executable.  Numbers that need more than 32 bits are refused when it is read. -/
def execFile (image : NaClElfImage) (contents : Bytes) : BinaryFile :=
  ⟨(image.phdrs.filter fun php => php.pType = ptLoad).map loadCmd, contents⟩

/-- A service runtime, of which the loader cuts the numbers to 32 bits. -/
def runtimeFile (phdrs : List Elf64Phdr) (contents : Bytes) : BinaryFile :=
  ⟨(phdrs.filter fun php => php.pType = ptLoad).map loadCmd64, contents⟩

/-! ## Executables that are accepted -/

/-- The fields that the check of the program headers reads. -/
def checkedFields (php : Elf32Phdr) : Loader.ElfPhdr where
  pType := php.pType
  pFlags := php.pFlags
  pVaddr := php.pVaddr
  pFilesz := php.pFilesz
  pMemsz := php.pMemsz

/-- `image->loadable[segnum]`, as the check sets it. -/
def loads (php : Elf32Phdr) : Bool :=
  match loadedRow (checkedFields php) with
  | some row => row.action ≠ .ignore
  | none => false

/-- An executable that the loader accepts, whose loaded segments are `LOAD` segments.  The memory of
    the application begins at a multiple of 4 GiB. -/
structure Accepted (w : World) (nap : LoadApp) (image : NaClElfImage) (st : Loading) : Prop where
  headers : ∃ entry info, Loader.naClElfImageValidateProgramHeaders
    ⟨entry, image.phdrs.map checkedFields⟩ nap.addrBits = .ok info
  loadable : image.loadable = image.phdrs.map loads
  loaded : naClElfImageLoad w nap image = .ok st
  memStart : nap.memStart % 2 ^ 32 = 0
  described : ∀ php ∈ image.phdrs, loads php = true → php.pType = ptLoad

/-! ## The condition -/

/-- Where a segment begins in the allocation page of its offset. -/
def allocOffset (php : Elf32Phdr) : Nat := php.pOffset.toNat % 0x10000

/-- The pages that the signer counts for a segment of the executable. -/
def signedCount (php : Elf32Phdr) : Nat :=
  (allocOffset php + php.pMemsz.toNat + 0xfff) / 0x1000

/-- The pages that the loader counts. -/
def loadedCount (php : Elf32Phdr) : Nat :=
  (allocOffset php + php.pFilesz.toNat + 0xfff) / 0x1000 +
    if 0x1000 < (allocOffset php + php.pFilesz.toNat) % 0x1000 + php.pVaddr.toNat % 0x1000 then 1
    else 0

/-- A segment of the executable, with its two numbers of pages. -/
def execPart (w : World) (seg : Elf32Phdr × Nat) : PagedPart Nat where
  start := addrBase + naClTruncAllocPage seg.1.pVaddr.toNat
  tag := addProt pageinfoReg (loadProt seg.1.pFlags)
  first := signedCount seg.1
  second :=
    if seg.1.pMemsz ≠ 0 ∧ seg.1.pFilesz ≠ 0 ∧ Mappable w seg then loadedCount seg.1 else 0
  solid := seg.1.pMemsz ≠ 0

def execParts (w : World) (image : NaClElfImage) : List (PagedPart Nat) :=
  (image.phdrs.zipIdx.filter fun seg => seg.1.pType = ptLoad).map (execPart w)

/-- A segment of the service runtime without memory at a page boundary, or one at a page boundary of
    the 4 GiB from 48 GiB on that has less than 4 GiB, and something in the file. -/
def RuntimeSegmentAgrees (php : Elf64Phdr) : Prop :=
  php.pVaddr.toNat % 0x1000 = 0 ∧ (php.pMemsz.toNat = 0 ∨
    php.pVaddr.toNat / 2 ^ 32 = 12 ∧ php.pMemsz.toNat < 2 ^ 32 ∧ php.pFilesz.toNat % 2 ^ 32 ≠ 0)

/-- All segments agree; a file without segments is measured as a whole and adds no page. -/
def RuntimeAgrees (phdrs : List Elf64Phdr) (contents : Bytes) : Prop :=
  ((∃ php ∈ phdrs, php.pType = ptLoad) ∨ contents = []) ∧
    ∀ php ∈ phdrs, php.pType = ptLoad → RuntimeSegmentAgrees php

/-! ## Areas and calls as runs -/

theorem pageRange_eq (addr size flags : Nat) : ((pageRange addr size).map fun pg => (pg, flags)) =
      addressRun 0x1000 addr ((size + 0xfff) / 0x1000) flags := by
  rw [pageRange, addressRun, List.map_map]
  rfl

theorem rounddown_of_aligned {n : Nat} (aligned : n % 0x1000 = 0) : rounddown n = n := by
  rw [rounddown, pagesize]
  omega

theorem roundup_eq (n : Nat) : roundup n = (n + 0xfff) / 0x1000 * 0x1000 := by
  rw [roundup, pagesize]
  split <;> omega

variable {addr : Nat}

theorem memoryArea_run (aligned : addr % 0x1000 = 0) (size flags : Nat) :
    (memoryArea size flags addr).pages =
      addressRun 0x1000 addr ((size + 0xfff) / 0x1000) flags := by
  rw [memoryArea_pages, rounddown_of_aligned aligned, pageRange_eq, roundup_eq]
  congr 1
  omega

variable {prot : Nat}

theorem addPagesToEnclave_run {size flags : Nat} {type : SgxPageType}
    (known : secinfoFlags type prot = some flags) (skipEextend : Bool) :
    (addPagesToEnclave addr size type prot skipEextend).map AddPage.place =
      addressRun 0x1000 addr ((size + 0xfff) / 0x1000) flags := by
  rw [addPagesToEnclave, known, addressRun, List.map_map]
  rfl

/-- The flags of the loader are those of the signer. -/
theorem secinfoFlags_prot {pFlags : Word 4} (known : runtimeProt pFlags = some prot) :
    secinfoFlags .reg prot = some (addProt pageinfoReg (loadProt pFlags)) := by
  rw [runtimeProt] at known
  split at known
  · next text =>
    cases known
    rw [text]
    decide
  · split at known
    · next data =>
      cases known
      rw [data]
      decide
    · split at known
      · next rodata =>
        cases known
        rw [rodata]
        decide
      · cases known

/-! ## The executable -/

section Executable

variable {w : World} {nap : LoadApp} {image : NaClElfImage} {st : Loading} {php : Elf32Phdr}

variable {row : NaClPhdrChecks}

theorem checkRow_eq {php : Loader.ElfPhdr} (found : checkRow php = some row) :
    row ∈ naclPhdrCheckData ∧ php.pType = row.pType ∧ php.pFlags = row.pFlags := by
  have matched := List.find?_some found
  rw [decide_eq_true_eq] at matched
  exact ⟨List.mem_of_find?_eq_some found, matched⟩

/-- The row of a `LOAD` segment is not one to be ignored, and says its protection. -/
theorem load_row (member : row ∈ naclPhdrCheckData) (load : row.pType = ptLoad) :
    row.action ≠ .ignore ∧ (runtimeProt row.pFlags).isSome := by
  have table : ∀ r ∈ naclPhdrCheckData, r.pType = ptLoad →
      r.action ≠ .ignore ∧ (runtimeProt r.pFlags).isSome := by decide
  exact table row member load

theorem execArea_run (php : Elf32Phdr) : (execArea (loadCmd php)).pages =
    addressRun 0x1000 (addrBase + naClTruncAllocPage php.pVaddr.toNat) (signedCount php)
      (addProt pageinfoReg (loadProt php.pFlags)) := by
  rw [execArea, memoryArea_run (by rw [addrBase, naClTruncAllocPage, naclMapPagesize]; omega)]
  congr 1
  simp only [loadCmd, signedCount, allocOffset, naClTruncAllocPage, naclMapPagesize, pagesize]
  omega

theorem signed_exec (w : World) (image : NaClElfImage) (contents : Bytes) :
    measuredPages ((execFile image contents).loadcmds.map execArea) =
      layOut 0x1000 PagedPart.first (execParts w image) := by
  have segments : image.phdrs.filter (fun php => php.pType = ptLoad) =
      (image.phdrs.zipIdx.filter fun seg => seg.1.pType = ptLoad).map Prod.fst := by
    conv => lhs; rw [← List.zipIdx_map_fst 0 image.phdrs, List.filter_map]
    rfl
  rw [measuredPages, execFile, layOut, execParts, segments, List.map_map, List.map_map,
    List.flatMap_map, List.flatMap_map]
  exact List.flatMap_congr fun seg _ => execArea_run seg.1

namespace Accepted

theorem each (accepted : Accepted w nap image st) :
    Loader.EachChecked nap.addrBits (image.phdrs.map checkedFields) := by
  obtain ⟨entry, info, passed⟩ := accepted.headers
  exact Loader.naClElfImageValidateProgramHeaders_each passed

/-- A `LOAD` segment with memory is loaded, at a place and with a protection that were checked. -/
theorem load_segment (accepted : Accepted w nap image st) (member : php ∈ image.phdrs)
    (load : php.pType = ptLoad) (memory : php.pMemsz ≠ 0) :
    ∃ row, loadedRow (checkedFields php) = some row ∧ row.pFlags = php.pFlags ∧
      loads php = true ∧ (runtimeProt php.pFlags).isSome ∧
      Placed nap.addrBits row (checkedFields php) := by
  have there : checkedFields php ∈ image.phdrs.map checkedFields := List.mem_map_of_mem member
  obtain ⟨row, loaded⟩ := accepted.each.row _ there memory
  have found : checkRow (checkedFields php) = some row := (if_neg memory).symm.trans loaded
  obtain ⟨known, type, flags⟩ := checkRow_eq found
  have kept := load_row known (type.symm.trans load)
  rw [← flags] at kept
  refine ⟨row, loaded, flags.symm, ?_, kept.2, accepted.each.placed _ there row loaded kept.1⟩
  rw [loads, loaded]
  exact decide_eq_true kept.1

/-- The loaded segments are the `LOAD` segments with memory. -/
theorem loads_iff (accepted : Accepted w nap image st) (member : php ∈ image.phdrs) :
    loads php = true ↔ php.pType = ptLoad ∧ php.pMemsz ≠ 0 := by
  constructor
  · intro loaded
    refine ⟨accepted.described php member loaded, fun empty => ?_⟩
    have none : loadedRow (checkedFields php) = none := if_pos empty
    rw [loads, none] at loaded
    cases loaded
  · rintro ⟨load, memory⟩
    exact (accepted.load_segment member load memory).choose_spec.2.2.1

end Accepted

variable {prot : Nat} {pFlags : Word 4}

theorem protOf_eq (known : runtimeProt pFlags = some prot) : protOf pFlags = prot := by
  rw [runtimeProt] at known
  rw [protOf]
  split at known
  · next text => rw [if_pos text, Option.some.inj known]
  · next other =>
    rw [if_neg other]
    split at known
    · next data => rw [if_pos data, Option.some.inj known]
    · next other =>
      rw [if_neg other]
      split at known
      · exact Option.some.inj known
      · cases known

theorem roundedFilesz_pages (inside : InAddressSpace nap php) :
    (roundedFilesz php.segmentSize php.pVaddr.toNat + 0xfff) / 0x1000 = loadedCount php := by
  have size : php.segmentSize = allocOffset php + php.pFilesz.toNat := inside.segmentSize_eq
  have word : php.segmentSize < 2 ^ 32 := BitVec.isLt _
  rw [roundedFilesz, loadedCount, naClRoundPage_word word, size]
  clear word size
  generalize allocOffset php + php.pFilesz.toNat = filesz
  split <;> omega

/-- The pages of a segment that the loader places. -/
theorem placement_run {segnum : Nat} (base : nap.memStart % 2 ^ 32 = 0)
    (inside : InAddressSpace nap php) (known : runtimeProt php.pFlags = some prot) :
    ((placementOf nap php segnum).pages.flatMap execPage).map AddPage.place =
      addressRun 0x1000 (addrBase + naClTruncAllocPage php.pVaddr.toNat) (loadedCount php)
        (addProt pageinfoReg (loadProt php.pFlags)) := by
  have start : sgxAddr (Loader.naClTruncAllocPage php.pVaddr.toNat + nap.memStart) =
      addrBase + naClTruncAllocPage php.pVaddr.toNat := by
    have word : php.pVaddr.toNat < 2 ^ 32 := php.pVaddr.isLt
    simp only [sgxAddr, addrBase, naClTruncAllocPage, naclMapPagesize, Loader.naClTruncAllocPage,
      Loader.naclMapPagesize]
    omega
  have page : ∀ i, (execPage ((placementOf nap php segnum).page i)).map AddPage.place =
      [(addrBase + naClTruncAllocPage php.pVaddr.toNat + i * 0x1000,
        addProt pageinfoReg (loadProt php.pFlags))] := by
    intro i
    have flags := secinfoFlags_prot known
    rw [← protOf_eq known] at flags
    rw [execPage]
    refine (addPagesToEnclave_run flags true).trans ?_
    rw [← start]
    exact addressRun_one ..
  have count : ((placementOf nap php segnum).size + Loader.ElfFile.pagesize - 1) /
      Loader.ElfFile.pagesize = loadedCount php := by
    have size : (placementOf nap php segnum).size =
      roundedFilesz php.segmentSize php.pVaddr.toNat := rfl
    rw [size, ← roundedFilesz_pages inside, Loader.ElfFile.pagesize, Nat.add_sub_assoc (by decide)]
  rw [Loader.ElfFile.Placement.pages, List.flatMap_map, List.map_flatMap, count]
  simp only [page]
  rw [← List.map_eq_flatMap, addressRun]

theorem Accepted.hosted_exec (accepted : Accepted w nap image st) :
    (st.pages.flatMap execPage).map AddPage.place =
      layOut 0x1000 PagedPart.second (execParts w image) := by
  rw [Loader.ElfFile.naClElfImageLoad_pages accepted.loaded, Loader.ElfFile.segmentPages,
    List.flatMap_assoc, List.map_flatMap, flatMap_filter_eq, flatMap_filter_eq, layOut, execParts,
    List.flatMap_map, flatMap_filter_eq]
  refine List.flatMap_congr fun seg here => ?_
  have header := List.mem_zipIdx_iff_getElem?.mp here
  have member : seg.1 ∈ image.phdrs := List.mem_of_getElem? header
  have loadable : image.loadable.getD seg.2 false = loads seg.1 := by
    rw [accepted.loadable, List.getD_eq_getElem?_getD, List.getElem?_map, header]
    rfl
  have fromFile : FromFile image.loadable seg ↔
      seg.1.pType = ptLoad ∧ seg.1.pMemsz ≠ 0 ∧ seg.1.pFilesz ≠ 0 := by
    rw [FromFile, loadable, accepted.loads_iff member, and_assoc]
  by_cases placed : FromFile image.loadable seg ∧ Mappable w seg
  · obtain ⟨load, memory, some⟩ := fromFile.mp placed.1
    have inside := Loader.ElfFile.naClElfImageLoad_inAddressSpace accepted.loaded seg
      (Loader.ElfFile.mem_segments.mpr ⟨header, placed.1⟩)
    obtain ⟨row, -, -, -, known, -⟩ := accepted.load_segment member load memory
    obtain ⟨prot, known⟩ := Option.isSome_iff_exists.mp known
    have count : (execPart w seg).second = loadedCount seg.1 := if_pos ⟨memory, some, placed.2⟩
    rw [if_pos (by simpa using placed.1), if_pos (by simpa using placed.2),
      if_pos (by simpa using load), placement_run accepted.memStart inside known, count]
    rfl
  · have none : ¬ (seg.1.pMemsz ≠ 0 ∧ seg.1.pFilesz ≠ 0 ∧ Mappable w seg) ∨
        seg.1.pType ≠ ptLoad := by
      rw [fromFile] at placed
      tauto
    have left : (if (decide (FromFile image.loadable seg)) = true then
        (if (decide (Mappable w seg)) = true then
          ((placementOf nap seg.1 seg.2).pages.flatMap execPage).map AddPage.place else [])
        else []) = [] := by
      simp only [decide_eq_true_eq]
      rw [← ite_and, if_neg placed]
    rw [left]
    cases none with
    | inl none =>
      have count : (execPart w seg).second = 0 := if_neg none
      rw [count, addressRun_zero, ite_self]
    | inr other => rw [if_neg (by simpa using other)]

theorem known_prot (known : (runtimeProt pFlags).isSome) :
    pFlags = pfR ||| pfX ∨ pFlags = pfR ||| pfW ∨ pFlags = pfR := by
  rw [runtimeProt] at known
  split at known
  · next text => exact Or.inl text
  · split at known
    · next data => exact Or.inr (Or.inl data)
    · split at known
      · next rodata => exact Or.inr (Or.inr rodata)
      · cases known

/-- The flags of the pages tell the protections apart. -/
theorem flags_inj {pFlags' : Word 4} (known : (runtimeProt pFlags).isSome)
    (known' : (runtimeProt pFlags').isSome)
    (same : addProt pageinfoReg (loadProt pFlags) = addProt pageinfoReg (loadProt pFlags')) :
    pFlags = pFlags' := by
  rcases known_prot known with rfl | rfl | rfl <;> rcases known_prot known' with rfl | rfl | rfl
  all_goals first | rfl | exact absurd same (by decide)

theorem mem_execParts {p : PagedPart Nat} (member : p ∈ execParts w image) :
    ∃ seg, image.phdrs[seg.2]? = some seg.1 ∧ seg.1.pType = ptLoad ∧ p = execPart w seg := by
  obtain ⟨seg, there, rfl⟩ := List.mem_map.mp member
  obtain ⟨here, load⟩ := List.mem_filter.mp there
  exact ⟨seg, List.mem_zipIdx_iff_getElem?.mp here, by simpa using load, rfl⟩

theorem execPart_second {seg : Elf32Phdr × Nat} (some : (execPart w seg).second ≠ 0) :
    seg.1.pMemsz ≠ 0 ∧ (execPart w seg).second = loadedCount seg.1 := by
  by_cases placed : seg.1.pMemsz ≠ 0 ∧ seg.1.pFilesz ≠ 0 ∧ Mappable w seg
  · exact ⟨placed.1, if_pos placed⟩
  · exact absurd (if_neg placed) some

namespace Accepted

theorem tags (accepted : Accepted w nap image st) :
    (execParts w image).Pairwise fun p q => p.solid = true → q.solid = true → p.tag ≠ q.tag := by
  have distinct := accepted.each.distinct
  rw [List.pairwise_map, ← List.zipIdx_map_fst 0 image.phdrs, List.pairwise_map] at distinct
  rw [execParts, List.pairwise_map]
  refine (distinct.filter _).imp_of_mem ?_
  intro p q hp hq distinct solid solid' same
  obtain ⟨hp, load⟩ := List.mem_filter.mp hp
  obtain ⟨hq, load'⟩ := List.mem_filter.mp hq
  have load : p.1.pType = ptLoad := of_decide_eq_true load
  have load' : q.1.pType = ptLoad := of_decide_eq_true load'
  obtain ⟨row, loaded, -, -, known, -⟩ := accepted.load_segment
    (List.mem_of_getElem? (List.mem_zipIdx_iff_getElem?.mp hp)) load (of_decide_eq_true solid)
  obtain ⟨-, -, -, -, known', -⟩ := accepted.load_segment
    (List.mem_of_getElem? (List.mem_zipIdx_iff_getElem?.mp hq)) load' (of_decide_eq_true solid')
  -- the same type and protection have the same row of the table
  have flags := flags_inj known known' same
  refine distinct row loaded ?_
  have own : loadedRow (checkedFields p.1) = checkRow (checkedFields p.1) :=
    if_neg (of_decide_eq_true solid)
  have own' : loadedRow (checkedFields q.1) = checkRow (checkedFields q.1) :=
    if_neg (of_decide_eq_true solid')
  rw [← loaded, own, own', checkRow, checkRow]
  simp only [checkedFields, load, load', flags]

theorem paired (accepted : Accepted w nap image st) : Paired (execParts w image) where
  tags := accepted.tags
  second_le := by
    intro p member
    obtain ⟨seg, header, load, rfl⟩ := mem_execParts member
    by_cases none : (execPart w seg).second = 0
    · rw [none]
      exact Nat.zero_le _
    · obtain ⟨memory, count⟩ := execPart_second none
      obtain ⟨row, -, -, -, -, placed⟩ :=
        accepted.load_segment (List.mem_of_getElem? header) load memory
      have filesz : seg.1.pFilesz.toNat ≤ seg.1.pMemsz.toNat := placed.filesz
      have first : (execPart w seg).first = signedCount seg.1 := rfl
      rw [count, first, loadedCount, signedCount]
      split <;> omega
  hollow := by
    intro p member hollow
    obtain ⟨seg, -, -, rfl⟩ := mem_execParts member
    by_contra some
    exact of_decide_eq_false hollow (execPart_second some).1
  solid := by
    intro p member solid
    obtain ⟨seg, -, -, rfl⟩ := mem_execParts member
    have memory : seg.1.pMemsz.toNat ≠ 0 := fun zero =>
      of_decide_eq_true solid (BitVec.eq_of_toNat_eq zero)
    have first : (execPart w seg).first = signedCount seg.1 := rfl
    rw [first, signedCount]
    omega

/-- The executable leaves the trampolines alone. -/
theorem above (accepted : Accepted w nap image st) {x : Nat × Nat}
    (member : x ∈ layOut 0x1000 PagedPart.second (execParts w image)) :
    addrBase + naclTrampolineEnd ≤ x.1 := by
  obtain ⟨p, there, here⟩ := List.mem_flatMap.mp member
  obtain ⟨seg, header, load, rfl⟩ := mem_execParts there
  have some : (execPart w seg).second ≠ 0 := by
    intro zero
    rw [zero] at here
    cases here
  obtain ⟨row, -, -, -, -, placed⟩ := accepted.load_segment (List.mem_of_getElem? header) load
    (execPart_second some).1
  have above : naclTrampolineEnd ≤ seg.1.pVaddr.toNat := placed.above
  obtain ⟨i, -, rfl⟩ := List.mem_map.mp here
  simp only [execPart, naClTruncAllocPage, naclMapPagesize]
  rw [naclTrampolineEnd] at above ⊢
  omega

end Accepted

end Executable

/-! ## The service runtime -/

section Runtime

variable {php : Elf64Phdr} {phdrs : List Elf64Phdr} {contents : Bytes}

/-- The signer's pages of a segment. -/
def signedRuntimePages (php : Elf64Phdr) : List (Nat × Nat) :=
  (filePages php.pVaddr.toNat php.pMemsz.toNat).map fun pg =>
    (pg, addProt pageinfoReg (loadProt php.pFlags))

/-- The host's pages of a segment. -/
def hostedRuntimePages (php : Elf64Phdr) : List (Nat × Nat) :=
  (runtimePages (convertPhdr php)).map AddPage.place

def signedRuntimeCount (php : Elf64Phdr) : Nat :=
  (roundup (php.pVaddr.toNat + php.pMemsz.toNat) - rounddown php.pVaddr.toNat + 0xfff) / 0x1000

theorem signedRuntimePages_run (php : Elf64Phdr) : signedRuntimePages php =
    addressRun 0x1000 (rounddown php.pVaddr.toNat) (signedRuntimeCount php)
      (addProt pageinfoReg (loadProt php.pFlags)) := pageRange_eq ..

theorem hostedRuntimePages_run (load : php.pType = ptLoad) (known : KnownProt (convertPhdr php)) :
    hostedRuntimePages php = addressRun 0x1000 (php.pVaddr.toNat % 2 ^ 32 + baseAddr)
        (if php.pFilesz.toNat % 2 ^ 32 = 0 then 0 else (php.pMemsz.toNat % 2 ^ 32 + 0xfff) / 0x1000)
        (addProt pageinfoReg (loadProt php.pFlags)) := by
  have vaddr : (convertPhdr php).pVaddr.toNat = php.pVaddr.toNat % 2 ^ 32 :=
    Loader.ElfFile.toNat_narrow php.pVaddr
  have memsz : (convertPhdr php).pMemsz.toNat = php.pMemsz.toNat % 2 ^ 32 :=
    Loader.ElfFile.toNat_narrow php.pMemsz
  have filesz : (convertPhdr php).pFilesz.toNat = php.pFilesz.toNat % 2 ^ 32 :=
    Loader.ElfFile.toNat_narrow php.pFilesz
  have word : (convertPhdr php).pMemsz.toNat < 2 ^ 32 := BitVec.isLt _
  by_cases none : (convertPhdr php).pFilesz = 0
  · have zero : php.pFilesz.toNat % 2 ^ 32 = 0 := by
      rw [← filesz, none]
      rfl
    rw [hostedRuntimePages, runtimePages, if_neg fun some => some.2 none, if_pos zero]
    rfl
  · have pos : php.pFilesz.toNat % 2 ^ 32 ≠ 0 := fun zero =>
      none (BitVec.eq_of_toNat_eq (filesz.trans zero))
    obtain ⟨prot, found⟩ := Option.isSome_iff_exists.mp (known load none)
    rw [hostedRuntimePages, runtimePages, if_pos ⟨load, none⟩, found, Option.getD_some,
      addPagesToEnclave_run (secinfoFlags_prot found), vaddr, naClRoundPage_word word, memsz,
      if_neg pos]
    congr 1
    omega

/-- The two page lists of a segment are the same just if it is one that agrees. -/
theorem runtimeSegment_iff (load : php.pType = ptLoad) (known : KnownProt (convertPhdr php)) :
    signedRuntimePages php = hostedRuntimePages php ↔ RuntimeSegmentAgrees php := by
  have vaddr : php.pVaddr.toNat < 2 ^ 64 := php.pVaddr.isLt
  have memsz : php.pMemsz.toNat < 2 ^ 64 := php.pMemsz.isLt
  rw [signedRuntimePages_run, hostedRuntimePages_run load known, addressRun_eq_iff,
    RuntimeSegmentAgrees, signedRuntimeCount, roundup_eq, rounddown, pagesize, baseAddr]
  simp only [and_true]
  split <;> omega

/-- The host does not add more pages for a segment than the signer measures. -/
theorem length_hosted_le (load : php.pType = ptLoad) (known : KnownProt (convertPhdr php)) :
    (hostedRuntimePages php).length ≤ (signedRuntimePages php).length := by
  rw [signedRuntimePages_run, hostedRuntimePages_run load known, length_addressRun,
    length_addressRun, signedRuntimeCount, roundup_eq, rounddown, pagesize]
  split <;> omega

theorem hosted_runtime (phdrs : List Elf64Phdr) :
    ((phdrs.map convertPhdr).flatMap runtimePages).map AddPage.place =
      (phdrs.filter fun php => php.pType = ptLoad).flatMap hostedRuntimePages := by
  rw [List.map_flatMap, List.flatMap_map, flatMap_filter_eq]
  refine List.flatMap_congr fun php _ => ?_
  by_cases load : php.pType = ptLoad
  · rw [if_pos (decide_eq_true load)]
    rfl
  · have other : ¬ ((convertPhdr php).pType = ptLoad ∧ (convertPhdr php).pFilesz ≠ 0) :=
      fun some => load some.1
    rw [if_neg (by simpa using load), runtimePages, if_neg other]
    rfl

/-- The signer's pages of a service runtime with segments. -/
theorem signed_runtime (load : ∃ php ∈ phdrs, php.pType = ptLoad) (contents : Bytes) :
    (fileArea (runtimeFile phdrs contents) pageinfoReg runtimeBase).pages =
      (phdrs.filter fun php => php.pType = ptLoad).flatMap signedRuntimePages := by
  obtain ⟨php, member, load⟩ := load
  have some : (runtimeFile phdrs contents).loadcmds ≠ [] := by
    rw [runtimeFile, ne_eq, List.map_eq_nil_iff]
    exact List.ne_nil_of_mem (List.mem_filter.mpr ⟨member, decide_eq_true load⟩)
  rw [fileArea_pages some, runtimeFile, List.flatMap_map]
  rfl

/-- A file without segments is measured as a whole. -/
theorem signed_whole (none : ¬ ∃ php ∈ phdrs, php.pType = ptLoad) (contents : Bytes) :
    (fileArea (runtimeFile phdrs contents) pageinfoReg runtimeBase).pages =
      addressRun 0x1000 runtimeBase ((contents.length + 0xfff) / 0x1000) pageinfoReg := by
  have empty : (runtimeFile phdrs contents).loadcmds = [] := by
    rw [runtimeFile, List.map_eq_nil_iff, List.filter_eq_nil_iff]
    intro php member load
    exact none ⟨php, member, of_decide_eq_true load⟩
  rw [fileArea, if_neg (not_not.mpr empty), MemoryArea.pages]
  dsimp only
  rw [if_neg Bool.false_ne_true, filePages, pageRange_eq,
    rounddown_of_aligned (by decide : rounddown runtimeBase % 0x1000 = 0)]
  have base : rounddown runtimeBase = runtimeBase := rfl
  have aligned : runtimeBase % 0x1000 = 0 := by decide
  rw [base, roundup_eq, roundup_eq]
  have count : ((runtimeBase + (contents.length + 0xfff) / 0x1000 * 0x1000 + 0xfff) / 0x1000 *
      0x1000 - runtimeBase + 0xfff) / 0x1000 = (contents.length + 0xfff) / 0x1000 := by
    omega
  exact addressRun_eq_iff.mpr ⟨count, Or.inr ⟨rfl, rfl⟩⟩

/-- The two page lists of a service runtime, and which is the longer one. -/
theorem runtime_iff (known : ∀ php ∈ phdrs, KnownProt (convertPhdr php)) (contents : Bytes) :
    (((phdrs.map convertPhdr).flatMap runtimePages).map AddPage.place).length ≤
        (fileArea (runtimeFile phdrs contents) pageinfoReg runtimeBase).pages.length ∧
      ((fileArea (runtimeFile phdrs contents) pageinfoReg runtimeBase).pages =
          ((phdrs.map convertPhdr).flatMap runtimePages).map AddPage.place ↔
        RuntimeAgrees phdrs contents) := by
  rw [hosted_runtime, RuntimeAgrees]
  by_cases some : ∃ php ∈ phdrs, php.pType = ptLoad
  · rw [signed_runtime some]
    have each : ∀ php ∈ phdrs.filter (fun php => php.pType = ptLoad),
        php.pType = ptLoad ∧ KnownProt (convertPhdr php) := by
      intro php member
      obtain ⟨member, load⟩ := List.mem_filter.mp member
      exact ⟨of_decide_eq_true load, known php member⟩
    have shorter : ∀ php ∈ phdrs.filter (fun php => php.pType = ptLoad),
        (hostedRuntimePages php).length ≤ (signedRuntimePages php).length := fun php member =>
      length_hosted_le (each php member).1 (each php member).2
    refine ⟨length_flatMap_le shorter, ?_⟩
    rw [flatMap_eq_iff shorter, and_iff_right (Or.inl some)]
    simp only [List.mem_filter, decide_eq_true_eq, and_imp]
    exact forall₃_congr fun php member load => runtimeSegment_iff load (known php member)
  · have empty : phdrs.filter (fun php => php.pType = ptLoad) = [] := by
      rw [List.filter_eq_nil_iff]
      intro php member load
      exact some ⟨php, member, of_decide_eq_true load⟩
    rw [signed_whole some, empty, List.flatMap_nil, or_iff_right some]
    refine ⟨Nat.zero_le _, ?_⟩
    have all : ∀ php ∈ phdrs, php.pType = ptLoad → RuntimeSegmentAgrees php :=
      fun php member load => absurd ⟨php, member, load⟩ some
    rw [and_iff_left all, ← List.length_eq_zero_iff, length_addressRun, ← List.length_eq_zero_iff]
    omega

end Runtime

/-! ## The whole enclave -/

theorem dataArea_pages (aligned : addr % 0x1000 = 0) (size : Nat) :
    (memoryArea size (pageinfoR ||| pageinfoW ||| pageinfoReg) addr).pages =
      (addPagesToEnclave addr size .reg (protRead + protWrite) true).map AddPage.place := by
  rw [memoryArea_run aligned, addPagesToEnclave_run (by rfl)]
  rfl

/-- The trampolines and the stack of the application. -/
theorem fixed_pages : measuredPages [trampolineArea, naclStackArea] =
    (naClLoadTrampoline ++ nacLStack).map AddPage.place := by
  have trampoline : trampolineArea.pages = naClLoadTrampoline.map AddPage.place := by
    rw [trampolineArea, memoryArea_run (by decide), naClLoadTrampoline,
      addPagesToEnclave_run (by rfl)]
    rfl
  have stack : naclStackArea.pages = nacLStack.map AddPage.place := dataArea_pages (by decide) _
  rw [measuredPages, List.flatMap_cons, List.flatMap_cons, List.flatMap_nil, List.append_nil,
    trampoline, stack, List.map_append]

theorem thread_pages : measuredPages (threadAreas 1) = threadPages.map AddPage.place := by
  have tcs : (memoryArea 0x1000 pageinfoTcs 0xc30001000).pages =
      (addPagesToEnclave tcsAddr 0x1000 .tcs 0 true).map AddPage.place := by
    rw [memoryArea_run (by decide), addPagesToEnclave_run (by rfl)]
    rfl
  rw [threadAreas_one, measuredPages, threadPages]
  simp only [List.flatMap_cons, List.flatMap_nil, List.append_nil, List.map_append,
    List.append_assoc]
  rw [tcs, dataArea_pages (by decide), dataArea_pages (by decide), dataArea_pages (by decide),
    dataArea_pages (by decide)]
  rfl

theorem fixed_head : (measuredPages [trampolineArea, naclStackArea]).head? =
    some (addrBase + addrTrampStart, pageinfoR ||| pageinfoX ||| pageinfoReg) := by
  have trampoline : trampolineArea.pages = addressRun 0x1000 (addrBase + addrTrampStart) (15 + 1)
      (pageinfoR ||| pageinfoX ||| pageinfoReg) := by
    rw [trampolineArea, memoryArea_run (by decide)]
  rw [measuredPages, List.flatMap_cons, trampoline, addressRun_succ, List.cons_append,
    List.head?_cons]

section Whole

variable {w : World} {nap : LoadApp} {image : NaClElfImage} {st : Loading}
  {phdrs : List Elf64Phdr} {contents : Bytes}

theorem signed_sections (w : World) (image : NaClElfImage) (phdrs : List Elf64Phdr)
    (contents : Bytes) :
    measuredPages (getMemoryAreas ⟨1, execFile image w.file, runtimeFile phdrs contents⟩) =
      layOut 0x1000 PagedPart.first (execParts w image) ++
        (measuredPages [trampolineArea, naclStackArea] ++
          ((fileArea (runtimeFile phdrs contents) pageinfoReg runtimeBase).pages ++
            measuredPages (threadAreas 1))) := by
  rw [← signed_exec w image w.file, getMemoryAreas]
  simp [measuredPages]

theorem Accepted.hosted_sections (accepted : Accepted w nap image st) (runtime : List AddPage) :
    (hostPages st runtime).map AddPage.place = layOut 0x1000 PagedPart.second (execParts w image) ++
        (measuredPages [trampolineArea, naclStackArea] ++
          (runtime.map AddPage.place ++ measuredPages (threadAreas 1))) := by
  rw [fixed_pages, thread_pages, ← accepted.hosted_exec, hostPages, naClLoadSGXSpecific]
  simp only [List.map_append, List.append_assoc]

/-- The signed pages are those of the enclave just if the signer and the loader agree on the
    executable and on the service runtime. -/
theorem measuredPages_eq_hostPages_iff {runtime : List AddPage}
    (accepted : Accepted w nap image st)
    (loaded : naClElfImageLoadServiceRuntime contents (phdrs.map convertPhdr) = .ok runtime) :
    measuredPages (getMemoryAreas ⟨1, execFile image w.file, runtimeFile phdrs contents⟩) =
        (hostPages st runtime).map AddPage.place ↔
      InStep 0x1000 none (execParts w image) ∧ RuntimeAgrees phdrs contents := by
  obtain ⟨rfl, known⟩ := naClElfImageLoadServiceRuntime_pages loaded
  have known : ∀ php ∈ phdrs, KnownProt (convertPhdr php) := fun php member =>
    known _ (List.mem_map_of_mem member)
  obtain ⟨shorter, agrees⟩ := runtime_iff known contents
  have exec : layOut 0x1000 PagedPart.first (execParts w image) =
      layOut 0x1000 PagedPart.second (execParts w image) ↔ InStep 0x1000 none (execParts w image) :=
    @inStep_iff _ _ _ (by decide) none accepted.paired (by simp)
  have absent : (addrBase + addrTrampStart, pageinfoR ||| pageinfoX ||| pageinfoReg) ∉
      layOut 0x1000 PagedPart.second (execParts w image) := fun there =>
    absurd (accepted.above there) (by decide)
  rw [signed_sections, accepted.hosted_sections, append_mark_iff fixed_head absent shorter, exec,
    agrees]

end Whole

/-! ### An executable with zeroed data -/

/-- A data segment of 32 bytes that takes up two pages of memory. -/
def bssHeader : Elf32Phdr where
  pType := ptLoad
  pOffset := 0
  pVaddr := 0x10000000
  pPaddr := 0
  pFilesz := 32
  pMemsz := 0x2000
  pFlags := pfR ||| pfW
  pAlign := 0

def bssImage : NaClElfImage :=
  ⟨Loader.ElfFile.strayHeader 0, [Loader.ElfFile.textHeader, bssHeader], [true, true]⟩

/-- One page of text and one of data. -/
def bssLoading : Loading where
  pages := [⟨0, 0x100020000, 0, protRead + protExec⟩, ⟨1, 0x110000000, 0, protRead + protWrite⟩]
  prevalidated := true

/-- A service runtime of one page, at 48 GiB. -/
def smallRuntime : List Elf64Phdr := [⟨ptLoad, pfR ||| pfX, 0, 0xc00000000, 0, 1, 1, 0⟩]

theorem load_smallRuntime : naClElfImageLoadServiceRuntime [0xc3] (smallRuntime.map convertPhdr) =
    .ok [⟨0xc00000000, 0x205, 0⟩] := by
  decide +kernel

theorem accepted_bssImage :
    Accepted (Loader.ElfFile.textWorld true) Loader.ElfFile.textApp bssImage bssLoading where
  headers := ⟨0, _, by rfl⟩
  loadable := by decide +kernel
  loaded := by decide +kernel
  memStart := by decide
  described := by decide +kernel

theorem runtimeAgrees_smallRuntime : RuntimeAgrees smallRuntime [0xc3] := by
  refine ⟨Or.inl ⟨_, List.mem_cons_self, rfl⟩, fun php member _ => ?_⟩
  obtain rfl := List.mem_singleton.mp member
  exact ⟨by decide, Or.inr ⟨by decide, by decide, by decide⟩⟩

theorem measuredPages_eq_hostPages_iff_bss :
    measuredPages (getMemoryAreas ⟨1, execFile bssImage (Loader.ElfFile.textWorld true).file,
        runtimeFile smallRuntime [0xc3]⟩) =
        (hostPages bssLoading [⟨0xc00000000, 0x205, 0⟩]).map AddPage.place ↔
      InStep 0x1000 none (execParts (Loader.ElfFile.textWorld true) bssImage) ∧
        RuntimeAgrees smallRuntime [0xc3] :=
  measuredPages_eq_hostPages_iff accepted_bssImage load_smallRuntime

/-- The second page of the data is signed, and never added. -/
theorem measuredPages_ne_hostPages_bss :
    Accepted (Loader.ElfFile.textWorld true) Loader.ElfFile.textApp bssImage bssLoading ∧
      naClElfImageLoadServiceRuntime [0xc3] (smallRuntime.map convertPhdr) =
        .ok [⟨0xc00000000, 0x205, 0⟩] ∧
      measuredPages (getMemoryAreas ⟨1, execFile bssImage (Loader.ElfFile.textWorld true).file,
        runtimeFile smallRuntime [0xc3]⟩) ≠
        (hostPages bssLoading [⟨0xc00000000, 0x205, 0⟩]).map AddPage.place := by
  refine ⟨accepted_bssImage, load_smallRuntime, fun same => ?_⟩
  obtain ⟨pages, known⟩ := naClElfImageLoadServiceRuntime_pages load_smallRuntime
  have runtime := (runtime_iff (fun php member => known _ (List.mem_map_of_mem member)) [0xc3]).2.mpr
    runtimeAgrees_smallRuntime
  rw [signed_sections, accepted_bssImage.hosted_sections, pages, runtime] at same
  exact absurd (List.append_cancel_right same) (by decide +kernel)

end SandboxTEE.Measurement
