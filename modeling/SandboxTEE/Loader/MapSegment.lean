import Mathlib.Data.List.Enum
import SandboxTEE.Loader.ElfFile

/-! # Placing the segments (`NaClElfFileMapSegment`, `NaClElfImageLoad` in `elf_util_usgx.c`)

The loader on the host maps each segment of the executable and adds the pages of the mapping to
the enclave.  Where it cannot map, or the text does not pass the validator, it asks for a fallback
that reads the segment.  There is none: the segment is left out, and the load goes on
(`naClElfImageLoad_placed_iff`).
-/

namespace SandboxTEE.Loader.ElfFile

open SandboxTEE.Lib

/-! ## What the loader works with -/

def protRead : Nat := 1
def protWrite : Nat := 2
def protExec : Nat := 4

/-- A page of the enclave: where it stands, what part of the file it is a copy of, its protection,
    and the segment it was added for. -/
structure Page where
  segnum : Nat
  addr : Nat
  offset : Nat
  prot : Nat
deriving DecidableEq

/-- The file behind the descriptor, and how each call ends that is made for a segment. -/
structure World where
  /-- The descriptor is one of type `NACL_DESC_HOST_IO`. -/
  hostIo : Bool
  file : Bytes
  /-- The first `Map` of a text segment, for the validator. -/
  scratchMap : Nat → Bool
  map : Nat → Bool
  /-- The validator, or its cache, on code at an address. -/
  validate : Nat → Bytes → Bool
  /-- The driver takes a page, beside those that it has. -/
  addPage : List Page → Page → Bool

/-- The fields of `struct NaClApp` that are read. -/
structure LoadApp where
  memStart : Nat
  addrBits : Nat
  staticTextEnd : Nat

/-- The pages in the enclave, and `main_exe_prevalidated`. -/
structure Loading where
  pages : List Page := []
  prevalidated : Bool := false
deriving DecidableEq

/-- `LOAD_OK`, `LOAD_STATUS_UNKNOWN`, or another error code. -/
inductive MapStatus where
  | ok
  | unknown
  | error (code : NaClErrorCode)

/-! ## `NaClElfFileMapSegment` -/

/-- What a mapping of the file shows: zeros behind its end. -/
def mappedBytes (file : Bytes) (size offset : Nat) : Bytes :=
  (List.range size).map fun i => file.getD (offset + i) 0

/-- No page of the mapping is behind the end of the file as a whole. -/
def backed (file : Bytes) (size offset : Nat) : Bool := offset + size ≤ naClRoundPage file.length

/-! ### `add_pages_to_enclave` (`sgx_interface.c`) -/

/-- A range of the file, and where its pages come to stand in the enclave. -/
structure Placement where
  segnum : Nat
  addr : Nat
  offset : Nat
  size : Nat
  prot : Nat

def pagesize : Nat := 0x1000

def Placement.page (pl : Placement) (i : Nat) : Page :=
  ⟨pl.segnum, pl.addr + i * pagesize, pl.offset + i * pagesize, pl.prot⟩

/-- The pages of the loop `while (added_size < size)`. -/
def Placement.pages (pl : Placement) : List Page :=
  (List.range ((pl.size + pagesize - 1) / pagesize)).map pl.page

/-- `SGX_IOC_ENCLAVE_ADD_PAGE`, which also reads the page of the mapping. -/
def addPage (w : World) (pages : List Page) (page : Page) : Except Stop (List Page) :=
  if backed w.file pagesize page.offset = true ∧ w.addPage pages page = true then
    .ok (pages ++ [page])
  else .error (.fatal "NaClElfFileMapSegment: add_pages_to_enclave failed")

def addPagesToEnclave (w : World) (pages : List Page) (pl : Placement) : Except Stop (List Page) :=
  pl.pages.foldlM (addPage w) pages

/-! ### The segment -/

/-- The case of a text segment. -/
def checkText (w : World) (nap : LoadApp) (segnum fileOffset segmentSize pVaddr : Nat) :
    Except Stop MapStatus :=
  if w.hostIo = false then .ok .unknown
  else if w.scratchMap segnum = false then .ok .unknown
  else if segmentSize ≠ wordSub nap.staticTextEnd naclTrampolineEnd then
    .error (.fatal "segment_size == nap->static_text_end - NACL_TRAMPOLINE_END")
  else if backed w.file segmentSize fileOffset = false then .error (.fatal "SIGBUS")
  else if w.validate (naClTruncAllocPage pVaddr) (mappedBytes w.file segmentSize fileOffset) then
    .ok .ok
  else .ok .unknown

/-- `rounded_filesz`, with the page more for some alignments. -/
def roundedFilesz (segmentSize pVaddr : Nat) : Nat :=
  if segmentSize % 0x1000 + pVaddr % 0x1000 > 0x1000 then naClRoundPage segmentSize + 0x1000
  else naClRoundPage segmentSize

/-- `sgx_addr`, where the enclave's own base is 0. -/
def sgxAddr (paddr : Nat) : Nat := paddr % 2 ^ 32 + 0x100000000

/-- The part behind the switch. -/
def addSegment (w : World) (pl : Placement) (st : Loading) : Except Stop (MapStatus × Loading) :=
  if pl.size = 0 then .ok (.ok, st)
  else if w.map pl.segnum = false then .ok (.unknown, st)
  else do
    let pages ← addPagesToEnclave w st.pages pl
    .ok (.ok, { st with pages })

def naClElfFileMapSegment (w : World) (nap : LoadApp) (segnum : Nat) (pFlags : Word 4)
    (fileOffset segmentSize pVaddr paddr : Nat) (st : Loading) :
    Except Stop (MapStatus × Loading) :=
  let pl prot : Placement :=
    ⟨segnum, sgxAddr paddr, fileOffset, roundedFilesz segmentSize pVaddr, prot⟩
  if pFlags = pfR ||| pfX then do
    match ← checkText w nap segnum fileOffset segmentSize pVaddr with
    | .ok => addSegment w (pl (protRead + protExec)) { st with prevalidated := true }
    | status => .ok (status, st)
  else if pFlags = pfR ||| pfW then addSegment w (pl (protRead + protWrite)) st
  else if pFlags = pfR then addSegment w (pl protRead) st
  else .error (.fatal "NaClElfFileMapSegment: unexpected p_flags")

/-! ## `NaClElfImageLoad` -/

/-- `kNaClBadAddress` is none. -/
def naClUserToSysAddr (nap : LoadApp) (uaddr : Nat) : Option Nat :=
  if uaddr = 0 ∨ 2 ^ nap.addrBits ≤ uaddr then none else some (uaddr + nap.memStart)

/-- `offset` -/
def Elf32Phdr.fileOffset (php : Elf32Phdr) : Nat := naClTruncAllocPage php.pOffset.toNat

/-- `filesz`, in 32 bits. -/
def Elf32Phdr.segmentSize (php : Elf32Phdr) : Nat :=
  (php.pOffset + php.pFilesz - BitVec.ofNat 32 php.fileOffset).toNat

/-- `end_vaddr`, in 32 bits. -/
def Elf32Phdr.endVaddr (php : Elf32Phdr) : Nat := (php.pVaddr + php.pFilesz).toNat

def loadSegment (w : World) (nap : LoadApp) (loadable : List Bool) (st : Loading) :
    Elf32Phdr × Nat → Except Stop Loading
  | (php, segnum) =>
    if loadable.getD segnum false = false then .ok st
    else if php.pFilesz = 0 then .ok st
    else if php.endVaddr < php.pVaddr.toNat ∨ 2 ^ nap.addrBits ≤ php.endVaddr then
      .error (.fatal "parameter error should have been detected already")
    else match naClUserToSysAddr nap (naClTruncAllocPage php.pVaddr.toNat) with
      | none => .error (.fatal "kNaClBadAddress != paddr")
      | some paddr => do
        let (status, st) ← naClElfFileMapSegment w nap segnum php.pFlags php.fileOffset
          php.segmentSize php.pVaddr.toNat paddr st
        match status with
        | .ok => .ok st
        | .error code => .error (.code code)
        -- "pread-based fallback requested", and nothing is done
        | .unknown => .ok st

/-- `LOAD_OK` is a result. -/
def naClElfImageLoad (w : World) (nap : LoadApp) (image : NaClElfImage) : Except Stop Loading :=
  image.phdrs.zipIdx.foldlM (loadSegment w nap image.loadable) {}

/-! ## What is placed -/

/-- The protection of the pages of a segment. -/
def protOf (pFlags : Word 4) : Nat :=
  if pFlags = pfR ||| pfX then protRead + protExec
  else if pFlags = pfR ||| pfW then protRead + protWrite
  else protRead

/-- Where a segment belongs. -/
def placementOf (nap : LoadApp) (php : Elf32Phdr) (segnum : Nat) : Placement where
  segnum := segnum
  addr := sgxAddr (naClTruncAllocPage php.pVaddr.toNat + nap.memStart)
  offset := php.fileOffset
  size := roundedFilesz php.segmentSize php.pVaddr.toNat
  prot := protOf php.pFlags

/-- A segment to be loaded from the file. -/
def FromFile (loadable : List Bool) (seg : Elf32Phdr × Nat) : Prop :=
  loadable.getD seg.2 false = true ∧ seg.1.pFilesz ≠ 0

instance (loadable : List Bool) (seg : Elf32Phdr × Nat) : Decidable (FromFile loadable seg) :=
  inferInstanceAs (Decidable (_ ∧ _))

/-- The segments that are loaded from the file, with their numbers. -/
def NaClElfImage.segments (image : NaClElfImage) : List (Elf32Phdr × Nat) :=
  image.phdrs.zipIdx.filter fun seg => FromFile image.loadable seg

/-- The text of a segment passes the validator. -/
def Validates (w : World) (php : Elf32Phdr) : Prop :=
  w.validate (naClTruncAllocPage php.pVaddr.toNat)
    (mappedBytes w.file php.segmentSize php.fileOffset) = true

/-- The loader can map the file, and for the text the validator as well, which accepts it. -/
def Mappable (w : World) (seg : Elf32Phdr × Nat) : Prop :=
  w.map seg.2 = true ∧ (seg.1.pFlags = pfR ||| pfX →
    w.hostIo = true ∧ w.scratchMap seg.2 = true ∧ Validates w seg.1)

instance (w : World) (seg : Elf32Phdr × Nat) : Decidable (Mappable w seg) :=
  inferInstanceAs (Decidable (_ = _ ∧ (_ → _ ∧ _ ∧ w.validate _ _ = true)))

/-- All pages of each segment are in the enclave, and the text was validated. -/
def AllPlaced (w : World) (nap : LoadApp) (image : NaClElfImage) (st : Loading) : Prop :=
  ∀ seg ∈ image.segments, (placementOf nap seg.1 seg.2).pages ⊆ st.pages ∧
    (seg.1.pFlags = pfR ||| pfX → Validates w seg.1)

section Placing

variable {w : World} {nap : LoadApp} {st st' : Loading} {php : Elf32Phdr} {segnum : Nat}

variable {status : MapStatus}

/-- The text check passes just if the file can be mapped for the validator, which accepts it. -/
theorem checkText_cases {fileOffset segmentSize pVaddr : Nat}
    (run : checkText w nap segnum fileOffset segmentSize pVaddr = .ok status) :
    (status = .ok ∧ w.hostIo = true ∧ w.scratchMap segnum = true ∧
      w.validate (naClTruncAllocPage pVaddr) (mappedBytes w.file segmentSize fileOffset) = true) ∨
    (status = .unknown ∧ ¬ (w.hostIo = true ∧ w.scratchMap segnum = true ∧
      w.validate (naClTruncAllocPage pVaddr) (mappedBytes w.file segmentSize fileOffset) = true)) := by
  rw [checkText] at run
  split at run
  · next other =>
    cases run
    exact Or.inr ⟨rfl, fun h => absurd h.1 (by simp [other])⟩
  · next hostIo =>
    split at run
    · next failed =>
      cases run
      exact Or.inr ⟨rfl, fun h => absurd h.2.1 (by simp [failed])⟩
    · next scratch =>
      split at run
      · cases run
      · split at run
        · cases run
        · split at run
          · next valid =>
            cases run
            exact Or.inl ⟨rfl, by simpa using hostIo, by simpa using scratch, valid⟩
          · next invalid =>
            cases run
            exact Or.inr ⟨rfl, fun h => invalid h.2.2⟩

/-- A call that returns has added all pages, one after the other. -/
theorem addPagesToEnclave_eq {pages pages' : List Page} {pl : Placement}
    (run : addPagesToEnclave w pages pl = .ok pages') : pages' = pages ++ pl.pages := by
  refine foldlM_done (R := fun done pages' => pages' = pages ++ done) ?_ (by simp) run
  rintro done now page later rfl step
  rw [addPage] at step
  split at step
  · cases step
    rw [List.append_assoc]
  · cases step

/-- A placement of some size is added, or the file could not be mapped. -/
theorem addSegment_cases {pl : Placement} (some : pl.size ≠ 0)
    (run : addSegment w pl st = .ok (status, st')) : (status = .ok ∧ w.map pl.segnum = true ∧
      addPagesToEnclave w st.pages pl = .ok st'.pages) ∨
    (status = .unknown ∧ w.map pl.segnum = false ∧ st'.pages = st.pages) := by
  rw [addSegment, if_neg some] at run
  split at run
  · next failed =>
    cases run
    exact Or.inr ⟨rfl, failed, rfl⟩
  · next mapped =>
    obtain ⟨pages, added, run⟩ := bind_eq_ok run
    cases run
    exact Or.inl ⟨rfl, by simpa using mapped, added⟩

/-- `NaClElfFileMapSegment` handles a segment, and adds its pages, or reports that it cannot. -/
theorem naClElfFileMapSegment_cases {pFlags : Word 4} {fileOffset segmentSize pVaddr paddr : Nat}
    (pages : roundedFilesz segmentSize pVaddr ≠ 0)
    (run : naClElfFileMapSegment w nap segnum pFlags fileOffset segmentSize pVaddr paddr st =
      .ok (status, st')) : let pl : Placement :=
      ⟨segnum, sgxAddr paddr, fileOffset, roundedFilesz segmentSize pVaddr, protOf pFlags⟩
    let mappable := w.map segnum = true ∧ (pFlags = pfR ||| pfX → w.hostIo = true ∧
      w.scratchMap segnum = true ∧ w.validate (naClTruncAllocPage pVaddr)
        (mappedBytes w.file segmentSize fileOffset) = true)
    (status = .ok ∧ mappable ∧ addPagesToEnclave w st.pages pl = .ok st'.pages) ∨
    (status = .unknown ∧ ¬ mappable ∧ st'.pages = st.pages) := by
  intro pl mappable
  unfold naClElfFileMapSegment at run
  dsimp only at run
  split at run
  · next text =>
    have prot : protOf pFlags = protRead + protExec := if_pos text
    obtain ⟨checked, check, run⟩ := bind_eq_ok run
    rcases checkText_cases check with ⟨rfl, accepted⟩ | ⟨rfl, refused⟩
    · have added := addSegment_cases pages run
      rw [← prot] at added
      rcases added with ⟨done, map, rest⟩ | ⟨undone, map, rest⟩
      · exact Or.inl ⟨done, ⟨map, fun _ => accepted⟩, rest⟩
      · exact Or.inr ⟨undone, fun h => absurd h.1 (by simp [map]), rest⟩
    · cases run
      exact Or.inr ⟨rfl, fun h => refused (h.2 text), rfl⟩
  · next other =>
    have plain : mappable ↔ w.map segnum = true :=
      and_iff_left fun text => absurd text other
    -- data and read-only segments are added as they are
    have added : ∀ prot, protOf pFlags = prot →
        addSegment w ⟨segnum, sgxAddr paddr, fileOffset, roundedFilesz segmentSize pVaddr, prot⟩
          st = .ok (status, st') →
        (status = .ok ∧ mappable ∧ addPagesToEnclave w st.pages pl = .ok st'.pages) ∨
        (status = .unknown ∧ ¬ mappable ∧ st'.pages = st.pages) := by
      rintro prot rfl added
      rw [plain]
      rcases addSegment_cases pages added with done | ⟨undone, map, rest⟩
      · exact Or.inl done
      · exact Or.inr ⟨undone, by simp [map], rest⟩
    split at run
    · next data =>
      refine added _ ?_ run
      rw [protOf, if_neg other, if_pos data]
    · next notData =>
      split at run
      · refine added _ ?_ run
        rw [protOf, if_neg other, if_neg notData]
      · cases run

/-- A segment that ends within the address space and does not begin in its first 64k. -/
structure InAddressSpace (nap : LoadApp) (php : Elf32Phdr) : Prop where
  noWrap : ¬ php.endVaddr < php.pVaddr.toNat
  ends : php.endVaddr < 2 ^ nap.addrBits
  above : naClTruncAllocPage php.pVaddr.toNat ≠ 0

theorem InAddressSpace.segmentSize_eq (inside : InAddressSpace nap php) :
    php.segmentSize = php.pOffset.toNat % naclMapPagesize + php.pFilesz.toNat := by
  have noWrap := inside.noWrap
  have above := inside.above
  have filesz : php.pFilesz.toNat < 2 ^ 32 := php.pFilesz.isLt
  have offset : php.pOffset.toNat < 2 ^ 32 := php.pOffset.isLt
  have vaddr : php.pVaddr.toNat < 2 ^ 32 := php.pVaddr.isLt
  rw [Elf32Phdr.endVaddr, BitVec.toNat_add] at noWrap
  rw [naClTruncAllocPage, naclMapPagesize] at above
  rw [Elf32Phdr.segmentSize, Elf32Phdr.fileOffset, naClTruncAllocPage, naclMapPagesize,
    BitVec.toNat_sub, BitVec.toNat_add, BitVec.toNat_ofNat]
  omega

theorem InAddressSpace.le_size (inside : InAddressSpace nap php) :
    php.segmentSize ≤ (placementOf nap php segnum).size := by
  have size := inside.segmentSize_eq
  have small : php.pFilesz.toNat < 2 ^ 32 := php.pFilesz.isLt
  rw [naclMapPagesize] at size
  have rounded : php.segmentSize ≤ naClRoundPage php.segmentSize := by
    rw [naClRoundPage, naclPagesize]
    omega
  rw [placementOf, roundedFilesz]
  dsimp only
  split
  · omega
  · exact rounded

theorem InAddressSpace.size_ne_zero (inside : InAddressSpace nap php) (some : php.pFilesz ≠ 0) :
    (placementOf nap php segnum).size ≠ 0 := by
  have pos : php.pFilesz.toNat ≠ 0 := fun zero => some (BitVec.eq_of_toNat_eq zero)
  have size := inside.segmentSize_eq
  have := @InAddressSpace.le_size nap php segnum inside
  omega

/-- A step of the load: a segment is passed by, or placed, or left out. -/
theorem loadSegment_cases {loadable : List Bool}
    (run : loadSegment w nap loadable st (php, segnum) = .ok st') :
    (¬ FromFile loadable (php, segnum) ∧ st' = st) ∨
    (FromFile loadable (php, segnum) ∧ InAddressSpace nap php ∧ ((Mappable w (php, segnum) ∧
        addPagesToEnclave w st.pages (placementOf nap php segnum) = .ok st'.pages) ∨
      (¬ Mappable w (php, segnum) ∧ st'.pages = st.pages))) := by
  rw [loadSegment] at run
  split at run
  · next unloadable =>
    cases run
    exact Or.inl ⟨fun h => absurd h.1 (by simp only [unloadable]; decide), rfl⟩
  · next isLoadable =>
    have isLoadable : loadable.getD segnum false = true := by simpa using isLoadable
    split at run
    · next empty =>
      cases run
      exact Or.inl ⟨fun h => h.2 empty, rfl⟩
    · next some =>
      refine Or.inr ⟨⟨isLoadable, some⟩, ?_⟩
      split at run
      · cases run
      · next bounds =>
        split at run
        · cases run
        · next paddr found =>
          obtain ⟨⟨status, st₁⟩, mapped, run⟩ := bind_eq_ok run
          rw [naClUserToSysAddr] at found
          split at found
          · cases found
          · next valid =>
            obtain rfl := Option.some.inj found
            have inside : InAddressSpace nap php :=
              ⟨(not_or.mp bounds).1, Nat.not_le.mp (not_or.mp bounds).2, (not_or.mp valid).1⟩
            have pages := @InAddressSpace.size_ne_zero nap php segnum inside some
            refine ⟨inside, ?_⟩
            rcases naClElfFileMapSegment_cases pages mapped with
              ⟨rfl, mappable, rest⟩ | ⟨rfl, unmappable, rest⟩
            · cases run
              exact Or.inl ⟨mappable, rest⟩
            · cases run
              exact Or.inr ⟨unmappable, rest⟩

/-- The pages of the segments among these that can be mapped. -/
def segmentPages (w : World) (nap : LoadApp) (loadable : List Bool)
    (segs : List (Elf32Phdr × Nat)) : List Page :=
  ((segs.filter fun seg => FromFile loadable seg).filter fun seg => Mappable w seg).flatMap
    fun seg => (placementOf nap seg.1 seg.2).pages

theorem segmentPages_concat (loadable : List Bool) (segs : List (Elf32Phdr × Nat))
    (seg : Elf32Phdr × Nat) : segmentPages w nap loadable (segs ++ [seg]) =
      segmentPages w nap loadable segs ++
        if FromFile loadable seg ∧ Mappable w seg then (placementOf nap seg.1 seg.2).pages
        else [] := by
  rw [segmentPages, List.filter_append, List.filter_append, List.flatMap_append, ← segmentPages]
  by_cases fromFile : FromFile loadable seg
  · by_cases mappable : Mappable w seg
    · simp [fromFile, mappable]
    · simp [fromFile, mappable]
  · simp [fromFile]

variable {image : NaClElfImage}

/-- The pages that a load leaves are those of the segments that it could map. -/
theorem naClElfImageLoad_pages (run : naClElfImageLoad w nap image = .ok st) :
    st.pages = segmentPages w nap image.loadable image.phdrs.zipIdx := by
  refine foldlM_done (R := fun done st => st.pages = segmentPages w nap image.loadable done) ?_
    rfl run
  rintro done st ⟨php, segnum⟩ st' before step
  rw [segmentPages_concat]
  rcases loadSegment_cases step with ⟨other, rfl⟩ | ⟨fromFile, -, ⟨mappable, added⟩ |
      ⟨unmappable, same⟩⟩
  · rw [if_neg (fun h => other h.1), List.append_nil, before]
  · rw [if_pos ⟨fromFile, mappable⟩, addPagesToEnclave_eq added, before]
  · rw [if_neg (fun h => unmappable h.2), List.append_nil, same, before]

theorem mem_segments {seg : Elf32Phdr × Nat} :
    seg ∈ image.segments ↔ image.phdrs[seg.2]? = some seg.1 ∧ FromFile image.loadable seg := by
  rw [NaClElfImage.segments, List.mem_filter, List.mem_zipIdx_iff_getElem?, decide_eq_true_eq]

theorem mem_segmentPages {page : Page} :
    page ∈ segmentPages w nap image.loadable image.phdrs.zipIdx ↔
      ∃ seg ∈ image.segments, Mappable w seg ∧ page ∈ (placementOf nap seg.1 seg.2).pages := by
  rw [segmentPages, List.mem_flatMap, ← NaClElfImage.segments]
  simp only [List.mem_filter, decide_eq_true_eq, and_assoc]

/-- The number tells the segments of an image apart. -/
theorem segments_unique {seg seg' : Elf32Phdr × Nat} (member : seg ∈ image.segments)
    (member' : seg' ∈ image.segments) (same : seg.2 = seg'.2) : seg = seg' := by
  have header := (mem_segments.mp member').1.symm.trans (same ▸ (mem_segments.mp member).1)
  exact Prod.ext (Option.some.inj header).symm same

/-- A load ends with `LOAD_OK` only if its segments are in the address space. -/
theorem naClElfImageLoad_inAddressSpace (run : naClElfImageLoad w nap image = .ok st) :
    ∀ seg ∈ image.segments, InAddressSpace nap seg.1 := by
  suffices all : ∀ seg ∈ image.phdrs.zipIdx, FromFile image.loadable seg →
      InAddressSpace nap seg.1 by
    intro seg member
    rw [NaClElfImage.segments, List.mem_filter, decide_eq_true_eq] at member
    exact all seg member.1 member.2
  refine foldlM_done (R := fun done _ => ∀ seg ∈ done, FromFile image.loadable seg →
    InAddressSpace nap seg.1) ?_ (fun _ mem => nomatch mem) run
  rintro done st ⟨php, segnum⟩ st' before step seg member fromFile
  rcases List.mem_append.mp member with earlier | last
  · exact before seg earlier fromFile
  · obtain rfl := List.mem_singleton.mp last
    rcases loadSegment_cases step with ⟨other, -⟩ | ⟨-, inside, -⟩
    · exact absurd fromFile other
    · exact inside

theorem firstPage_mem (some : (placementOf nap php segnum).size ≠ 0) :
    (placementOf nap php segnum).page 0 ∈ (placementOf nap php segnum).pages := by
  refine List.mem_map_of_mem (List.mem_range.mpr ?_)
  rw [pagesize]
  omega

end Placing

/-- A load that ends with `LOAD_OK` has placed every segment just if it could map every one, and
    the validator accepted the text. -/
theorem naClElfImageLoad_placed_iff {w : World} {nap : LoadApp} {image : NaClElfImage}
    {st : Loading} (run : naClElfImageLoad w nap image = .ok st) :
    AllPlaced w nap image st ↔ ∀ seg ∈ image.segments, Mappable w seg := by
  rw [AllPlaced, naClElfImageLoad_pages run]
  constructor
  · intro placed seg member
    have some := @InAddressSpace.size_ne_zero nap seg.1 seg.2
      (naClElfImageLoad_inAddressSpace run seg member) (mem_segments.mp member).2.2
    obtain ⟨seg', member', mappable, page⟩ :=
      mem_segmentPages.mp ((placed seg member).1 (firstPage_mem some))
    obtain ⟨i, -, same⟩ := List.mem_map.mp page
    have number : seg'.2 = seg.2 := congrArg Page.segnum same
    rwa [← segments_unique member' member number]
  · intro mappable seg member
    exact ⟨fun page here => mem_segmentPages.mpr ⟨seg, member, mappable seg member, here⟩,
      fun text => ((mappable seg member).2 text).2.2⟩

/-! ### A text that fails validation -/

/-- A text segment of 32 bytes at `0x20000`, which stands at the front of the file. -/
def textHeader : Elf32Phdr where
  pType := ptLoad
  pOffset := 0
  pVaddr := BitVec.ofNat 32 naclTrampolineEnd
  pPaddr := 0
  pFilesz := 32
  pMemsz := 32
  pFlags := pfR ||| pfX
  pAlign := 0

def textImage : NaClElfImage := ⟨strayHeader 0, [textHeader], [true]⟩

def textApp : LoadApp := { memStart := 2 ^ 32, addrBits := 32, staticTextEnd := 0x20020 }

/-- The world of a file of 32 bytes, where every call succeeds and the driver takes a page once. -/
def textWorld (valid : Bool) : World where
  hostIo := true
  file := List.replicate 32 0x90
  scratchMap _ := true
  map _ := true
  validate _ _ := valid
  addPage pages page := pages.all fun q => q.addr ≠ page.addr

def textPage : Page := ⟨0, 0x100020000, 0, protRead + protExec⟩

theorem load_textImage : naClElfImageLoad (textWorld true) textApp textImage =
    .ok { pages := [textPage], prevalidated := true } := by
  decide +kernel

/-- Code that the validator accepts is placed. -/
theorem textImage_placed :
    AllPlaced (textWorld true) textApp textImage { pages := [textPage], prevalidated := true } :=
  (naClElfImageLoad_placed_iff load_textImage).mpr (by decide +kernel)

/-- Code that the validator rejects is left out, and the load ends with `LOAD_OK`. -/
theorem textImage_leftOut : naClElfImageLoad (textWorld false) textApp textImage = .ok {} ∧
    ¬ AllPlaced (textWorld false) textApp textImage {} := by
  refine ⟨by decide +kernel, fun placed => ?_⟩
  have member : (textHeader, 0) ∈ textImage.segments := by decide +kernel
  have page : textPage ∈ (placementOf textApp textHeader 0).pages := by decide +kernel
  exact nomatch (placed _ member).1 page

end SandboxTEE.Loader.ElfFile
