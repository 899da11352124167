import Mathlib.Data.List.Pairwise
import SandboxTEE.Loader.MapSegment

/-! # What stands in the enclave behind a load

A page of the enclave holds what the mapping of the file shows.  A segment is at its address if it
begins in the file where it begins in its 64k of memory, and what follows in the file stands behind
it, up to the end of its last page (`naClElfImageLoad_holds`).
-/

namespace SandboxTEE.Loader.ElfFile

open SandboxTEE.Lib

/-! ## The memory of the enclave -/

def Page.Covers (page : Page) (addr : Nat) : Prop := page.addr ≤ addr ∧ addr < page.addr + pagesize

instance (page : Page) (addr : Nat) : Decidable (page.Covers addr) :=
  inferInstanceAs (Decidable (_ ∧ _))

/-- The byte at an address, if there is a page. -/
def enclaveByte (file : Bytes) (pages : List Page) (addr : Nat) : Option (BitVec 8) :=
  (pages.find? fun page => page.Covers addr).map fun page =>
    file.getD (page.offset + (addr - page.addr)) 0

/-- Where the enclave has a user address. -/
def enclaveAddr (uaddr : Nat) : Nat := 0x100000000 + uaddr

/-- The driver takes no page at an address where it has one. -/
def RefusesTwice (w : World) : Prop :=
  ∀ pages page, w.addPage pages page = true → ∀ q ∈ pages, q.addr ≠ page.addr

/-- Pages at page boundaries, each at its own. -/
structure WellPlaced (pages : List Page) : Prop where
  boundary : ∀ page ∈ pages, page.addr % pagesize = 0
  distinct : pages.Pairwise fun p q => p.addr ≠ q.addr

section Contents

variable {w : World} {nap : LoadApp} {image : NaClElfImage} {st : Loading} {pages : List Page}
  {page : Page} {pl : Placement}

variable {addr : Nat}

theorem WellPlaced.find?_eq (placed : WellPlaced pages) (member : page ∈ pages)
    (covers : page.Covers addr) : pages.find? (fun q => q.Covers addr) = some page := by
  obtain ⟨boundary, distinct⟩ := placed
  induction pages with
  | nil => exact nomatch member
  | cons q pages ih =>
    rw [List.pairwise_cons] at distinct
    rw [List.find?_cons]
    by_cases here : q.Covers addr
    · have same : q.addr = page.addr := by
        have := boundary q (List.mem_cons_self ..)
        have := boundary page member
        rw [Page.Covers] at here covers
        rw [pagesize] at *
        omega
      rcases List.mem_cons.mp member with rfl | later
      · simp [here]
      · exact absurd same (distinct.1 page later)
    · rcases List.mem_cons.mp member with rfl | later
      · exact absurd covers here
      · simp only [here, decide_false]
        exact ih later (fun p mem => boundary p (List.mem_cons_of_mem q mem)) distinct.2

theorem WellPlaced.enclaveByte_eq (placed : WellPlaced pages) (member : page ∈ pages)
    (covers : page.Covers addr) (file : Bytes) :
    enclaveByte file pages addr = some (file.getD (page.offset + (addr - page.addr)) 0) := by
  rw [enclaveByte, placed.find?_eq member covers, Option.map_some]

/-- The pages of a placement hold its range of the file. -/
theorem WellPlaced.enclaveByte_placement (placed : WellPlaced pages) (all : pl.pages ⊆ pages)
    {j : Nat} (inside : j < pl.size) (file : Bytes) :
    enclaveByte file pages (pl.addr + j) = some (file.getD (pl.offset + j) 0) := by
  have member : pl.page (j / pagesize) ∈ pl.pages := by
    refine List.mem_map_of_mem (List.mem_range.mpr ?_)
    rw [pagesize]
    omega
  have covers : (pl.page (j / pagesize)).Covers (pl.addr + j) := by
    rw [Page.Covers, Placement.page]
    dsimp only
    rw [pagesize]
    omega
  have offset : pl.offset + j / pagesize * pagesize +
      (pl.addr + j - (pl.addr + j / pagesize * pagesize)) = pl.offset + j := by
    rw [pagesize]
    omega
  rw [placed.enclaveByte_eq (all member) covers, Placement.page]
  dsimp only
  rw [offset]

/-! ## Runs keep pages apart -/

variable {pages' : List Page}

/-- A page that the driver takes is apart from all others. -/
theorem addPage_wellPlaced (refuses : RefusesTwice w) (boundary : page.addr % pagesize = 0)
    (placed : WellPlaced pages) (run : addPage w pages page = .ok pages') : WellPlaced pages' := by
  rw [addPage] at run
  split at run
  · next taken =>
    cases run
    constructor
    · intro q member
      rcases List.mem_append.mp member with earlier | last
      · exact placed.boundary q earlier
      · rwa [List.mem_singleton.mp last]
    · rw [List.pairwise_append]
      refine ⟨placed.distinct, List.pairwise_singleton .., fun p member q last => ?_⟩
      rw [List.mem_singleton.mp last]
      exact refuses pages page taken.2 p member
  · cases run

theorem addPagesToEnclave_wellPlaced (refuses : RefusesTwice w) (boundary : pl.addr % pagesize = 0)
    (placed : WellPlaced pages) (run : addPagesToEnclave w pages pl = .ok pages') :
    WellPlaced pages' := by
  refine foldlM_keeps (P := fun _ page => page.addr % pagesize = 0)
    (fun _ _ _ placed boundary run => addPage_wellPlaced refuses boundary placed run) placed ?_ run
  intro pre page within _ _
  obtain ⟨i, -, rfl⟩ := List.mem_map.mp (within.subset (List.mem_append_right pre
    (List.mem_singleton.mpr rfl)))
  rw [Placement.page]
  dsimp only
  rw [Nat.add_mul_mod_self_right, boundary]

theorem placementOf_boundary (aligned : nap.memStart % 2 ^ 32 = 0) (php : Elf32Phdr) (segnum : Nat) :
    (placementOf nap php segnum).addr % pagesize = 0 := by
  rw [placementOf]
  dsimp only
  rw [sgxAddr, naClTruncAllocPage, naclMapPagesize, pagesize]
  omega

theorem naClElfImageLoad_wellPlaced (refuses : RefusesTwice w)
    (aligned : nap.memStart % 2 ^ 32 = 0) (run : naClElfImageLoad w nap image = .ok st) :
    WellPlaced st.pages := by
  have start : WellPlaced (Loading.pages {}) := ⟨fun _ mem => (nomatch mem), List.Pairwise.nil⟩
  refine foldlM_done (R := fun _ st => WellPlaced st.pages) ?_ start run
  rintro done st ⟨php, segnum⟩ st' placed step
  rcases loadSegment_cases step with ⟨-, rfl⟩ | ⟨-, -, ⟨-, added⟩ | ⟨-, same⟩⟩
  · exact placed
  · exact addPagesToEnclave_wellPlaced refuses (placementOf_boundary aligned php segnum) placed added
  · rwa [same]

/-! ## Segments in the enclave -/

/-- A segment begins in its 64k of memory where it begins in its 64k of the file. -/
def Congruent (php : Elf32Phdr) : Prop :=
  php.pVaddr.toNat % naclMapPagesize = php.pOffset.toNat % naclMapPagesize

instance (php : Elf32Phdr) : Decidable (Congruent php) := inferInstanceAs (Decidable (_ = _))

/-- The bytes of the segment stand at its address. -/
def HoldsSegment (file : Bytes) (pages : List Page) (php : Elf32Phdr) : Prop :=
  ∀ k < php.pFilesz.toNat,
    enclaveByte file pages (enclaveAddr (php.pVaddr.toNat + k)) =
      some (file.getD (php.pOffset.toNat + k) 0)

/-- What follows the segment in the file stands behind it, up to the end of its last page. -/
def HoldsTail (file : Bytes) (pages : List Page) (php : Elf32Phdr) : Prop :=
  ∀ k, php.pFilesz.toNat ≤ k →
    php.pVaddr.toNat + k < naClRoundPage (php.pVaddr.toNat + php.pFilesz.toNat) →
    enclaveByte file pages (enclaveAddr (php.pVaddr.toNat + k)) =
      some (file.getD (php.pOffset.toNat + k) 0)

variable {k segnum : Nat} {php : Elf32Phdr}

/-- The pages of a congruent segment hold the file around it. -/
theorem WellPlaced.enclaveByte_segment (placed : WellPlaced pages)
    (all : (placementOf nap php segnum).pages ⊆ pages) (aligned : nap.memStart % 2 ^ 32 = 0)
    (congruent : Congruent php) (file : Bytes)
    (inside : php.pVaddr.toNat % naclMapPagesize + k < (placementOf nap php segnum).size) :
    enclaveByte file pages (enclaveAddr (php.pVaddr.toNat + k)) =
      some (file.getD (php.pOffset.toNat + k) 0) := by
  have vaddr : php.pVaddr.toNat < 2 ^ 32 := php.pVaddr.isLt
  rw [Congruent] at congruent
  have addr : enclaveAddr (php.pVaddr.toNat + k) = (placementOf nap php segnum).addr +
      (php.pVaddr.toNat % naclMapPagesize + k) := by
    rw [enclaveAddr, placementOf]
    dsimp only
    rw [sgxAddr, naClTruncAllocPage, naclMapPagesize]
    omega
  have offset : php.pOffset.toNat + k = (placementOf nap php segnum).offset +
      (php.pVaddr.toNat % naclMapPagesize + k) := by
    rw [placementOf, congruent]
    dsimp only
    rw [Elf32Phdr.fileOffset, naClTruncAllocPage, naclMapPagesize]
    omega
  rw [addr, offset, placed.enclaveByte_placement all inside]

/-- The pages of a segment reach to the end of its last page. -/
theorem InAddressSpace.lt_size (inside : InAddressSpace nap php) (congruent : Congruent php)
    (within : php.pVaddr.toNat + k < naClRoundPage (php.pVaddr.toNat + php.pFilesz.toNat)) :
    php.pVaddr.toNat % naclMapPagesize + k < (placementOf nap php segnum).size := by
  have size := inside.segmentSize_eq
  have small : php.pFilesz.toNat < 2 ^ 32 := php.pFilesz.isLt
  have vaddr : php.pVaddr.toNat < 2 ^ 32 := php.pVaddr.isLt
  rw [Congruent] at congruent
  have rounded : php.pVaddr.toNat % naclMapPagesize + k < naClRoundPage php.segmentSize := by
    rw [size, ← congruent]
    rw [naClRoundPage, naclPagesize] at within ⊢
    rw [naclMapPagesize] at *
    omega
  rw [placementOf, roundedFilesz]
  dsimp only
  split
  · omega
  · exact rounded

/-- Behind a load that ends with `LOAD_OK`, each congruent segment that could be mapped is at its
    address, a read-only one with what follows it in the file, and no page was added for two
    segments. -/
theorem naClElfImageLoad_holds (run : naClElfImageLoad w nap image = .ok st)
    (aligned : nap.memStart % 2 ^ 32 = 0) (refuses : RefusesTwice w) :
    (∀ seg ∈ image.segments, Mappable w seg → Congruent seg.1 →
      HoldsSegment w.file st.pages seg.1 ∧
      (seg.1.pFlags = pfR → HoldsTail w.file st.pages seg.1)) ∧
    ∀ page ∈ st.pages, ∀ page' ∈ st.pages, page.segnum ≠ page'.segnum →
      page.addr ≠ page'.addr := by
  have placed := naClElfImageLoad_wellPlaced refuses aligned run
  constructor
  · rintro ⟨php, segnum⟩ member mappable congruent
    have inside := naClElfImageLoad_inAddressSpace run _ member
    have all : (placementOf nap php segnum).pages ⊆ st.pages := by
      rw [naClElfImageLoad_pages run]
      exact fun page here => mem_segmentPages.mpr ⟨_, member, mappable, here⟩
    constructor
    · intro k (within : k < php.pFilesz.toNat)
      refine placed.enclaveByte_segment all aligned congruent w.file (inside.lt_size congruent ?_)
      have vaddr : php.pVaddr.toNat < 2 ^ 32 := php.pVaddr.isLt
      have small : php.pFilesz.toNat < 2 ^ 32 := php.pFilesz.isLt
      change php.pVaddr.toNat + k < naClRoundPage (php.pVaddr.toNat + php.pFilesz.toNat)
      rw [naClRoundPage, naclPagesize]
      omega
    · intro _ k _ within
      exact placed.enclaveByte_segment all aligned congruent w.file (inside.lt_size congruent within)
  · intro page member page' member' segments same
    by_cases one : page = page'
    · exact segments (congrArg Page.segnum one)
    · have : Std.Symm fun p q : Page => p.addr ≠ q.addr := ⟨fun _ _ different => different.symm⟩
      exact placed.distinct.forall member member' one same

end Contents

/-! ### A read-only segment in the middle of a page -/

/-- 32 bytes for reading at `0x30000`. -/
def rodataHeader : Elf32Phdr := { textHeader with pVaddr := 0x30000, pFlags := pfR }

def rodataImage : NaClElfImage := ⟨strayHeader 0x20000, [textHeader, rodataHeader], [true, true]⟩

/-- The file has the code, and 32 bytes behind it. -/
def rodataWorld : World :=
  { textWorld true with file := List.replicate 32 0x90 ++ List.replicate 32 65 }

def rodataPage : Page := ⟨1, 0x100030000, 0, protRead⟩

theorem refusesTwice_textWorld (valid : Bool) : RefusesTwice (textWorld valid) := by
  intro pages page taken q member
  simpa using List.all_eq_true.mp taken q member

theorem load_rodataImage : naClElfImageLoad rodataWorld textApp rodataImage =
    .ok { pages := [textPage, rodataPage], prevalidated := true } := by
  decide +kernel

theorem rodataImage_holds :
    (∀ seg ∈ rodataImage.segments, Mappable rodataWorld seg → Congruent seg.1 →
      HoldsSegment rodataWorld.file [textPage, rodataPage] seg.1 ∧
      (seg.1.pFlags = pfR → HoldsTail rodataWorld.file [textPage, rodataPage] seg.1)) ∧
    ∀ page ∈ [textPage, rodataPage], ∀ page' ∈ [textPage, rodataPage],
      page.segnum ≠ page'.segnum → page.addr ≠ page'.addr :=
  naClElfImageLoad_holds load_rodataImage (by decide) (refusesTwice_textWorld true)

/-- The program headers as the layout has them. -/
def NaClElfImage.headers (image : NaClElfImage) : Loader.NaClElfImage where
  entry := image.ehdr.eEntry
  phdrs := image.phdrs.map fun php => ⟨php.pType, php.pFlags, php.pVaddr, php.pFilesz, php.pMemsz⟩

/-- Zeros from the end of the file's bytes to the end of the last page. -/
def ZeroTail (file : Bytes) (pages : List Page) (php : Elf32Phdr) : Prop :=
  ∀ k, php.pFilesz.toNat ≤ k →
    php.pVaddr.toNat + k < naClRoundPage (php.pVaddr.toNat + php.pMemsz.toNat) →
    enclaveByte file pages (enclaveAddr (php.pVaddr.toNat + k)) = some 0

/-- The same segment from the bytes behind the code. -/
def shiftedHeader : Elf32Phdr := { rodataHeader with pOffset := 32 }

def shiftedImage : NaClElfImage := ⟨strayHeader 0x20000, [textHeader, shiftedHeader], [true, true]⟩

/-- Two images that pass the checks and are loaded: behind the read-only segment of one stands
    what follows in the file, and that of the other is not at its address. -/
theorem loaded_otherwise :
    ((naClElfImageValidateProgramHeaders rodataImage.headers 32).isOk = true ∧
      naClElfImageLoad rodataWorld textApp rodataImage =
        .ok { pages := [textPage, rodataPage], prevalidated := true } ∧
      ¬ ZeroTail rodataWorld.file [textPage, rodataPage] rodataHeader) ∧
    (naClElfImageValidateProgramHeaders shiftedImage.headers 32).isOk = true ∧
      naClElfImageLoad rodataWorld textApp shiftedImage =
        .ok { pages := [textPage, rodataPage], prevalidated := true } ∧
      ¬ HoldsSegment rodataWorld.file [textPage, rodataPage] shiftedHeader := by
  refine ⟨⟨by decide +kernel, load_rodataImage, fun zero => ?_⟩, by decide +kernel,
    by decide +kernel, fun holds => ?_⟩
  · exact absurd (zero 32 (by decide +kernel) (by decide +kernel)) (by decide +kernel)
  · exact absurd (holds 0 (by decide +kernel)) (by decide +kernel)

end SandboxTEE.Loader.ElfFile
