import SandboxTEE.Lib.LittleEndian
import SandboxTEE.Loader.Model

/-! # Reading an ELF file (`NaClElfImageServiceRuntimeNew` in `elf_util_usgx.c`)

The loader of the service runtime reads the headers of a file and keeps them in 32-bit form.  It
goes on when there are more program headers than its arrays hold, cuts 64-bit fields to 32 bits,
and takes the header of a file that is not of class 64 from its uninitialised local variable
(`faithful_iff`).
-/

namespace SandboxTEE.Loader.ElfFile

open SandboxTEE.Lib (Word Word.ofBytes leBytes)

/-! ## Headers (`elf32.h`, `elf64.h`) -/

abbrev Bytes := List (BitVec 8)

/-- The field of `n` bytes at an offset. -/
def field (n : Nat) (bytes : Bytes) (offset : Nat) : Word n :=
  Word.ofBytes n ((bytes.drop offset).take n)

structure Elf64Ehdr where
  eIdent : Bytes
  eType : Word 2
  eMachine : Word 2
  eVersion : Word 4
  eEntry : Word 8
  ePhoff : Word 8
  eShoff : Word 8
  eFlags : Word 4
  eEhsize : Word 2
  ePhentsize : Word 2
  ePhnum : Word 2
  eShentsize : Word 2
  eShnum : Word 2
  eShstrndx : Word 2

structure Elf32Ehdr where
  eIdent : Bytes
  eType : Word 2
  eMachine : Word 2
  eVersion : Word 4
  eEntry : Word 4
  ePhoff : Word 4
  eShoff : Word 4
  eFlags : Word 4
  eEhsize : Word 2
  ePhentsize : Word 2
  ePhnum : Word 2
  eShentsize : Word 2
  eShnum : Word 2
  eShstrndx : Word 2
deriving DecidableEq

structure Elf64Phdr where
  pType : Word 4
  pFlags : Word 4
  pOffset : Word 8
  pVaddr : Word 8
  pPaddr : Word 8
  pFilesz : Word 8
  pMemsz : Word 8
  pAlign : Word 8

structure Elf32Phdr where
  pType : Word 4
  pOffset : Word 4
  pVaddr : Word 4
  pPaddr : Word 4
  pFilesz : Word 4
  pMemsz : Word 4
  pFlags : Word 4
  pAlign : Word 4
deriving DecidableEq

def sizeofElf32Ehdr : Nat := 52
def sizeofElf64Ehdr : Nat := 64
def sizeofElf32Phdr : Nat := 32
def sizeofElf64Phdr : Nat := 56

def Elf64Ehdr.ofBytes (b : Bytes) : Elf64Ehdr :=
  ⟨b.take 16, field 2 b 16, field 2 b 18, field 4 b 20, field 8 b 24, field 8 b 32, field 8 b 40,
    field 4 b 48, field 2 b 52, field 2 b 54, field 2 b 56, field 2 b 58, field 2 b 60,
    field 2 b 62⟩

def Elf32Ehdr.ofBytes (b : Bytes) : Elf32Ehdr :=
  ⟨b.take 16, field 2 b 16, field 2 b 18, field 4 b 20, field 4 b 24, field 4 b 28, field 4 b 32,
    field 4 b 36, field 2 b 40, field 2 b 42, field 2 b 44, field 2 b 46, field 2 b 48,
    field 2 b 50⟩

def Elf64Phdr.ofBytes (b : Bytes) : Elf64Phdr :=
  ⟨field 4 b 0, field 4 b 4, field 8 b 8, field 8 b 16, field 8 b 24, field 8 b 32, field 8 b 40,
    field 8 b 48⟩

def Elf32Phdr.ofBytes (b : Bytes) : Elf32Phdr :=
  ⟨field 4 b 0, field 4 b 4, field 4 b 8, field 4 b 12, field 4 b 16, field 4 b 20, field 4 b 24,
    field 4 b 28⟩

/-- The records of an array. -/
def records {α : Type} (ofBytes : Bytes → α) (size count : Nat) (b : Bytes) : List α :=
  (List.range count).map fun i => ofBytes (b.drop (i * size))

/-! ## `NaClElfImageServiceRuntimeNew` -/

def naclMaxProgramHeaders : Nat := 128

/-- `e_ident[EI_CLASS]` -/
def eiClass (ident : Bytes) : BitVec 8 := ident.getD 4 0

def elfclass32 : BitVec 8 := 1
def elfclass64 : BitVec 8 := 2

def loadReadError : NaClErrorCode := .other 8
def loadBadPhentsize : NaClErrorCode := .other 10
def loadBadEhsize : NaClErrorCode := .other 60

structure NaClElfImage where
  ehdr : Elf32Ehdr
  phdrs : List Elf32Phdr
  loadable : List Bool

/-- An image, an error, or an access behind the end of an array of program headers. -/
inductive Outcome where
  | image (image : NaClElfImage)
  | error (code : NaClErrorCode)
  | overrun

/-- `PRead` of a regular file. -/
def pread (file : Bytes) (len offset : Nat) : Bytes := (file.drop offset).take len

/-- The header in the format of class 32, on x86-64. -/
def convertEhdr (h : Elf64Ehdr) : Elf32Ehdr where
  eIdent := h.eIdent.set 4 elfclass32
  eType := h.eType
  eMachine := h.eMachine
  eVersion := h.eVersion
  eEntry := h.eEntry.setWidth 32
  ePhoff := h.ePhoff.setWidth 32
  eShoff := h.eShoff.setWidth 32
  eFlags := h.eFlags
  eEhsize := BitVec.ofNat 16 sizeofElf32Ehdr
  ePhentsize := BitVec.ofNat 16 sizeofElf32Phdr
  ePhnum := h.ePhnum
  eShentsize := h.eShentsize
  eShnum := h.eShnum
  eShstrndx := h.eShstrndx

def convertPhdr (p : Elf64Phdr) : Elf32Phdr where
  pType := p.pType
  pOffset := p.pOffset.setWidth 32
  pVaddr := p.pVaddr.setWidth 32
  pPaddr := p.pPaddr.setWidth 32
  pFilesz := p.pFilesz.setWidth 32
  pMemsz := p.pMemsz.setWidth 32
  pFlags := p.pFlags
  pAlign := p.pAlign.setWidth 32

/-- `PRead` of `count` records into an array of `NACL_MAX_PROGRAM_HEADERS`, and what is done
    with them. -/
def readRecords (file : Bytes) (size count offset : Nat) (use : Bytes → NaClElfImage) : Outcome :=
  let bytes := pread file (count * size) offset
  if naclMaxProgramHeaders * size < bytes.length then .overrun
  else if bytes.length ≠ count * size then .error loadReadError
  else .image (use bytes)

/-- A header with too many program headers sets an error code that is overwritten later, and
    nothing else. -/
def load64 (file : Bytes) (ehdr64 : Elf64Ehdr) : Outcome :=
  if ehdr64.eEhsize.toNat ≠ sizeofElf64Ehdr then .error loadBadEhsize
  else
    let ehdr := convertEhdr ehdr64
    if ehdr64.ePhentsize.toNat ≠ sizeofElf64Phdr then .error loadBadPhentsize
    else
      readRecords file sizeofElf64Phdr ehdr.ePhnum.toNat ehdr.ePhoff.toNat fun bytes =>
        let phdrs := (records Elf64Phdr.ofBytes sizeofElf64Phdr ehdr.ePhnum.toNat bytes).map
          convertPhdr
        { ehdr, phdrs, loadable := phdrs.map fun p => p.pType = ptLoad }

/-- The local variable `image` is used as it is on the stack. -/
def load32 (file : Bytes) (stack : Elf32Ehdr) : Outcome :=
  if stack.ePhentsize.toNat ≠ sizeofElf32Phdr then .error loadBadPhentsize
  else
    readRecords file sizeofElf32Phdr stack.ePhnum.toNat stack.ePhoff.toNat fun bytes =>
      let phdrs := records Elf32Phdr.ofBytes sizeofElf32Phdr stack.ePhnum.toNat bytes
      { ehdr := stack, phdrs, loadable := phdrs.map fun _ => false }

def naClElfImageServiceRuntimeNew (file : Bytes) (stack : Elf32Ehdr) : Outcome :=
  let ehdr := pread file sizeofElf64Ehdr 0
  if ehdr.length ≠ sizeofElf64Ehdr then .error loadReadError
  else if eiClass ehdr = elfclass64 then load64 file (Elf64Ehdr.ofBytes ehdr)
  else load32 file stack

/-! ## What the file says -/

def isClass64 (file : Bytes) : Prop := eiClass (file.take sizeofElf64Ehdr) = elfclass64

instance (file : Bytes) : Decidable (isClass64 file) := inferInstanceAs (Decidable (_ = _))

def header64 (file : Bytes) : Elf64Ehdr := Elf64Ehdr.ofBytes (file.take sizeofElf64Ehdr)

def header32 (file : Bytes) : Elf32Ehdr := Elf32Ehdr.ofBytes (file.take sizeofElf32Ehdr)

/-- The program headers, from where the header says they are. -/
def programHeaders64 (file : Bytes) : List Elf64Phdr :=
  records Elf64Phdr.ofBytes sizeofElf64Phdr (header64 file).ePhnum.toNat
    (pread file ((header64 file).ePhnum.toNat * sizeofElf64Phdr) (header64 file).ePhoff.toNat)

/-- The fields that have 64 bits in the file. -/
def Elf64Ehdr.wide (h : Elf64Ehdr) : List (Word 8) := [h.eEntry, h.ePhoff, h.eShoff]

def Elf32Ehdr.wide (h : Elf32Ehdr) : List (Word 4) := [h.eEntry, h.ePhoff, h.eShoff]

def Elf64Phdr.wide (p : Elf64Phdr) : List (Word 8) :=
  [p.pOffset, p.pVaddr, p.pPaddr, p.pFilesz, p.pMemsz, p.pAlign]

def Elf32Phdr.wide (p : Elf32Phdr) : List (Word 4) :=
  [p.pOffset, p.pVaddr, p.pPaddr, p.pFilesz, p.pMemsz, p.pAlign]

/-- The numbers are the same. -/
def SameValues (narrow : List (Word 4)) (wide : List (Word 8)) : Prop :=
  narrow.map BitVec.toNat = wide.map BitVec.toNat

/-- The header and the program headers are those of the file. -/
def NaClElfImage.Agrees (image : NaClElfImage) (file : Bytes) : Prop :=
  if isClass64 file then
    SameValues image.ehdr.wide (header64 file).wide ∧
      List.Forall₂ (fun p q => SameValues p.wide q.wide) image.phdrs (programHeaders64 file)
  else image.ehdr = header32 file

/-- The load fails, or all accesses are within the arrays and the image has what is in the file. -/
def Faithful (file : Bytes) : Outcome → Prop
  | .error _ => True
  | .overrun => False
  | .image image => image.ehdr.ePhnum.toNat ≤ naclMaxProgramHeaders ∧
      image.phdrs.length = image.ehdr.ePhnum.toNat ∧ image.Agrees file

/-- The number fits into 32 bits. -/
def FitWord (words : List (Word 8)) : Prop := ∀ w ∈ words, w.toNat < 2 ^ 32

/-- The read of the program headers, at the offset cut to 32 bits, ends early and within the
    array. -/
def EndsEarly (file : Bytes) (h : Elf64Ehdr) : Prop :=
  file.length - h.ePhoff.toNat % 2 ^ 32 < h.ePhnum.toNat * sizeofElf64Phdr ∧
    file.length - h.ePhoff.toNat % 2 ^ 32 ≤ naclMaxProgramHeaders * sizeofElf64Phdr

instance (file : Bytes) (h : Elf64Ehdr) : Decidable (EndsEarly file h) :=
  inferInstanceAs (Decidable (_ ∧ _))

/-- No more program headers than the arrays hold, and no number that is cut. -/
structure Representable (file : Bytes) : Prop where
  count : (header64 file).ePhnum.toNat ≤ naclMaxProgramHeaders
  ehdr : FitWord (header64 file).wide
  phdrs : ∀ p ∈ programHeaders64 file, FitWord p.wide

/-- The file has no whole header, or is of class 64 and either refused or representable. -/
def Handled (file : Bytes) : Prop :=
  file.length < sizeofElf64Ehdr ∨
    isClass64 file ∧ ((header64 file).eEhsize.toNat ≠ sizeofElf64Ehdr ∨
      (header64 file).ePhentsize.toNat ≠ sizeofElf64Phdr ∨ EndsEarly file (header64 file) ∨
      Representable file)

/-! ## Narrowing -/

theorem toNat_narrow (w : Word 8) : (w.setWidth 32).toNat = w.toNat % 2 ^ 32 :=
  BitVec.toNat_setWidth 32 w

theorem sameValues_narrow_iff (words : List (Word 8)) :
    SameValues (words.map fun w => w.setWidth 32) words ↔ FitWord words := by
  unfold SameValues FitWord
  induction words with
  | nil => simp
  | cons w words ih =>
    simp only [List.map_cons, List.cons.injEq, List.forall_mem_cons, ih]
    rw [toNat_narrow]
    have := w.isLt
    constructor
    · rintro ⟨same, rest⟩
      exact ⟨by omega, rest⟩
    · rintro ⟨fits, rest⟩
      exact ⟨Nat.mod_eq_of_lt fits, rest⟩

theorem convertPhdr_wide (p : Elf64Phdr) :
    (convertPhdr p).wide = p.wide.map fun w => w.setWidth 32 := rfl

/-- The converted program headers have the values of the file's just if these fit. -/
theorem forall₂_convertPhdr_iff (phdrs : List Elf64Phdr) :
    List.Forall₂ (fun p q => SameValues p.wide q.wide) (phdrs.map convertPhdr) phdrs ↔
      ∀ p ∈ phdrs, FitWord p.wide := by
  induction phdrs with
  | nil => simp
  | cons p phdrs ih =>
    rw [List.map_cons, List.forall₂_cons, List.forall_mem_cons, ih, convertPhdr_wide,
      sameValues_narrow_iff]

/-! ## Reading the records -/

theorem length_pread (file : Bytes) (len offset : Nat) :
    (pread file len offset).length = min len (file.length - offset) := by
  rw [pread, List.length_take, List.length_drop]

theorem length_records {α : Type} (ofBytes : Bytes → α) (size count : Nat) (b : Bytes) :
    (records ofBytes size count b).length = count := by
  rw [records, List.length_map, List.length_range]

/-- The array is overrun, the file ends early, or all records are there. -/
theorem readRecords_eq (file : Bytes) (size count offset : Nat) (use : Bytes → NaClElfImage) :
    readRecords file size count offset use =
      if file.length - offset < count * size ∧ file.length - offset ≤ naclMaxProgramHeaders * size
      then .error loadReadError else if naclMaxProgramHeaders * size < count * size then .overrun
      else .image (use (pread file (count * size) offset)) := by
  rw [readRecords, length_pread]
  split
  · next large =>
    rw [if_neg (by omega), if_pos (by omega)]
  · next small =>
    split
    · next short => rw [if_pos (by omega)]
    · next full => rw [if_neg (by omega), if_neg (by omega)]

/-! ## Which files are handled -/

section Handling

variable {file : Bytes} {stack : Elf32Ehdr}

/-- The image of a file of class 64 whose program headers could be read. -/
def image64 (file : Bytes) (h : Elf64Ehdr) : NaClElfImage :=
  let ehdr := convertEhdr h
  let phdrs := (records Elf64Phdr.ofBytes sizeofElf64Phdr h.ePhnum.toNat
    (pread file (h.ePhnum.toNat * sizeofElf64Phdr) ehdr.ePhoff.toNat)).map convertPhdr
  { ehdr, phdrs, loadable := phdrs.map fun p => p.pType = ptLoad }

/-- A header of the right sizes is refused only for the read of the program headers. -/
theorem load64_eq {h : Elf64Ehdr} (ehsize : h.eEhsize.toNat = sizeofElf64Ehdr)
    (phentsize : h.ePhentsize.toNat = sizeofElf64Phdr) : load64 file h =
      if EndsEarly file h then .error loadReadError
      else if naclMaxProgramHeaders < h.ePhnum.toNat then .overrun
      else .image (image64 file h) := by
  have phoff : (convertEhdr h).ePhoff.toNat = h.ePhoff.toNat % 2 ^ 32 := toNat_narrow h.ePhoff
  have phnum : (convertEhdr h).ePhnum.toNat = h.ePhnum.toNat := rfl
  have many : naclMaxProgramHeaders * sizeofElf64Phdr < h.ePhnum.toNat * sizeofElf64Phdr ↔
      naclMaxProgramHeaders < h.ePhnum.toNat := Nat.mul_lt_mul_right (by decide)
  have early : (file.length - (convertEhdr h).ePhoff.toNat < h.ePhnum.toNat * sizeofElf64Phdr ∧
      file.length - (convertEhdr h).ePhoff.toNat ≤ naclMaxProgramHeaders * sizeofElf64Phdr) ↔
      EndsEarly file h := by rw [EndsEarly, ← phoff]
  rw [load64, if_neg (not_not.mpr ehsize)]
  dsimp only
  rw [if_neg (not_not.mpr phentsize)]
  exact (readRecords_eq ..).trans (if_congr early rfl (if_congr many rfl rfl))

theorem image64_phdrs (fits : FitWord (header64 file).wide) :
    (image64 file (header64 file)).phdrs = (programHeaders64 file).map convertPhdr := by
  have phoff : (convertEhdr (header64 file)).ePhoff.toNat = (header64 file).ePhoff.toNat := by
    have small : (header64 file).ePhoff.toNat < 2 ^ 32 := fits _ (by simp [Elf64Ehdr.wide])
    exact (toNat_narrow _).trans (Nat.mod_eq_of_lt small)
  rw [image64, programHeaders64]
  dsimp only
  rw [phoff]

/-- The image of a file of class 64 is right just if the file is representable. -/
theorem faithful_image64_iff (is64 : isClass64 file)
    (few : (header64 file).ePhnum.toNat ≤ naclMaxProgramHeaders) :
    Faithful file (.image (image64 file (header64 file))) ↔ Representable file := by
  have header : SameValues (image64 file (header64 file)).ehdr.wide (header64 file).wide ↔
      FitWord (header64 file).wide := sameValues_narrow_iff (header64 file).wide
  have length : (image64 file (header64 file)).phdrs.length = (header64 file).ePhnum.toNat := by
    rw [image64, List.length_map, length_records]
  rw [Faithful, NaClElfImage.Agrees, if_pos is64, header]
  constructor
  · rintro ⟨-, -, fits, same⟩
    rw [image64_phdrs fits, forall₂_convertPhdr_iff] at same
    exact ⟨few, fits, same⟩
  · rintro ⟨-, fits, all⟩
    refine ⟨few, length, fits, ?_⟩
    rw [image64_phdrs fits, forall₂_convertPhdr_iff]
    exact all

theorem faithful_load64_iff (is64 : isClass64 file) : Faithful file (load64 file (header64 file)) ↔
      (header64 file).eEhsize.toNat ≠ sizeofElf64Ehdr ∨
      (header64 file).ePhentsize.toNat ≠ sizeofElf64Phdr ∨ EndsEarly file (header64 file) ∨
      Representable file := by
  by_cases ehsize : (header64 file).eEhsize.toNat = sizeofElf64Ehdr
  · by_cases phentsize : (header64 file).ePhentsize.toNat = sizeofElf64Phdr
    · rw [load64_eq ehsize phentsize, or_iff_right (not_not.mpr ehsize),
        or_iff_right (not_not.mpr phentsize)]
      split
      · next early => exact iff_of_true trivial (Or.inl early)
      · next late =>
        rw [or_iff_right late]
        split
        · next many => exact iff_of_false id fun whole => Nat.not_le.mpr many whole.count
        · next few => exact faithful_image64_iff is64 (Nat.not_lt.mp few)
    · rw [load64, if_neg (not_not.mpr ehsize), if_pos phentsize]
      exact iff_of_true trivial (Or.inr (Or.inl phentsize))
  · rw [load64, if_pos ehsize]
    exact iff_of_true trivial (Or.inl ehsize)

/-- A header without program headers that could be on the stack. -/
def strayHeader (entry : Word 4) : Elf32Ehdr where
  eIdent := []
  eType := 0
  eMachine := 0
  eVersion := 0
  eEntry := entry
  ePhoff := 0
  eShoff := 0
  eFlags := 0
  eEhsize := 0
  ePhentsize := BitVec.ofNat 16 sizeofElf32Phdr
  ePhnum := 0
  eShentsize := 0
  eShnum := 0
  eShstrndx := 0

theorem load32_strayHeader (file : Bytes) (entry : Word 4) :
    load32 file (strayHeader entry) = .image ⟨strayHeader entry, [], []⟩ := by
  have sized : (strayHeader entry).ePhentsize.toNat = sizeofElf32Phdr := rfl
  have none : (strayHeader entry).ePhnum.toNat = 0 := rfl
  rw [load32, if_neg (not_not.mpr sized), readRecords_eq, none, Nat.zero_mul,
    if_neg (fun short => Nat.not_lt_zero _ short.1), if_neg (Nat.not_lt_zero _)]
  rfl

/-- The image of a file of another class is what was on the stack. -/
theorem not_faithful_load32 (other : ¬ isClass64 file) :
    ∃ stack, ¬ Faithful file (load32 file stack) := by
  refine ⟨strayHeader ((header32 file).eEntry + 1), fun faithful => ?_⟩
  rw [load32_strayHeader, Faithful, NaClElfImage.Agrees, if_neg other] at faithful
  have entry : (header32 file).eEntry + 1 = (header32 file).eEntry :=
    congrArg Elf32Ehdr.eEntry faithful.2.2
  have := (header32 file).eEntry.isLt
  bv_omega

theorem serviceRuntimeNew_eq (file : Bytes) (stack : Elf32Ehdr) :
    naClElfImageServiceRuntimeNew file stack =
      if file.length < sizeofElf64Ehdr then .error loadReadError
      else if isClass64 file then load64 file (header64 file) else load32 file stack := by
  have short : (pread file sizeofElf64Ehdr 0).length ≠ sizeofElf64Ehdr ↔
      file.length < sizeofElf64Ehdr := by
    rw [length_pread]
    omega
  exact if_congr short rfl rfl

end Handling

/-- A file is handled, whatever was on the stack, just if it is of class 64 with numbers that the
    loader can keep, or makes it fail. -/
theorem faithful_iff (file : Bytes) :
    (∀ stack, Faithful file (naClElfImageServiceRuntimeNew file stack)) ↔ Handled file := by
  simp only [serviceRuntimeNew_eq]
  rw [Handled]
  by_cases short : file.length < sizeofElf64Ehdr
  · simp only [if_pos short]
    exact iff_of_true (fun _ => trivial) (Or.inl short)
  · rw [or_iff_right short]
    simp only [if_neg short]
    by_cases is64 : isClass64 file
    · simp only [if_pos is64]
      rw [and_iff_right is64, ← faithful_load64_iff is64]
      exact ⟨fun faithful => faithful (strayHeader 0), fun faithful _ => faithful⟩
    · simp only [if_neg is64]
      obtain ⟨stack, stray⟩ := not_faithful_load32 is64
      exact iff_of_false (fun faithful => stray (faithful stack)) fun handled => is64 handled.1

/-- The bytes of a header of class 64 with this entry point and number of program headers, which
    stand right behind it. -/
def headerBytes (entry phnum : Nat) : Bytes :=
  [0x7f, 69, 76, 70, 2, 1, 1, 0, 0, 0, 0, 0, 0, 0, 0, 0] ++ leBytes 2 2 ++ leBytes 2 62 ++
    leBytes 4 1 ++ leBytes 8 entry ++ leBytes 8 sizeofElf64Ehdr ++ leBytes 8 0 ++ leBytes 4 0 ++
    leBytes 2 sizeofElf64Ehdr ++ leBytes 2 sizeofElf64Phdr ++ leBytes 2 phnum ++ leBytes 2 0 ++
    leBytes 2 0 ++ leBytes 2 0

/-- 129 program headers. -/
def manyHeaders : Bytes := headerBytes 0 129 ++ List.replicate (129 * sizeofElf64Phdr) 0

theorem length_manyHeaders : manyHeaders.length = 64 + 129 * sizeofElf64Phdr := by
  have header : (headerBytes 0 129).length = 64 := by decide +kernel
  rw [manyHeaders, List.length_append, header, List.length_replicate]

/-- An entry point of 4 GiB becomes 0; 129 program headers are read into 128; a file of class 32
    starts wherever the stack says. -/
theorem not_faithful_examples :
    ¬ Faithful (headerBytes (2 ^ 32) 0)
      (naClElfImageServiceRuntimeNew (headerBytes (2 ^ 32) 0) (strayHeader 0)) ∧
    ¬ Faithful manyHeaders (naClElfImageServiceRuntimeNew manyHeaders (strayHeader 0)) ∧
    ¬ Faithful (List.replicate 64 0)
      (naClElfImageServiceRuntimeNew (List.replicate 64 0) (strayHeader 1)) := by
  refine ⟨?_, ?_, ?_⟩
  · rw [serviceRuntimeNew_eq, if_neg (by decide +kernel), if_pos (by decide +kernel),
      faithful_load64_iff (by decide +kernel)]
    rintro (ehsize | phentsize | early | whole)
    · exact ehsize (by decide +kernel)
    · exact phentsize (by decide +kernel)
    · exact absurd early (by decide +kernel)
    · exact absurd (whole.ehdr _ (List.mem_cons_self ..)) (by decide +kernel)
  · rw [serviceRuntimeNew_eq, length_manyHeaders, if_neg (by decide), if_pos (by decide +kernel),
      faithful_load64_iff (by decide +kernel)]
    rintro (ehsize | phentsize | early | whole)
    · exact ehsize (by decide +kernel)
    · exact phentsize (by decide +kernel)
    · rw [EndsEarly, length_manyHeaders] at early
      exact absurd early (by decide +kernel)
    · exact absurd whole.count (by decide +kernel)
  · rw [serviceRuntimeNew_eq, if_neg (by decide), if_neg (by decide +kernel), load32_strayHeader,
      Faithful, NaClElfImage.Agrees, if_neg (by decide +kernel)]
    rintro ⟨-, -, same⟩
    exact absurd same (by decide +kernel)

end SandboxTEE.Loader.ElfFile
