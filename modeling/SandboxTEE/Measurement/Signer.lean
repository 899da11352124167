import SandboxTEE.Lib.Records
import SandboxTEE.Loader.MapSegment

/-! # The measurement that is signed (`pal-sgx-sign`)

The signer lays out the enclave from the `LOAD` segments of the executable and of the service
runtime, and feeds one record to its hash for each page.

* `generateMeasurement_eq`: the hash is fed the size of the enclave and the pages in order, each with
  its address and its flags.
* `generateMeasurement_inj`: what it is fed determines these.

The numbers are Python's.  `struct.pack` refuses one that needs more than 64 bits (`none`).
-/

namespace SandboxTEE.Measurement

open SandboxTEE.Lib
open SandboxTEE.Loader.ElfFile (Bytes)

/-! ## Files -/

/-- A `LOAD` line of `readelf`.  In `prot`, 4 is `R`, 2 is `W` and 1 is `E`. -/
structure LoadCmd where
  offset : Nat
  addr : Nat
  filesize : Nat
  memsize : Nat
  prot : Nat

/-- A file, with what `get_loadcmds` finds in it. -/
structure BinaryFile where
  loadcmds : List LoadCmd
  contents : Bytes

/-! ## Constants -/

def pagesize : Nat := 4096
def tcssize : Nat := pagesize
def ssaframesize : Nat := pagesize
def ssaframenum : Nat := 2
def enclaveStackSize : Nat := pagesize * 256
def naclMapPagesize : Nat := 65536

def pageinfoR : Nat := 0x1
def pageinfoW : Nat := 0x2
def pageinfoX : Nat := 0x4
def pageinfoTcs : Nat := 0x100
def pageinfoReg : Nat := 0x200

def roundup (addr : Nat) : Nat :=
  let remaining := addr % pagesize
  if remaining ≠ 0 then addr + (pagesize - remaining) else addr

def rounddown (addr : Nat) : Nat := addr - addr % pagesize

/-- `NaClTruncAllocPage` of the script. -/
def naClTruncAllocPage (nbytes : Nat) : Nat := nbytes / naclMapPagesize * naclMapPagesize

/-- The flags with those for the letters of a segment. -/
def addProt (flags prot : Nat) : Nat :=
  let flags := if prot &&& 4 ≠ 0 then flags ||| pageinfoR else flags
  let flags := if prot &&& 2 ≠ 0 then flags ||| pageinfoW else flags
  if prot &&& 1 ≠ 0 then flags ||| pageinfoX else flags

/-! ## Areas -/

structure MemoryArea where
  file : Option BinaryFile
  addr : Nat
  size : Nat
  flags : Nat
  isBinary : Bool

/-- `MemoryArea(desc, size, flags, addr)` -/
def memoryArea (size flags addr : Nat) : MemoryArea where
  file := none
  addr := rounddown addr
  size := roundup size
  flags := flags
  isBinary := false

/-- `mapaddr`, the lowest page of the segments. -/
def mapaddr (loadcmds : List LoadCmd) : Nat :=
  loadcmds.foldl (fun low c => if rounddown c.addr < low then rounddown c.addr else low)
    0xffffffffffffffff

/-- `mapaddr_end` -/
def mapaddrEnd (loadcmds : List LoadCmd) : Nat :=
  loadcmds.foldl (fun high c =>
    if high < roundup (c.addr + c.memsize) then roundup (c.addr + c.memsize) else high) 0

/-- `MemoryArea(desc, file, flags, addr)`.  `mapaddr` is never negative, so the address is that of the
    segments whenever there are any. -/
def fileArea (file : BinaryFile) (flags addr : Nat) : MemoryArea :=
  if file.loadcmds ≠ [] then
    { file := some file
      addr := rounddown (mapaddr file.loadcmds)
      size := roundup (mapaddrEnd file.loadcmds - mapaddr file.loadcmds)
      flags := flags
      isBinary := true }
  else
    { file := some file
      addr := rounddown addr
      size := roundup file.contents.length
      flags := flags
      isBinary := false }

def addrBase : Nat := 0x100000000
def addrTrampStart : Nat := 0x10000

/-- Where the service runtime begins, at 48 GiB. -/
def runtimeBase : Nat := 48 * 1024 * 1024 * 1024

/-- The area of a segment of the executable. -/
def execArea (c : LoadCmd) : MemoryArea :=
  let size := c.offset + c.memsize - naClTruncAllocPage c.offset
  memoryArea ((size + pagesize - 1) / pagesize * pagesize) (addProt pageinfoReg c.prot)
    (addrBase + naClTruncAllocPage c.addr)

/-- The areas for threads, which stand behind the service runtime. -/
def threadAreas (threadNum : Nat) : List MemoryArea :=
  let callStacks := (List.range threadNum).map fun t =>
    memoryArea enclaveStackSize (pageinfoR ||| pageinfoW ||| pageinfoReg)
      (runtimeBase + 0x20000000 + t * enclaveStackSize)
  let tls := 0xc30000000
  let tcs := tls + threadNum * pagesize
  let ssa := tcs + threadNum * tcssize * 2
  let dummy := ssa + threadNum * ssaframesize * ssaframenum
  callStacks ++
    [memoryArea (threadNum * pagesize) (pageinfoR ||| pageinfoW ||| pageinfoReg) tls,
     memoryArea (threadNum * tcssize) pageinfoTcs tcs,
     memoryArea (threadNum * ssaframesize * ssaframenum) (pageinfoR ||| pageinfoW ||| pageinfoReg)
      ssa,
     memoryArea pagesize (pageinfoR ||| pageinfoW ||| pageinfoReg) dummy]

def trampolineArea : MemoryArea :=
  memoryArea 0x10000 (pageinfoR ||| pageinfoX ||| pageinfoReg) (addrBase + addrTrampStart)

def naclStackArea : MemoryArea :=
  memoryArea 0x10000000 (pageinfoR ||| pageinfoW ||| pageinfoReg) (addrBase + 0xf0000000)

/-- What the signer is given: `thread_num` of the manifest, the executable and the service runtime. -/
structure SignerInput where
  threadNum : Nat
  exec : BinaryFile
  libsel : BinaryFile

def getMemoryAreas (x : SignerInput) : List MemoryArea :=
  x.exec.loadcmds.map execArea ++ trampolineArea :: naclStackArea ::
    fileArea x.libsel pageinfoReg runtimeBase :: threadAreas x.threadNum

/-! ## The hash -/

/-- `struct.pack` of a string into `n` bytes. -/
def packString (n : Nat) (text : String) : Bytes :=
  ((text.toList.map fun c : Char => BitVec.ofNat 8 c.toNat) ++ List.replicate n 0).take n

/-- `struct.pack("<8sLQ44s", "ECREATE", SSAFRAMESIZE/PAGESIZE, size, "")` -/
def doEcreate (digest : Bytes) (size : Nat) : Bytes :=
  digest ++ (packString 8 "ECREATE" ++ leBytes 4 (ssaframesize / pagesize) ++ leBytes 8 size ++
    packString 44 "")

/-- `struct.pack("<8sQQ40s", "EADD", offset, flags, "")` -/
def eaddRecord (page : BitVec 64 × BitVec 64) : Bytes :=
  packString 8 "EADD" ++ leBytes64 page.1 ++ leBytes64 page.2 ++ packString 40 ""

def doEadd (flags : Nat) (digest : Bytes) (offset : Nat) : Option Bytes :=
  if offset < 2 ^ 64 ∧ flags < 2 ^ 64 then
    some (digest ++ eaddRecord (BitVec.ofNat 64 offset, BitVec.ofNat 64 flags))
  else none

/-- `range(addr, addr + size, PAGESIZE)` -/
def pageRange (addr size : Nat) : List Nat :=
  (List.range ((size + pagesize - 1) / pagesize)).map fun i => addr + i * pagesize

/-- `load_file`.  The loop goes on behind `do_eadd`, so that the contents are not read. -/
def loadFile (addr memsize flags : Nat) (digest : Bytes) : Option Bytes :=
  let mAddr := rounddown addr
  let mSize := roundup (addr + memsize) - mAddr
  (pageRange mAddr mSize).foldlM (doEadd flags) digest

def measureArea (digest : Bytes) (area : MemoryArea) : Option Bytes :=
  match area.file with
  | some file =>
    if area.isBinary then
      let baseaddr := area.addr - mapaddr file.loadcmds
      file.loadcmds.foldlM (fun digest c =>
        loadFile (baseaddr + c.addr) c.memsize (addProt area.flags c.prot) digest) digest
    else loadFile area.addr area.size area.flags digest
  | none => (pageRange area.addr area.size).foldlM (doEadd area.flags) digest

/-- What `generate_measurement` feeds to SHA-256.  The virtual memory has 64 GiB. -/
def generateMeasurement (areas : List MemoryArea) : Option Bytes :=
  areas.foldlM measureArea (doEcreate [] (1024 * 1024 * 1024 * 64))

/-! ## The pages of an area -/

/-- The pages of `load_file`. -/
def filePages (addr memsize : Nat) : List Nat :=
  pageRange (rounddown addr) (roundup (addr + memsize) - rounddown addr)

/-- The pages of an area, each with its flags. -/
def MemoryArea.pages (area : MemoryArea) : List (Nat × Nat) :=
  match area.file with
  | some file =>
    if area.isBinary then
      file.loadcmds.flatMap fun c =>
        (filePages (area.addr - mapaddr file.loadcmds + c.addr) c.memsize).map fun pg =>
          (pg, addProt area.flags c.prot)
    else (filePages area.addr area.size).map fun pg => (pg, area.flags)
  | none => (pageRange area.addr area.size).map fun pg => (pg, area.flags)

/-- The pages that are measured, in order. -/
def measuredPages (areas : List MemoryArea) : List (Nat × Nat) := areas.flatMap MemoryArea.pages

/-- Address and flags have 64 bits. -/
def Representable (page : Nat × Nat) : Prop := page.1 < 2 ^ 64 ∧ page.2 < 2 ^ 64

instance (page : Nat × Nat) : Decidable (Representable page) := inferInstanceAs (Decidable (_ ∧ _))

/-- The fields of the record of a page. -/
def words (page : Nat × Nat) : BitVec 64 × BitVec 64 :=
  (BitVec.ofNat 64 page.1, BitVec.ofNat 64 page.2)

theorem words_inj {p q : Nat × Nat} (hp : Representable p) (hq : Representable q)
    (same : words p = words q) : p = q := by
  obtain ⟨addr, flags⟩ := Prod.mk.inj same
  have addr := congrArg BitVec.toNat addr
  have flags := congrArg BitVec.toNat flags
  rw [BitVec.toNat_ofNat, BitVec.toNat_ofNat, Nat.mod_eq_of_lt hp.1, Nat.mod_eq_of_lt hq.1] at addr
  rw [BitVec.toNat_ofNat, BitVec.toNat_ofNat, Nat.mod_eq_of_lt hp.2, Nat.mod_eq_of_lt hq.2] at flags
  exact Prod.ext addr flags

theorem doEadd_eq (digest : Bytes) (page : Nat × Nat) : doEadd page.2 digest page.1 =
    if Representable page then some (digest ++ eaddRecord (words page)) else none := rfl

theorem foldlM_doEadd_map (flags : Nat) (pgs : List Nat) (digest : Bytes) :
    pgs.foldlM (doEadd flags) digest =
      (pgs.map fun pg => (pg, flags)).foldlM (fun digest page => doEadd page.2 digest page.1)
        digest := by
  rw [List.foldlM_map]

theorem measureArea_eq (digest : Bytes) (area : MemoryArea) : measureArea digest area =
    area.pages.foldlM (fun digest page => doEadd page.2 digest page.1) digest := by
  rw [measureArea, MemoryArea.pages]
  cases area.file with
  | none => exact foldlM_doEadd_map ..
  | some file =>
    by_cases binary : area.isBinary
    · simp only [if_pos binary]
      generalize area.addr - mapaddr file.loadcmds = baseaddr
      induction file.loadcmds generalizing digest with
      | nil => rfl
      | cons c cs ih =>
        rw [List.foldlM_cons, List.flatMap_cons, List.foldlM_append, ← foldlM_doEadd_map]
        exact congrArg (_ >>= ·) (funext fun digest => ih digest)
    · simp only [if_neg binary]
      exact foldlM_doEadd_map ..

theorem foldlM_measureArea (areas : List MemoryArea) (digest : Bytes) :
    areas.foldlM measureArea digest =
      (measuredPages areas).foldlM (fun digest page => doEadd page.2 digest page.1) digest := by
  induction areas generalizing digest with
  | nil => rfl
  | cons area areas ih =>
    rw [List.foldlM_cons, measuredPages, List.flatMap_cons, List.foldlM_append, measureArea_eq]
    exact congrArg (_ >>= ·) (funext fun digest => ih digest)

theorem foldlM_doEadd (pages : List (Nat × Nat)) (digest : Bytes) :
    pages.foldlM (fun digest page => doEadd page.2 digest page.1) digest =
      if ∀ p ∈ pages, Representable p then some (digest ++ (pages.map words).flatMap eaddRecord)
      else none := by
  induction pages generalizing digest with
  | nil => simp
  | cons p ps ih =>
    rw [List.foldlM_cons, doEadd_eq]
    by_cases here : Representable p
    · have all : (∀ q ∈ p :: ps, Representable q) ↔ ∀ q ∈ ps, Representable q := by
        rw [List.forall_mem_cons, and_iff_right here]
      rw [if_pos here, Option.bind_eq_bind, Option.bind_some, ih, if_congr all rfl rfl,
        List.map_cons, List.flatMap_cons, List.append_assoc]
    · rw [if_neg here, if_neg fun all => here (all p List.mem_cons_self)]
      rfl

/-- The pages of a file with segments are those of the segments, where these say. -/
theorem fileArea_pages {file : BinaryFile} (some : file.loadcmds ≠ []) (flags addr : Nat) :
    (fileArea file flags addr).pages = file.loadcmds.flatMap fun c =>
      (filePages c.addr c.memsize).map fun pg => (pg, addProt flags c.prot) := by
  have base : rounddown (mapaddr file.loadcmds) - mapaddr file.loadcmds = 0 := by
    rw [rounddown]
    omega
  rw [fileArea, if_pos some, MemoryArea.pages]
  simp only [if_true, base, Nat.zero_add]

theorem memoryArea_pages (size flags addr : Nat) : (memoryArea size flags addr).pages =
    (pageRange (rounddown addr) (roundup size)).map fun pg => (pg, flags) := rfl

theorem threadAreas_one : threadAreas 1 =
    [memoryArea 0x100000 (pageinfoR ||| pageinfoW ||| pageinfoReg) 0xc20000000,
     memoryArea 0x1000 (pageinfoR ||| pageinfoW ||| pageinfoReg) 0xc30000000,
     memoryArea 0x1000 pageinfoTcs 0xc30001000,
     memoryArea 0x2000 (pageinfoR ||| pageinfoW ||| pageinfoReg) 0xc30003000,
     memoryArea 0x1000 (pageinfoR ||| pageinfoW ||| pageinfoReg) 0xc30005000] := rfl

theorem lt_of_mem_pageRange {addr size pg : Nat} (member : pg ∈ pageRange addr size) :
    pg < addr + size + pagesize := by
  obtain ⟨i, below, rfl⟩ := List.mem_map.mp member
  rw [List.mem_range, pagesize] at below
  rw [pagesize]
  omega

theorem memoryArea_representable {size flags addr : Nat}
    (inside : addr + size + 2 * pagesize ≤ 2 ^ 64) (small : flags < 2 ^ 64) :
    ∀ page ∈ (memoryArea size flags addr).pages, Representable page := by
  intro page member
  rw [memoryArea_pages] at member
  obtain ⟨pg, there, rfl⟩ := List.mem_map.mp member
  have below := lt_of_mem_pageRange there
  rw [pagesize] at inside below
  rw [roundup, rounddown, pagesize] at below
  refine ⟨?_, small⟩
  dsimp only at below ⊢
  split at below <;> omega

/-! ## What is fed to the hash -/

/-- Where all numbers fit, the record of the enclave and those of its pages. -/
theorem generateMeasurement_eq (areas : List MemoryArea) : generateMeasurement areas =
    if ∀ p ∈ measuredPages areas, Representable p then
      some (doEcreate [] (1024 * 1024 * 1024 * 64) ++
        ((measuredPages areas).map words).flatMap eaddRecord) else none := by
  rw [generateMeasurement, foldlM_measureArea, foldlM_doEadd]

theorem generateMeasurement_some {areas : List MemoryArea} {bytes : Bytes}
    (measured : generateMeasurement areas = some bytes) :
    (∀ p ∈ measuredPages areas, Representable p) ∧ doEcreate [] (1024 * 1024 * 1024 * 64) ++
        ((measuredPages areas).map words).flatMap eaddRecord = bytes := by
  rw [generateMeasurement_eq] at measured
  split at measured
  · next fit => exact ⟨fit, Option.some.inj measured⟩
  · cases measured

@[simp] theorem length_packString (n : Nat) (text : String) : (packString n text).length = n := by
  rw [packString, List.length_take, List.length_append, List.length_replicate]
  omega

theorem length_eaddRecord (page : BitVec 64 × BitVec 64) : (eaddRecord page).length = 64 := by
  simp [eaddRecord]

/-- The records of pages, of which each has 64 bytes. -/
def eaddFormat : RecordFormat (BitVec 64 × BitVec 64) (BitVec 8) Unit where
  symbols := eaddRecord
  tokens _ := []
  selfDelimiting := by
    intro d d' bs bs' hs hs' bytes behind
    obtain ⟨record, bytes⟩ := List.append_inj bytes (by
      rw [length_eaddRecord, length_eaddRecord])
    rw [eaddRecord, eaddRecord] at record
    simp only [List.append_assoc] at record
    have fields := List.append_cancel_left record
    obtain ⟨addr, fields⟩ := leBytes64_append_inj fields
    obtain ⟨flags, -⟩ := leBytes64_append_inj fields
    exact ⟨Prod.ext addr flags, bytes, behind⟩

theorem flatMap_eaddRecord_inj {ds ds' : List (BitVec 64 × BitVec 64)}
    (same : ds.flatMap eaddRecord = ds'.flatMap eaddRecord) : ds = ds' := by
  have stuck : eaddFormat.Stuck [] [] := by
    intro d bs' hs' front
    have length := congrArg List.length front
    have record : (eaddFormat.symbols d).length = 64 := length_eaddRecord d
    rw [List.length_append, record, List.length_nil] at length
    omega
  have first : eaddFormat.Front (ds.flatMap eaddRecord) [] ds [] [] :=
    ⟨(List.append_nil _).symm, by simp [eaddFormat]⟩
  have second : eaddFormat.Front (ds.flatMap eaddRecord) [] ds' [] [] :=
    ⟨same.trans (List.append_nil _).symm, by simp [eaddFormat]⟩
  exact (first.unique second stuck stuck).1

theorem map_words_inj {ps qs : List (Nat × Nat)} (hp : ∀ p ∈ ps, Representable p)
    (hq : ∀ q ∈ qs, Representable q) (same : ps.map words = qs.map words) : ps = qs := by
  induction ps generalizing qs with
  | nil => exact (List.map_eq_nil_iff.mp same.symm).symm
  | cons p ps ih =>
    cases qs with
    | nil => simp at same
    | cons q qs =>
      obtain ⟨first, rest⟩ := List.cons.inj same
      rw [List.forall_mem_cons] at hp hq
      rw [words_inj hp.1 hq.1 first, ih hp.2 hq.2 rest]

/-- The bytes determine the pages that are measured. -/
theorem generateMeasurement_inj {areas areas' : List MemoryArea} {bytes : Bytes}
    (measured : generateMeasurement areas = some bytes)
    (measured' : generateMeasurement areas' = some bytes) :
    measuredPages areas = measuredPages areas' := by
  obtain ⟨fit, bytes⟩ := generateMeasurement_some measured
  obtain ⟨fit', bytes'⟩ := generateMeasurement_some measured'
  have records := List.append_cancel_left (bytes.trans bytes'.symm)
  exact map_words_inj fit fit' (flatMap_eaddRecord_inj records)

end SandboxTEE.Measurement
