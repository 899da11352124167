import SandboxTEE.Loader.MapSegment

/-! # The pages that the host adds (`sgx_interface.c`, `elf_util_usgx.c`, `sel_ldr_standard_usgx.c`)

`add_pages_to_enclave` asks the driver for one page after the other, and says of each whether its
contents are to be measured.  Behind the executable come the trampolines, the stack of the
application, the service runtime, and what a thread of the enclave needs.

* `naClElfImageLoadServiceRuntime_pages`: the pages of a service runtime that is loaded.
* `runtime_not_measured`: the contents of none of them are measured.
-/

namespace SandboxTEE.Measurement

open SandboxTEE.Lib
open SandboxTEE.Loader (Stop naClRoundPage naclPagesize pfR pfW pfX ptLoad)
open SandboxTEE.Loader.ElfFile (Bytes Elf32Phdr pread protRead protWrite protExec Page Loading)

/-! ## `add_pages_to_enclave` -/

inductive SgxPageType where
  | secs
  | tcs
  | reg

/-- `struct sgx_enclave_add_page`, with the flags of the `SECINFO`.  A bit of `mrmask` stands for a
    block of 256 bytes that is measured. -/
structure AddPage where
  addr : Nat
  flags : Nat
  mrmask : Nat
deriving DecidableEq

/-- `secinfo.flags`; a page of type `SGX_PAGE_SECS` is refused. -/
def secinfoFlags (type : SgxPageType) (prot : Nat) : Option Nat :=
  match type with
  | .secs => none
  | .tcs => some 0x100
  | .reg =>
    let flags := 0x200
    let flags := if prot &&& protRead ≠ 0 then flags ||| 0x001 else flags
    let flags := if prot &&& protWrite ≠ 0 then flags ||| 0x002 else flags
    some (if prot &&& protExec ≠ 0 then flags ||| 0x004 else flags)

/-- The requests of a call of which the driver takes every one.  The enclave's own base is 0. -/
def addPagesToEnclave (addr size : Nat) (type : SgxPageType) (prot : Nat) (skipEextend : Bool) :
    List AddPage :=
  match secinfoFlags type prot with
  | none => []
  | some flags =>
    (List.range ((size + 0x1000 - 1) / 0x1000)).map fun i =>
      { addr := addr + i * 0x1000
        flags := flags
        mrmask := if skipEextend then 0 else 0xffff }

/-! ## The service runtime -/

/-- `prot` in `NaClElfImageLoadServiceRuntime`. -/
def runtimeProt (pFlags : Word 4) : Option Nat :=
  if pFlags = pfR ||| pfX then some (protRead + protExec)
  else if pFlags = pfR ||| pfW then some (protRead + protWrite)
  else if pFlags = pfR then some protRead
  else none

def baseAddr : Nat := 48 * 1024 * 1024 * 1024

/-- A segment of `NaClElfImageLoadServiceRuntime`. -/
def loadRuntimeSegment (file : Bytes) (php : Elf32Phdr) : Except Stop (List AddPage) :=
  -- `image->loadable`
  if php.pType ≠ ptLoad then .ok []
  else if php.pFilesz = 0 then .ok []
  else if php.endVaddr < php.pVaddr.toNat then
    .error (.fatal "parameter error should have been detected already\n")
  else match runtimeProt php.pFlags with
    | none => .error (.fatal "NaClElfFileMapSegment: unexpected php->p_flags\n")
    | some prot =>
      if pread file php.pFilesz.toNat php.pOffset.toNat = [] then
        .error (.fatal "NaClElfFileMapSegment: malloc failed2\n")
      else
        .ok (addPagesToEnclave (php.pVaddr.toNat + baseAddr) (naClRoundPage php.pMemsz.toNat) .reg
          prot true)

/-- `NaClElfImageLoadServiceRuntime` -/
def naClElfImageLoadServiceRuntime (file : Bytes) (phdrs : List Elf32Phdr) :
    Except Stop (List AddPage) :=
  phdrs.foldlM (fun added php => (loadRuntimeSegment file php).map (added ++ ·)) []

/-! ## The rest of the enclave -/

/-- `NaClLoadTrampoline`, whose system calls fill 64 KiB. -/
def naClLoadTrampoline : List AddPage :=
  addPagesToEnclave (0x100000000 + 0x10000) 0x10000 .reg (protRead + protExec) true

def stackAddr : Nat := 0xc20000000
def tlsAddr : Nat := 0xc30000000
def tcsAddr : Nat := tlsAddr + 0x1000
def ssaAddr : Nat := tlsAddr + 3 * 0x1000

def nacLStack : List AddPage :=
  addPagesToEnclave (0x100000000 + 0xf0000000) 0x10000000 .reg (protRead + protWrite) true

/-- The pages of a thread. -/
def threadPages : List AddPage :=
  addPagesToEnclave stackAddr 0x100000 .reg (protRead + protWrite) true ++
    addPagesToEnclave tlsAddr 0x1000 .reg (protRead + protWrite) true ++
    addPagesToEnclave tcsAddr 0x1000 .tcs 0 true ++
    addPagesToEnclave ssaAddr (0x1000 * 2) .reg (protRead + protWrite) true ++
    addPagesToEnclave (ssaAddr + 0x1000 * 2) 0x1000 .reg (protRead + protWrite) true

/-- `NaClLoadSGXSpecific`, with the pages of the service runtime. -/
def naClLoadSGXSpecific (runtime : List AddPage) : List AddPage :=
  nacLStack ++ runtime ++ threadPages

/-- A page of the executable, which `NaClElfFileMapSegment` adds. -/
def execPage (page : Page) : List AddPage := addPagesToEnclave page.addr 0x1000 .reg page.prot true

/-- The pages that the host adds, in order. -/
def hostPages (exec : Loading) (runtime : List AddPage) : List AddPage :=
  exec.pages.flatMap execPage ++ naClLoadTrampoline ++ naClLoadSGXSpecific runtime

/-! ## The pages of a service runtime -/

theorem length_addPagesToEnclave (addr size prot : Nat) (skipEextend : Bool) :
    (addPagesToEnclave addr size .reg prot skipEextend).length = (size + 0x1000 - 1) / 0x1000 := by
  rw [addPagesToEnclave, secinfoFlags]
  simp

/-- A size of 32 bits is rounded up to whole pages. -/
theorem naClRoundPage_word {n : Nat} (word : n < 2 ^ 32) :
    naClRoundPage n = (n + 0x1000 - 1) / 0x1000 * 0x1000 := by
  rw [naClRoundPage, naclPagesize]
  omega

/-- What a segment adds if it is loaded. -/
def runtimePages (php : Elf32Phdr) : List AddPage :=
  if php.pType = ptLoad ∧ php.pFilesz ≠ 0 then
    addPagesToEnclave (php.pVaddr.toNat + baseAddr) (naClRoundPage php.pMemsz.toNat) .reg
      ((runtimeProt php.pFlags).getD 0) true
  else []

/-- A segment with bytes in the file has a protection that the loader knows. -/
def KnownProt (php : Elf32Phdr) : Prop :=
  php.pType = ptLoad → php.pFilesz ≠ 0 → (runtimeProt php.pFlags).isSome

variable {file : Bytes}

theorem loadRuntimeSegment_ok {php : Elf32Phdr} {added : List AddPage}
    (loaded : loadRuntimeSegment file php = .ok added) :
    added = runtimePages php ∧ KnownProt php := by
  rw [loadRuntimeSegment] at loaded
  split at loaded
  · next other =>
    rw [runtimePages, if_neg fun load => other load.1]
    exact ⟨(Except.ok.inj loaded).symm, fun load => absurd load other⟩
  · next load =>
    split at loaded
    · next none =>
      rw [runtimePages, if_neg fun some => some.2 none]
      exact ⟨(Except.ok.inj loaded).symm, fun _ some => absurd none some⟩
    · next some =>
      split at loaded
      · cases loaded
      · cases known : runtimeProt php.pFlags with
        | none => simp [known] at loaded
        | some prot =>
          simp only [known] at loaded
          split at loaded
          · cases loaded
          · rw [runtimePages, if_pos ⟨not_not.mp load, some⟩, known]
            refine ⟨(Except.ok.inj loaded).symm, fun _ _ => ?_⟩
            rw [known]
            rfl

variable {runtime : List AddPage} {phdrs : List Elf32Phdr}

/-- The pages of a service runtime are those of its segments. -/
theorem naClElfImageLoadServiceRuntime_pages
    (loaded : naClElfImageLoadServiceRuntime file phdrs = .ok runtime) :
    runtime = phdrs.flatMap runtimePages ∧ ∀ php ∈ phdrs, KnownProt php := by
  refine foldlM_done (R := fun done runtime => runtime = done.flatMap runtimePages ∧
    ∀ php ∈ done, KnownProt php) ?_ ⟨rfl, by simp⟩ loaded
  rintro done added php added' ⟨rfl, known⟩ step
  cases segment : loadRuntimeSegment file php with
  | error e =>
    rw [segment] at step
    cases step
  | ok more =>
    rw [segment] at step
    cases step
    obtain ⟨rfl, here⟩ := loadRuntimeSegment_ok segment
    refine ⟨by simp, fun q member => ?_⟩
    cases List.mem_append.mp member with
    | inl earlier => exact known q earlier
    | inr last => exact List.mem_singleton.mp last ▸ here

theorem mrmask_addPagesToEnclave {addr size prot : Nat} {type : SgxPageType} {page : AddPage}
    (member : page ∈ addPagesToEnclave addr size type prot true) : page.mrmask = 0 := by
  rw [addPagesToEnclave] at member
  cases flags : secinfoFlags type prot with
  | none => simp [flags] at member
  | some f =>
    simp only [flags] at member
    obtain ⟨i, -, rfl⟩ := List.mem_map.mp member
    rfl

theorem runtime_not_measured (loaded : naClElfImageLoadServiceRuntime file phdrs = .ok runtime) :
    ∀ page ∈ runtime, page.mrmask = 0 := by
  intro page member
  rw [(naClElfImageLoadServiceRuntime_pages loaded).1] at member
  obtain ⟨php, -, here⟩ := List.mem_flatMap.mp member
  rw [runtimePages] at here
  split at here
  · exact mrmask_addPagesToEnclave here
  · cases here

end SandboxTEE.Measurement
