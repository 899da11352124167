import SandboxTEE.Lib.LittleEndian
import SandboxTEE.Lib.Marshal
import SandboxTEE.Xcall.Frames

/-! # The start of the enclave (`ecall_enclave_start_u.c`, `handle_ecall.c`)

The host puts members of its `NaClApp` into a buffer one after the other, and the enclave copies
them out of the buffer into a fresh `NaClApp` of its own.  A `uintptr_t` is a word of eight bytes,
an `int` one of four.
-/

namespace SandboxTEE.Xcall.EnclaveStart

open SandboxTEE.Lib
open SandboxTEE.Lib.Marshal

/-- The members that one of the sides names; `others` stands for all the rest. -/
structure NaClApp (ρ : Type) where
  addrBits : Word 1
  stackSize : Word 8
  initialNexeMaxCodeBytes : Word 4
  memStart : Word 8
  naclSyscallAddr : Word 8
  getTlsFastPath1Addr : Word 8
  getTlsFastPath2Addr : Word 8
  staticTextEnd : Word 8
  dynamicTextStart : Word 8
  dynamicTextEnd : Word 8
  rodataStart : Word 8
  dataStart : Word 8
  dataEnd : Word 8
  initialEntryPt : Word 8
  userEntryPt : Word 8
  bundleSize : Word 4
  mainExePrevalidated : Word 4
  enableDyncodeSyscalls : Word 4
  useShmForDynamicText : Word 4
  dynamicPageBitmap : Word 8
  running : Word 4
  exitStatus : Word 4
  ignoreValidatorResult : Word 4
  skipValidator : Word 4
  validatorStubOutMode : Word 4
  breakAddr : Word 8
  exceptionHandler : Word 4
  enableExceptionHandling : Word 4
  enableFaultedThreadQueue : Word 4
  faultedThreadCount : Word 4
  faultedThreadFdRead : Word 4
  faultedThreadFdWrite : Word 4
  scNprocessorsOnln : Word 4
  others : ρ
  deriving Inhabited

/-- Memory of the host. -/
abbrev HostMem := Nat → BitVec 8

def HostMem.bytes (mem : HostMem) (addr len : Nat) : List (BitVec 8) :=
  List.ofFn fun i : Fin len => mem (addr + i)

variable {ρ : Type}

/-! ## The host's side -/

/-- `memcpy(p, &(nap->field), len)` -/
def out {n : Nat} (field : NaClApp ρ → Word n) : CopyOut (BitVec 8) (NaClApp ρ) where
  len := n
  bytes nap := (field nap).bytes
  length_bytes _ := Word.length_bytes _

/-- `memcpy(p, nap->dynamic_page_bitmap, len)`: the bytes at the pointer, not those of it. -/
def outBitmap (mem : HostMem) : CopyOut (BitVec 8) (NaClApp ρ) where
  len := 1
  bytes nap := mem.bytes nap.dynamicPageBitmap.toNat 1
  length_bytes _ := List.length_ofFn

def copiesOut (mem : HostMem) : List (CopyOut (BitVec 8) (NaClApp ρ)) :=
  [out NaClApp.addrBits, out NaClApp.stackSize, out NaClApp.initialNexeMaxCodeBytes,
    out NaClApp.memStart, out NaClApp.naclSyscallAddr, out NaClApp.getTlsFastPath1Addr,
    out NaClApp.getTlsFastPath2Addr, out NaClApp.staticTextEnd, out NaClApp.rodataStart,
    out NaClApp.dataStart, out NaClApp.dataEnd, out NaClApp.initialEntryPt,
    out NaClApp.userEntryPt, out NaClApp.bundleSize, out NaClApp.mainExePrevalidated,
    out NaClApp.enableDyncodeSyscalls, out NaClApp.useShmForDynamicText, outBitmap mem,
    out NaClApp.running, out NaClApp.exitStatus, out NaClApp.ignoreValidatorResult,
    out NaClApp.skipValidator, out NaClApp.validatorStubOutMode, out NaClApp.breakAddr,
    out NaClApp.exceptionHandler, out NaClApp.enableExceptionHandling,
    out NaClApp.enableFaultedThreadQueue, out NaClApp.faultedThreadCount,
    out NaClApp.faultedThreadFdRead, out NaClApp.faultedThreadFdWrite,
    out NaClApp.scNprocessorsOnln]

/-- The bytes of the buffer; nothing when the host reads through NULL. -/
def ecallEnclaveStart (mem : HostMem) (nap : NaClApp ρ) : Option (List (BitVec 8)) :=
  if nap.dynamicPageBitmap = 0 then none else some (marshal (copiesOut mem) nap)

/-! ## The enclave's side -/

/-- `sgx_copy_to_enclave(&nap->field, len, nap_p, len)` -/
def into {n : Nat} (set : Word n → NaClApp ρ → NaClApp ρ) : CopyIn (BitVec 8) (NaClApp ρ) where
  len := n
  put bytes nap := set (Word.ofBytes n bytes) nap

/-- The first bytes of a word are others. -/
def overwriteFront {n : Nat} (bytes : List (BitVec 8)) (v : Word n) : Word n :=
  Word.ofBytes n (bytes ++ v.bytes.drop bytes.length)

/-- `sgx_copy_to_enclave(&nap->dynamic_page_bitmap, len, nap_p, len)` with the length of a byte -/
def intoBitmap : CopyIn (BitVec 8) (NaClApp ρ) where
  len := 1
  put bytes nap := { nap with dynamicPageBitmap := overwriteFront bytes nap.dynamicPageBitmap }

def copiesIn : List (CopyIn (BitVec 8) (NaClApp ρ)) :=
  [into fun v nap => { nap with addrBits := v },
    into fun v nap => { nap with stackSize := v },
    into fun v nap => { nap with initialNexeMaxCodeBytes := v },
    into fun v nap => { nap with memStart := v },
    into fun v nap => { nap with naclSyscallAddr := v },
    into fun v nap => { nap with getTlsFastPath1Addr := v },
    into fun v nap => { nap with getTlsFastPath2Addr := v },
    into fun v nap => { nap with staticTextEnd := v },
    into fun v nap => { nap with rodataStart := v },
    into fun v nap => { nap with dataStart := v },
    into fun v nap => { nap with dataEnd := v },
    into fun v nap => { nap with initialEntryPt := v },
    into fun v nap => { nap with userEntryPt := v },
    into fun v nap => { nap with bundleSize := v },
    into fun v nap => { nap with mainExePrevalidated := v },
    into fun v nap => { nap with enableDyncodeSyscalls := v },
    into fun v nap => { nap with useShmForDynamicText := v },
    intoBitmap,
    into fun v nap => { nap with running := v },
    into fun v nap => { nap with exitStatus := v },
    into fun v nap => { nap with ignoreValidatorResult := v },
    into fun v nap => { nap with skipValidator := v },
    into fun v nap => { nap with validatorStubOutMode := v },
    into fun v nap => { nap with breakAddr := v },
    into fun v nap => { nap with exceptionHandler := v },
    into fun v nap => { nap with enableExceptionHandling := v },
    into fun v nap => { nap with enableFaultedThreadQueue := v },
    into fun v nap => { nap with faultedThreadCount := v },
    into fun v nap => { nap with faultedThreadFdRead := v },
    into fun v nap => { nap with faultedThreadFdWrite := v },
    into fun v nap => { nap with scNprocessorsOnln := v }]

/-- What `sgx_copy_to_enclave` takes from the host: nothing that is not completely outside.  The
    members it copies to are those of an object that the enclave has just made. -/
def fromHost (e : Enclave) (mem : HostMem) (addr len : Nat) : Option (List (BitVec 8)) :=
  if sgxIsCompletelyOutsideEnclave e addr len then some (mem.bytes addr len) else none

/-- The part of `handle_ecall` for `ECALL_ENCLAVE_START`: the application, and the address behind
    the last byte that was read. -/
def handleEcall (e : Enclave) (mem : HostMem) (napP : Nat) (nap : NaClApp ρ) : NaClApp ρ × Nat :=
  unmarshal copiesIn (fromHost e mem) napP nap

/-! ## Both sides -/

/-- `malloc(1024)` of the host. -/
structure HostBuffer (e : Enclave) where
  addr : Nat
  outside : Frames.CompletelyOutside e addr 1024

def HostMem.write (mem : HostMem) (addr : Nat) (bytes : List (BitVec 8)) : HostMem := fun a =>
  if addr ≤ a then bytes.getD (a - addr) (mem a) else mem a

/-- What was written is read again, piece by piece. -/
theorem HostMem.bytes_write (mem : HostMem) (addr : Nat) (front piece behind : List (BitVec 8)) :
    (mem.write addr (front ++ (piece ++ behind))).bytes (addr + front.length) piece.length =
      piece := by
  refine List.ext_getElem (List.length_ofFn ..) fun i lt lt' => ?_
  simp only [HostMem.bytes, List.getElem_ofFn]
  rw [HostMem.write, if_pos (by omega)]
  have index : addr + front.length + i - addr = front.length + i := by omega
  rw [index, List.getD_eq_getElem?_getD, List.getElem?_append_right (by omega),
    Nat.add_sub_cancel_left, List.getElem?_append_left lt', List.getElem?_eq_getElem lt']
  rfl

/-- A buffer outside the enclave can be read as far as it goes. -/
theorem holds_fromHost {e : Enclave} (buf : HostBuffer e) (mem : HostMem) {bytes : List (BitVec 8)}
    (room : bytes.length ≤ 1024) :
    Holds (fromHost e (mem.write buf.addr bytes)) buf.addr bytes := by
  intro front piece behind split
  have total := congrArg List.length split
  rw [List.length_append, List.length_append] at total
  have outside : sgxIsCompletelyOutsideEnclave e (buf.addr + front.length) piece.length = true := by
    refine (Frames.check_iff_completelyOutside (by omega)).mpr ?_
    have := buf.outside
    rw [Frames.CompletelyOutside] at this ⊢
    omega
  rw [fromHost, if_pos outside, split, HostMem.bytes_write]

/-- The members that the host sends, and all the others as they were. -/
def received (host enclave : NaClApp ρ) : NaClApp ρ :=
  { enclave with
    addrBits := host.addrBits
    stackSize := host.stackSize
    initialNexeMaxCodeBytes := host.initialNexeMaxCodeBytes
    memStart := host.memStart
    naclSyscallAddr := host.naclSyscallAddr
    getTlsFastPath1Addr := host.getTlsFastPath1Addr
    getTlsFastPath2Addr := host.getTlsFastPath2Addr
    staticTextEnd := host.staticTextEnd
    rodataStart := host.rodataStart
    dataStart := host.dataStart
    dataEnd := host.dataEnd
    initialEntryPt := host.initialEntryPt
    userEntryPt := host.userEntryPt
    bundleSize := host.bundleSize
    mainExePrevalidated := host.mainExePrevalidated
    enableDyncodeSyscalls := host.enableDyncodeSyscalls
    useShmForDynamicText := host.useShmForDynamicText
    running := host.running
    exitStatus := host.exitStatus
    ignoreValidatorResult := host.ignoreValidatorResult
    skipValidator := host.skipValidator
    validatorStubOutMode := host.validatorStubOutMode
    breakAddr := host.breakAddr
    exceptionHandler := host.exceptionHandler
    enableExceptionHandling := host.enableExceptionHandling
    enableFaultedThreadQueue := host.enableFaultedThreadQueue
    faultedThreadCount := host.faultedThreadCount
    faultedThreadFdRead := host.faultedThreadFdRead
    faultedThreadFdWrite := host.faultedThreadFdWrite
    scNprocessorsOnln := host.scNprocessorsOnln }

theorem lockstep (mem : HostMem) :
    (copiesOut (ρ := ρ) mem).map CopyOut.len = copiesIn.map (CopyIn.len (τ := NaClApp ρ)) := rfl

theorem length_marshal (mem : HostMem) (host : NaClApp ρ) :
    (marshal (copiesOut mem) host).length = 166 := by
  simp [marshal, copiesOut, out, outBitmap, HostMem.bytes]

theorem transfer_eq (mem : HostMem) (host enclave : NaClApp ρ) :
    transfer (copiesOut mem) copiesIn host enclave =
      { received host enclave with
        dynamicPageBitmap := overwriteFront (mem.bytes host.dynamicPageBitmap.toNat 1)
          enclave.dynamicPageBitmap } := by
  simp only [transfer, copiesOut, copiesIn, List.zip_cons_cons, List.zip_nil_left,
    List.foldl_cons, List.foldl_nil, out, into, outBitmap, intoBitmap, Word.ofBytes_bytes, received]

/-! ## The pointer -/

theorem Word.bytes_eq_cons (v : Word 8) :
    v.bytes = BitVec.ofNat 8 v.toNat :: leBytes 7 (v.toNat / 256) := rfl

/-- The pointer stays as it is only when the byte is its own. -/
theorem overwriteFront_eq_iff (b : BitVec 8) (v : Word 8) :
    overwriteFront [b] v = v ↔ b = BitVec.ofNat 8 v.toNat := by
  rw [overwriteFront, Word.bytes_eq_cons]
  change Word.ofBytes 8 (b :: leBytes 7 (v.toNat / 256)) = v ↔ _
  constructor
  · intro same
    have value := congrArg BitVec.toNat same
    rw [Word.ofBytes, BitVec.toNat_ofNat, leValue] at value
    refine BitVec.eq_of_toNat_eq ?_
    rw [BitVec.toNat_ofNat]
    have := b.isLt
    omega
  · intro low
    rw [low, ← Word.bytes_eq_cons, Word.ofBytes_bytes]

/-- The start as a whole: nothing when the host ends by a fault. -/
def startEnclave (e : Enclave) (mem : HostMem) (buf : HostBuffer e) (host enclave : NaClApp ρ) :
    Option (NaClApp ρ × Nat) := do
  let bytes ← ecallEnclaveStart mem host
  pure (handleEcall e (mem.write buf.addr bytes) buf.addr enclave)

theorem startEnclave_eq (e : Enclave) (mem : HostMem) (buf : HostBuffer e)
    (host enclave : NaClApp ρ) :
    startEnclave e mem buf host enclave =
      if host.dynamicPageBitmap = 0 then none
      else some
        ({ received host enclave with
            dynamicPageBitmap := overwriteFront [mem host.dynamicPageBitmap.toNat]
              enclave.dynamicPageBitmap },
          buf.addr + (marshal (copiesOut mem) host).length) := by
  rw [startEnclave, ecallEnclaveStart]
  by_cases null : host.dynamicPageBitmap = 0
  · rw [if_pos null, if_pos null]
    rfl
  · have room : (marshal (copiesOut mem) host).length ≤ 1024 := by
      rw [length_marshal]
      decide
    rw [if_neg null, if_neg null]
    change some (unmarshal _ _ _ _) = _
    rw [unmarshal_marshal host enclave (lockstep mem) (holds_fromHost buf mem room), transfer_eq]
    rfl

/-- The enclave's members are the host's, all others are as they were, and what was written has
    been read to the last byte. -/
def Transfers (e : Enclave) (mem : HostMem) (buf : HostBuffer e) (host enclave : NaClApp ρ) : Prop :=
  startEnclave e mem buf host enclave =
    some (received host enclave, buf.addr + (marshal (copiesOut mem) host).length)

theorem setBitmap_eq_iff (nap : NaClApp ρ) (v : Word 8) :
    { nap with dynamicPageBitmap := v } = nap ↔ v = nap.dynamicPageBitmap := by
  constructor
  · exact fun same => congrArg NaClApp.dynamicPageBitmap same
  · exact fun same => by rw [same]

/-- The start is right when there is a bitmap whose first byte happens to be the low byte of the
    enclave's own pointer. -/
theorem transfers_iff (e : Enclave) (mem : HostMem) (buf : HostBuffer e)
    (host enclave : NaClApp ρ) :
    Transfers e mem buf host enclave ↔
      host.dynamicPageBitmap ≠ 0 ∧
        mem host.dynamicPageBitmap.toNat = BitVec.ofNat 8 enclave.dynamicPageBitmap.toNat := by
  rw [Transfers, startEnclave_eq]
  by_cases null : host.dynamicPageBitmap = 0
  · rw [if_pos null]
    exact iff_of_false (fun h => nomatch h) fun h => h.1 null
  · have kept : (received host enclave).dynamicPageBitmap = enclave.dynamicPageBitmap := rfl
    rw [if_neg null, ← overwriteFront_eq_iff, Option.some.injEq, Prod.mk.injEq,
      and_iff_left rfl, and_iff_right null, setBitmap_eq_iff, kept]

def startBuffer : HostBuffer { base := 0x1000000, top := 0x2000000, ustackTop := 0x800000 } where
  addr := 0x3000000
  outside := by decide

/-- Without dynamic text the host reads through NULL; with a bitmap whose first page is taken the
    enclave gets a pointer to address 1. -/
theorem bitmap_not_transferred :
    ¬ Transfers _ (fun _ => 0) startBuffer (default : NaClApp Unit) default ∧
    ¬ Transfers _ (fun _ => 1) startBuffer
      { (default : NaClApp Unit) with dynamicPageBitmap := 0x4000000 } default := by
  constructor
  · rw [Transfers, startEnclave_eq, if_pos (by decide)]
    exact fun h => nomatch h
  · rw [Transfers, startEnclave_eq, if_neg (by decide)]
    intro h
    have same := congrArg NaClApp.dynamicPageBitmap (Prod.mk.inj (Option.some.inj h)).1
    exact absurd ((overwriteFront_eq_iff _ _).mp same) (by decide)

end SandboxTEE.Xcall.EnclaveStart
