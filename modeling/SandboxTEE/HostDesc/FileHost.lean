import SandboxTEE.HostDesc.Host
import SandboxTEE.Lib.Extent

/-! # A host that stores bytes faithfully

The files of the host are byte lists, a descriptor of it has a file and a position, and every
transfer is in full.  The cipher xors its input with a keystream that belongs to the key and
the vector it was given.  Behind such a host each operation on a keyed descriptor has one
result and one effect on the files; these are the `run_` theorems.
-/

namespace SandboxTEE.HostDesc

open SandboxTEE.Lib (CallTree readAt writeAt length_readAt length_writeAt writeAt_nil)
open SandboxTEE.Runtime
open SandboxTEE.Stdlib

/-! ## Keyed descriptors -/

/-- The position in the keystream counts from the call of `wc_AesSetKey`. -/
abbrev Keystream := List Byte → List Byte → Nat → Byte

/-- `wc_AesCtrEncrypt` -/
def xorStream (stream : Nat → Byte) (input : List Byte) : List Byte :=
  input.mapIdx fun i b => b ^^^ stream i

@[simp] theorem length_xorStream (stream : Nat → Byte) (input : List Byte) :
    (xorStream stream input).length = input.length := List.length_mapIdx

/-- An open descriptor whose key has the length that turns the cipher on. -/
structure KeyedDesc where
  desc : NaClHostDesc
  key : List Byte
  iv : List Byte
  keyed : desc.keyIv = some (key, iv)
  valid : desc.d ≠ -1

namespace KeyedDesc

def writable (k : KeyedDesc) : Prop := k.desc.flags &&& accMode ≠ oRDONLY

def readable (k : KeyedDesc) : Prop := k.desc.flags &&& accMode ≠ oWRONLY

instance (k : KeyedDesc) : Decidable k.writable := inferInstanceAs (Decidable (_ ≠ _))

instance (k : KeyedDesc) : Decidable k.readable := inferInstanceAs (Decidable (_ ≠ _))

theorem checkValidity (k : KeyedDesc) : naClHostDescCheckValidity k.desc = pure () :=
  if_neg k.valid

theorem write_eq (k : KeyedDesc) (errno : Nat) (buf : List Byte) :
    naClHostDescWrite errno k.desc buf =
      if k.writable then writeFile errno k.desc k.key k.iv buf else pure (-naClAbiEBADF) := by
  rw [naClHostDescWrite, k.checkValidity, CallTree.pure_bind_eq, k.keyed]
  by_cases writable : k.writable
  · exact (if_neg writable).trans (if_pos writable).symm
  · exact (if_pos (not_not.mp writable)).trans (if_neg writable).symm

theorem read_eq (k : KeyedDesc) (errno len : Nat) : naClHostDescRead errno k.desc len =
      if k.readable then readFile errno k.desc k.key k.iv len else pure (-naClAbiEBADF, []) := by
  rw [naClHostDescRead, k.checkValidity, CallTree.pure_bind_eq, k.keyed]
  by_cases readable : k.readable
  · exact (if_neg readable).trans (if_pos readable).symm
  · exact (if_pos (not_not.mp readable)).trans (if_neg readable).symm

end KeyedDesc

/-! ## The host -/

/-- An open file description of the host. -/
structure OpenFile where
  file : Nat
  pos : Nat
  append : Bool

structure FileState where
  contents : Nat → List Byte
  opened : Int → OpenFile

namespace FileState

/-- The bytes of the file that is open at `fd`. -/
def bytes (s : FileState) (fd : Int) : List Byte := s.contents (s.opened fd).file

def moveTo (s : FileState) (fd : Int) (pos : Nat) : FileState :=
  { s with opened := Function.update s.opened fd { s.opened fd with pos := pos } }

def store (s : FileState) (fd : Int) (off : Nat) (buf : List Byte) : FileState :=
  { s with contents :=
      Function.update s.contents (s.opened fd).file (writeAt 0 (s.bytes fd) off buf) }

/-- Where the next write goes. -/
def writePos (s : FileState) (fd : Int) : Nat :=
  if (s.opened fd).append then (s.bytes fd).length else (s.opened fd).pos

def afterWrite (s : FileState) (fd : Int) (buf : List Byte) : FileState :=
  (s.store fd (s.writePos fd) buf).moveTo fd (s.writePos fd + buf.length)

/-- What a transfer of `count` bytes from the position gets. -/
def ahead (s : FileState) (fd : Int) (count : Nat) : List Byte :=
  readAt (s.bytes fd) (s.opened fd).pos count

variable (s : FileState) (fd fd' : Int) (pos off : Nat) (buf : List Byte)

@[simp] theorem pos_moveTo : ((s.moveTo fd pos).opened fd).pos = pos := by
  simp [moveTo]

@[simp] theorem file_moveTo : ((s.moveTo fd pos).opened fd').file = (s.opened fd').file := by
  by_cases h : fd' = fd <;> simp [moveTo, h]

@[simp] theorem append_moveTo : ((s.moveTo fd pos).opened fd').append = (s.opened fd').append := by
  by_cases h : fd' = fd <;> simp [moveTo, h]

@[simp] theorem bytes_moveTo : (s.moveTo fd pos).bytes fd' = s.bytes fd' := by
  rw [bytes, file_moveTo]
  rfl

@[simp] theorem contents_moveTo : (s.moveTo fd pos).contents = s.contents := rfl

@[simp] theorem opened_store : (s.store fd off buf).opened = s.opened := rfl

@[simp] theorem bytes_store : (s.store fd off buf).bytes fd = writeAt 0 (s.bytes fd) off buf :=
  Function.update_self ..

/-- Two effects on one file are the same if they leave the same bytes in it. -/
theorem contents_store_inj {off' : Nat} {buf' : List Byte} :
    (s.store fd off buf).contents = (s.store fd off' buf').contents ↔
      writeAt 0 (s.bytes fd) off buf = writeAt 0 (s.bytes fd) off' buf' :=
  ⟨fun h => by rw [← bytes_store, ← bytes_store]; exact congrFun h _,
    fun h => by rw [store, store, h]⟩

@[simp] theorem file_afterWrite :
    ((s.afterWrite fd buf).opened fd').file = (s.opened fd').file := by
  rw [afterWrite, file_moveTo, opened_store]

@[simp] theorem bytes_afterWrite :
    (s.afterWrite fd buf).bytes fd = writeAt 0 (s.bytes fd) (s.writePos fd) buf := by
  rw [afterWrite, bytes_moveTo, bytes_store]

/-- In append mode the file ends where the write did. -/
theorem writePos_afterWrite : (s.afterWrite fd buf).writePos fd = s.writePos fd + buf.length := by
  rw [writePos, bytes_afterWrite, afterWrite, append_moveTo, opened_store, pos_moveTo]
  split
  · next append =>
    rw [writePos, if_pos append]
    by_cases empty : buf = []
    · rw [empty, writeAt_nil]
      rfl
    · rw [length_writeAt _ _ _ empty]
      omega
  · rfl

end FileState

/-- The base of a seek. -/
def seekBase (s : FileState) (fd : Int) : Nat → Option Nat
  | 0 => some 0
  | 1 => some (s.opened fd).pos
  | 2 => some (s.bytes fd).length
  | _ => none

/-- An offset is an `off64_t`; on Linux a positional write ignores it in append mode. -/
def fileHost (s : FileState) : HostCall → HostResult × FileState
  | .read fd count =>
    let got := s.ahead fd count
    (.ok got.length got, s.moveTo fd ((s.opened fd).pos + got.length))
  | .write fd buf => (.ok buf.length [], s.afterWrite fd buf)
  | .pread64 fd count pos =>
    if 2 ^ 63 ≤ pos then (.fail naClAbiEINVAL, s)
    else
      let got := readAt (s.bytes fd) pos count
      (.ok got.length got, s)
  | .pwrite64 fd buf offset =>
    if 2 ^ 63 ≤ offset then (.fail naClAbiEINVAL, s)
    else
      let off := if (s.opened fd).append then (s.bytes fd).length else offset
      (.ok buf.length [], s.store fd off buf)
  | .lseek64 fd offset whence =>
    match seekBase s fd whence with
    | none => (.fail naClAbiEINVAL, s)
    | some base =>
      if base + offset < 0 then (.fail naClAbiEINVAL, s)
      else (.ok (base + offset).toNat [], s.moveTo fd (base + offset).toNat)
  | .allocUntrusted _ | .unmapUntrusted _ => (.ok 0 [], s)
  | _ => (.fail naClAbiENOSYS, s)

/-- The cipher is AES-CTR; `heap` is what new memory holds.  The host has no other services. -/
def serveFiles (ks : Keystream) (heap : FileState → Nat → List Byte) (s : FileState) :
    Call → Reply × FileState
  | .host c => (untrustedReply c (fileHost s c).1, (fileHost s c).2)
  | .malloc size => ({ ret := 0, data := heap s size }, s)
  | .wcInitRng | .wcAesSetKey .. => ({ ret := 0 }, s)
  | .wcAesCtrEncrypt key iv input => ({ ret := 0, data := xorStream (ks key iv) input }, s)
  | _ => ({ ret := -1 }, s)

variable (ks : Keystream) (heap : FileState → Nat → List Byte) {s s' : FileState}

/-! ## The wrappers -/

theorem run_sgxOcall (c : HostCall) (s : FileState) : (sgxOcall c).run (serveFiles ks heap) s =
      (some (untrustedReply c (fileHost s c).1), (fileHost s c).2) := rfl

/-- The host provides the memory for a transfer. -/
theorem run_withUntrustedBuf {limit count : Nat} {body : HostTree Reply} {reply : Reply}
    (h : body.run (serveFiles ks heap) s = (some reply, s')) :
    (withUntrustedBuf limit count body).run (serveFiles ks heap) s = (some reply, s') := by
  rw [withUntrustedBuf]
  split
  · have alloc : (sgxOcall (.allocUntrusted (allocAlignup count))).run (serveFiles ks heap) s =
        (some { ret := cInt (0 : Nat) }, s) := rfl
    rw [cInt_of_lt (by decide)] at alloc
    rw [CallTree.run_bind_of_some alloc, if_neg (by decide), CallTree.run_bind_of_some h,
      if_pos Int.ofNat_zero]
    rfl
  · exact h

theorem run_ocallRead (fd : Int) {count : Nat} (small : count < 2 ^ 31) (s : FileState) :
    (ocallRead fd count).run (serveFiles ks heap) s =
      (some { ret := (s.ahead fd count).length, data := s.ahead fd count },
        s.moveTo fd ((s.opened fd).pos + (s.ahead fd count).length)) := by
  have short : (s.ahead fd count).length ≤ count := by
    rw [FileState.ahead, length_readAt]
    exact Nat.min_le_left ..
  rw [ocallRead, Nat.mod_eq_of_lt (by omega)]
  refine run_withUntrustedBuf ks heap ?_
  rw [CallTree.run_bind_of_some (run_sgxOcall ks heap _ s)]
  simp only [fileHost, untrustedReply, cInt_of_lt (Nat.lt_of_le_of_lt short small)]
  split
  · rw [if_neg (by omega), CallTree.run_pure, Int.toNat_natCast, List.take_length]
  · next none =>
    rw [CallTree.run_pure, List.eq_nil_of_length_eq_zero (by omega : (s.ahead fd count).length = 0)]

theorem run_ocallWrite (fd : Int) {buf : List Byte} (small : buf.length < 2 ^ 31) (s : FileState) :
    (ocallWrite fd buf).run (serveFiles ks heap) s =
      (some { ret := buf.length }, s.afterWrite fd buf) := by
  rw [ocallWrite, Nat.mod_eq_of_lt (by omega), List.take_length]
  refine run_withUntrustedBuf ks heap ?_
  rw [CallTree.run_bind_of_some (run_sgxOcall ks heap _ s)]
  simp only [fileHost, untrustedReply, cInt_of_lt small]
  rw [if_neg (by omega), CallTree.run_pure]

/-- The field for the offset has the width of the argument. -/
theorem run_ocallPread64 (fd : Int) {count off : Nat} (small : count < 2 ^ 31) (offset : off < 2 ^ 63)
    (s : FileState) :
    (ocallPread64 fd count off).run (serveFiles ks heap) s =
      (some { ret := (readAt (s.bytes fd) off count).length, data := readAt (s.bytes fd) off count },
        s) := by
  have short : (readAt (s.bytes fd) off count).length ≤ count := by
    rw [length_readAt]
    exact Nat.min_le_left ..
  have width : ((off : Int) % 2 ^ 64).toNat = off := by omega
  rw [ocallPread64, Nat.mod_eq_of_lt (by omega), width]
  refine run_withUntrustedBuf ks heap ?_
  rw [CallTree.run_bind_of_some (run_sgxOcall ks heap _ s)]
  simp only [fileHost, untrustedReply, if_neg (show ¬ 2 ^ 63 ≤ off by omega),
    cInt_of_lt (Nat.lt_of_le_of_lt short small)]
  split
  · rw [CallTree.run_pure, Int.toNat_natCast, List.take_length]
  · next none =>
    rw [CallTree.run_pure,
      List.eq_nil_of_length_eq_zero (by omega : (readAt (s.bytes fd) off count).length = 0)]

theorem run_ocallPwrite64 (fd : Int) {buf : List Byte} {off : Nat} (small : buf.length < 2 ^ 31)
    (mode : (s.opened fd).append = false) : (ocallPwrite64 fd buf off).run (serveFiles ks heap) s =
      (some { ret := buf.length }, s.store fd (off % 2 ^ 32) buf) := by
  have width : ((off : Int) % 2 ^ 32).toNat = off % 2 ^ 32 := by omega
  rw [ocallPwrite64, Nat.mod_eq_of_lt (by omega), List.take_length, width]
  refine run_withUntrustedBuf ks heap ?_
  rw [run_sgxOcall]
  simp only [fileHost, untrustedReply, if_neg (show ¬ 2 ^ 63 ≤ off % 2 ^ 32 by omega), mode,
    Bool.false_eq_true, if_false, cInt_of_lt small]

/-! ## The operations on a keyed descriptor -/

theorem natCast_ne_minusOne (n : Nat) : (n : Int) ≠ -1 := by omega

variable (k : KeyedDesc)

theorem run_seekTo (errno off : Nat) (s : FileState) : ∃ result,
    (naClHostDescSeek errno k.desc off 0).run (serveFiles ks heap) s =
      (some result, s.moveTo k.desc.d off) := by
  have host : fileHost s (.lseek64 k.desc.d off 0) = (.ok off [], s.moveTo k.desc.d off) := by
    simp only [fileHost, seekBase, Int.ofNat_zero, Int.zero_add, Int.toNat_natCast]
    rw [if_neg (by omega)]
  rw [naClHostDescSeek, k.checkValidity, CallTree.pure_bind_eq, ocallLseek64,
    CallTree.run_bind_of_some (run_sgxOcall ks heap _ s), host]
  split <;> exact ⟨_, rfl⟩

theorem run_write (errno : Nat) {buf : List Byte} (writable : k.writable)
    (small : buf.length < 2 ^ 31) (s : FileState) :
    (naClHostDescWrite errno k.desc buf).run (serveFiles ks heap) s =
      (some (buf.length : Int), s.afterWrite k.desc.d (xorStream (ks k.key k.iv) buf)) := by
  have small' : (xorStream (ks k.key k.iv) buf).length < 2 ^ 31 := by rwa [length_xorStream]
  have written := run_ocallWrite ks heap k.desc.d small' s
  rw [k.write_eq, if_pos writable, writeFile]
  simp only [CallTree.perform_bind, CallTree.run_call, serveFiles, ne_eq, not_true_eq_false,
    if_false]
  rw [CallTree.run_bind_of_some written, length_xorStream, if_neg (natCast_ne_minusOne _),
    CallTree.run_pure]

/-- The whole buffer goes through the cipher; what was read stands at its beginning. -/
theorem run_read (errno : Nat) {len : Nat} (readable : k.readable)
    (small : len < 2 ^ 31) (s : FileState) : ∃ data : List Byte,
    (naClHostDescRead errno k.desc len).run (serveFiles ks heap) s =
      (some (((s.ahead k.desc.d len).length : Int), data),
        s.moveTo k.desc.d ((s.opened k.desc.d).pos + (s.ahead k.desc.d len).length)) ∧
    data.take (s.ahead k.desc.d len).length = xorStream (ks k.key k.iv) (s.ahead k.desc.d len) := by
  have got := run_ocallRead ks heap k.desc.d small s
  refine ⟨xorStream (ks k.key k.iv)
    (s.ahead k.desc.d len ++ (heap s len).drop (s.ahead k.desc.d len).length), ?_, ?_⟩
  · rw [k.read_eq, if_pos readable, readFile]
    simp only [CallTree.perform_bind, CallTree.run_call, serveFiles]
    rw [CallTree.run_bind_of_some got, if_neg (natCast_ne_minusOne _)]
    rfl
  · rw [xorStream, List.mapIdx_append, List.take_left' List.length_mapIdx]
    rfl

theorem run_pread (errno : Nat) {len off : Nat} (readable : k.readable)
    (small : len < 2 ^ 31) (offset : off < 2 ^ 63) (s : FileState) :
    (naClHostDescPRead errno k.desc len off).run (serveFiles ks heap) s =
      (some (((readAt (s.bytes k.desc.d) off len).length : Int),
        readAt (s.bytes k.desc.d) off len), s) := by
  have got := run_ocallPread64 ks heap k.desc.d small offset s
  rw [naClHostDescPRead, k.checkValidity, CallTree.pure_bind_eq, if_neg readable,
    CallTree.run_bind_of_some got, if_neg (natCast_ne_minusOne _), CallTree.run_pure]

theorem run_pwrite (errno : Nat) {buf : List Byte} {off : Nat}
    (writable : k.writable) (mode : k.desc.flags &&& oAPPEND = 0)
    (hostMode : (s.opened k.desc.d).append = false) (small : buf.length < 2 ^ 31) :
    (naClHostDescPWrite errno k.desc buf off).run (serveFiles ks heap) s =
      (some (buf.length : Int), s.store k.desc.d (off % 2 ^ 32) buf) := by
  have written := @run_ocallPwrite64 ks heap s k.desc.d buf off small hostMode
  rw [naClHostDescPWrite, k.checkValidity, CallTree.pure_bind_eq, if_neg writable,
    if_neg (not_not_intro mode), CallTree.run_bind_of_some written,
    if_neg (natCast_ne_minusOne _), CallTree.run_pure]

/-! ## A sample -/

/-- AES-128 in counter mode, for sixteen bytes 65 as key and sixteen zeros as vector. -/
def sampleStream : Keystream := fun _ _ i =>
  [129, 214, 205, 195, 189, 22, 251, 141, 114, 185, 187, 136, 129, 139, 91, 233].getD i 0

/-- A descriptor that is open for reading and writing, with such a key. -/
def sampleDesc : KeyedDesc where
  desc :=
    { d := 5
      flags := oRDWR
      descCtx := some
        { sksKey := some (List.replicate 64 65), sksKeyLen := 64, iv := List.replicate 16 0 } }
  key := List.replicate 16 65
  iv := List.replicate 16 0
  keyed := by decide
  valid := by decide

/-- Every descriptor is at the start of a file that holds `content`. -/
def sampleState (content : List Byte) : FileState where
  contents _ := content
  opened _ := { file := 0, pos := 0, append := false }

/-- New memory is zero. -/
def zeroHeap : FileState → Nat → List Byte := fun _ size => List.replicate size 0

end SandboxTEE.HostDesc
