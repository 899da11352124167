import SandboxTEE.HostDesc.Model
import SandboxTEE.Lib.LittleEndian
import SandboxTEE.Lib.RecordLayout

/-! # Directories of the host

`NaClHostDirGetdents` and `NaClHostDirRewind` (`nacl_host_dir.c`).  The host fills a buffer of the
enclave with whole records, in its own layout; `NaClCopyDirent` takes them out one by one
and writes them to the user's buffer in the layout of the ABI.

The host side of the call is a stub, so the host is a directory with a script that says how many
entries each call returns.
-/

namespace SandboxTEE.HostDir

open SandboxTEE.Lib
open SandboxTEE.Lib.CallTree (perform)
open SandboxTEE.HostDesc (naClXlateErrno negXlate)
open SandboxTEE.Runtime (naClAbiEINVAL)

abbrev Byte := BitVec 8

abbrev Memory := Nat → Byte

/-- The bytes in front of the first NUL, of which there must be one in the range. -/
def cstringAt (mem : Memory) : Nat → Nat → Option (List Byte)
  | 0, _ => none
  | limit + 1, a => if mem a = 0 then some [] else (cstringAt mem limit (a + 1)).map (mem a :: ·)

/-! ## Entries -/

def nameMax : Nat := 255

/-- A record as the host writes it. -/
structure DirEntry where
  ino : BitVec 64
  off : BitVec 64
  type : Byte
  name : List Byte
  /-- What stands behind the NUL, up to the next record. -/
  pad : List Byte
  noNul : 0 ∉ name
  named : name ≠ []
  fits : name.length ≤ nameMax
  aligns : pad.length < 8

namespace DirEntry

def reclen (e : DirEntry) : Nat := 20 + e.name.length + e.pad.length

/-- `struct linux_dirent64` -/
def bytes (e : DirEntry) : List Byte :=
  leBytes64 e.ino ++ leBytes64 e.off ++ leBytes 2 e.reclen ++ [e.type] ++ e.name ++ 0 :: e.pad

end DirEntry

/-! ## The host -/

/-- What the host does with a call of `getdents`. -/
inductive Batch where
  /-- One entry and at most so many others. -/
  | deliver (more : Nat)
  | fail
  deriving DecidableEq

structure DirHost where
  entries : List DirEntry
  /-- The entries behind the position of the descriptor. -/
  rest : List DirEntry
  /-- What the next calls do; a call behind the end returns as many entries as fit. -/
  script : List Batch

inductive DirCall where
  | getdents (fd : Int) (size : Nat)
  | lseek64 (fd : Int) (offset : Int) (whence : Nat)

structure DirReply where
  retval : Int
  /-- What is copied into the enclave. -/
  data : List Byte

/-- At most `count` entries from the front that fit together. -/
def fitting : Nat → Nat → List DirEntry → List DirEntry
  | _, _, [] => []
  | _, 0, _ :: _ => []
  | space, count + 1, e :: es =>
    if e.reclen ≤ space then e :: fitting (space - e.reclen) count es else []
termination_by structural _ _ es => es

def DirHost.count (h : DirHost) : Nat :=
  match h.script with
  | .deliver more :: _ => more + 1
  | _ => h.rest.length

def DirHost.Fails (h : DirHost) : Prop := h.script.head? = some .fail

instance (h : DirHost) : Decidable h.Fails := inferInstanceAs (Decidable (_ = _))

def DirHost.serve (h : DirHost) : DirCall → DirReply × DirHost
  | .getdents _ size =>
    if h.Fails then (⟨-1, []⟩, { h with script := h.script.tail })
    else
      let batch := fitting size h.count h.rest
      let data := batch.flatMap DirEntry.bytes
      (⟨data.length, data⟩,
        { h with rest := h.rest.drop batch.length, script := h.script.tail })
  | .lseek64 _ _ _ => (⟨0, []⟩, { h with rest := h.entries })

/-! ## The enclave -/

abbrev DirTree := CallTree DirCall DirReply

def check (p : Prop) [Decidable p] : DirTree Unit := if p then pure () else .abort

def direntBufBytes : Nat := 4096

def naClAbiMaxnamlen : Nat := 255

structure NaClHostDir where
  fd : Int
  curByte : Nat
  nbytes : Nat
  direntBuf : Memory

/-- The place of the name in `struct nacl_abi_dirent`, the name and its NUL, in units of eight
    bytes. -/
def adjustedSize (strlen : Nat) : Nat := (18 + strlen + 1 + 7) / 8 * 8

/-- What `NaClCopyDirent` writes for the record at `ldp`.  A name is copied when it is not empty and
    shorter than the longest. -/
def writeDirent (direntBuf : Memory) (ldp slen : Nat) (mem : Memory) (buf : Nat) : Memory :=
  let mem := store mem buf (bytesAt direntBuf ldp 8)
  let mem := store mem (buf + 8) (bytesAt direntBuf (ldp + 8) 8)
  let mem := store mem (buf + 16) (leBytes 2 (adjustedSize slen))
  if 0 < slen ∧ slen < naClAbiMaxnamlen then
    store mem (buf + 18) (bytesAt direntBuf (ldp + 19) (slen + 1))
  else mem

/-- The entry size, 0 when nothing is available, with the directory and the user's memory
    afterwards. -/
def naClCopyDirent (d : NaClHostDir) (mem : Memory) (buf len : Nat) :
    DirTree (Int × NaClHostDir × Memory) := do
  check (buf % 8 = 0)
  if d.curByte = d.nbytes then pure (0, d, mem)
  else do
    let ldp := d.curByte
    check (d.curByte < d.nbytes)
    let reclen := leValue (bytesAt d.direntBuf (ldp + 16) 2)
    check (reclen ≤ d.nbytes - d.curByte)
    match cstringAt d.direntBuf (direntBufBytes - (ldp + 19)) (ldp + 19) with
    | none => .abort
    | some name =>
      let adjusted := adjustedSize name.length
      if len < adjusted then pure (-(naClAbiEINVAL : Int), d, mem)
      else pure (adjusted, { d with curByte := ldp + reclen },
        writeDirent d.direntBuf ldp name.length mem buf)

/-- `errno` is that of the enclave.  The fuel bounds the passes of the loop. -/
def naClStreamDirents (errno : Nat) :
    Nat → NaClHostDir → Memory → Nat → Nat → Nat → DirTree (Int × NaClHostDir × Memory)
  | 0, _, _, _, _, _ => .abort
  | fuel + 1, d, mem, buf, len, xferred =>
    if len = 0 then pure (xferred, d, mem)
    else do
      let (entrySize, d, mem) ← naClCopyDirent d mem buf len
      if entrySize = 0 then do
        check (d.curByte = d.nbytes)
        let reply ← perform (.getdents d.fd direntBufBytes)
        if reply.retval = -1 then
          -- next time through, the error is picked up again
          pure (if 0 < xferred then xferred else negXlate errno, d, mem)
        else if reply.retval = 0 then pure (xferred, d, mem)
        else
          naClStreamDirents errno fuel
            { d with
              curByte := 0
              nbytes := reply.retval.toNat
              direntBuf := store d.direntBuf 0 reply.data } mem buf len xferred
      else if entrySize < 0 then pure (if 0 < xferred then xferred else entrySize, d, mem)
      else do
        check (entrySize ≤ len)
        naClStreamDirents errno fuel d mem (buf + entrySize.toNat) (len - entrySize.toNat)
          (xferred + entrySize.toNat)

/-- Each record takes one pass, and one more when the buffer must be filled for it. -/
def streamFuel (len : Nat) : Nat := 2 * len + 2

/-- The result is kept in an `int`. -/
def naClHostDirGetdents (errno : Nat) (d : NaClHostDir) (mem : Memory) (buf len : Nat) :
    DirTree (Int × NaClHostDir × Memory) :=
  if buf % 8 ≠ 0 then pure (-(naClAbiEINVAL : Int), d, mem)
  else do
    let (retval, d, mem) ← naClStreamDirents errno (streamFuel len) d mem buf len 0
    pure (retval.bmod (2 ^ 32), d, mem)

/-- What the seek returns is translated as if it were an error number. -/
def naClHostDirRewind (d : NaClHostDir) : DirTree Int := do
  let reply ← perform (.lseek64 d.fd 0 0)
  pure (-((if reply.retval < 0 then naClAbiEINVAL else naClXlateErrno reply.retval.toNat : Nat) : Int))

/-! ## The user -/

structure NaClDirent where
  ino : BitVec 64
  off : BitVec 64
  name : List Byte
  deriving DecidableEq

/-- `struct nacl_abi_dirent`, in a record of `reclen` bytes. -/
def naClDirentAt (mem : Memory) (a reclen : Nat) : Option NaClDirent :=
  (cstringAt mem (reclen - 18) (a + 18)).map fun name =>
    ⟨BitVec.ofNat 64 (leValue (bytesAt mem a 8)), BitVec.ofNat 64 (leValue (bytesAt mem (a + 8) 8)),
      name⟩

/-- The records in `left` bytes, each behind the one in front of it. -/
def naClDirents (mem : Memory) : Nat → Nat → Nat → Option (List NaClDirent)
  | 0, _, left => if left = 0 then some [] else none
  | fuel + 1, a, left =>
    if left = 0 then some []
    else do
      let reclen := leValue (bytesAt mem (a + 16) 2)
      if reclen = 0 ∨ left < reclen then none
      else do
        let first ← naClDirentAt mem a reclen
        let others ← naClDirents mem fuel (a + reclen) (left - reclen)
        some (first :: others)

end SandboxTEE.HostDir
