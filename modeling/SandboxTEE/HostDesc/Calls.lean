import Mathlib.Algebra.Group.Int.Defs
import Mathlib.Algebra.Group.Nat.Defs
import SandboxTEE.Lib.CallTree
import SandboxTEE.Stdlib.Cstring

/-! # What the SGX host descriptors call (`xcall/ocall_file_t.c`, `ocall_dir_t.c`)

A descriptor operation is a call tree over the host calls and over the parts of the
enclave it uses: wolfCrypt, the heap, the clock, and the TLS sessions with the monitor
and the key store.  The functions here are the trusted wrappers as far as values go:
how the arguments are narrowed to the fields of the shared structure, and what becomes
of the return value.  The pointers are the subject of `Xcall`.
-/

namespace SandboxTEE.HostDesc

open SandboxTEE.Lib (CallTree)
open SandboxTEE.Lib.CallTree (perform)
open SandboxTEE.Stdlib (Byte)

/-- A host call, with the fields of its `ms` structure. -/
inductive HostCall where
  | open (pathname : List Byte) (flags mode : Nat)
  | close (fd : Int)
  | read (fd : Int) (count : Nat)
  | write (fd : Int) (buf : List Byte)
  | pread64 (fd : Int) (count pos : Nat)
  | pwrite64 (fd : Int) (buf : List Byte) (offset : Nat)
  | lseek64 (fd offset : Int) (whence : Nat)
  | fstat64 (fd : Int)
  | stat64 (path : List Byte)
  | lstat64 (path : List Byte)
  | fsync (fd : Int)
  | ftruncate (fd : Int) (length : Nat)
  | mkdir (pathname : List Byte) (mode : Nat)
  | rmdir (pathname : List Byte)
  | chdir (pathname : List Byte)
  | getcwd (size : Nat)
  | link (oldpath newpath : List Byte)
  | unlink (pathname : List Byte)
  | truncate (pathname : List Byte) (size : Nat)
  | rename (oldpath newpath : List Byte)
  | chmod (path : List Byte) (mode : Nat)
  | access (pathname : List Byte) (mode : Nat)
  | fcntl (fd : Int) (cmd : Nat) (args : Int)
  | allocUntrusted (size : Nat)
  | unmapUntrusted (size : Nat)
  deriving DecidableEq

inductive Call where
  | host (c : HostCall)
  | malloc (size : Nat)
  | wcInitRng
  | wcAesSetKey (key iv : List Byte)
  | wcAesCtrEncrypt (key iv input : List Byte)
  /-- The TLS exchange of `check_file_status`. -/
  | askMonitor (query : List Byte)
  | naClGetTimeOfDay
  | sendTracelog (fileName : List Byte) (ioMode : Nat)
  | redisGetKey
  deriving DecidableEq

/-- What a call returns, and the bytes it leaves in the caller's buffer. -/
structure Reply where
  ret : Int
  data : List Byte := []
  deriving DecidableEq

abbrev HostTree := CallTree Call Reply

/-- The conversion to `int`. -/
@[irreducible] def cInt (n : Int) : Int := Int.bmod n (2 ^ 32)

theorem cInt_of_lt {n : Nat} (h : n < 2 ^ 31) : cInt n = n := by
  rw [cInt]
  apply Int.bmod_eq_of_le <;> omega

/-- `sgx_ocall`. -/
def sgxOcall (c : HostCall) : HostTree Reply := perform (.host c)

/-! ## Files -/

/-- `128*PRESET_PAGESIZE` -/
def maxUntrustedStackBuf : Nat := 128 * 4096

def allocAlignup (addr : Nat) : Nat := (addr + 4095) / 4096 * 4096

/-- The bracket of the wrappers that move data: a count over the limit goes through memory
    that the host maps and unmaps again, a smaller one through the untrusted stack. -/
def withUntrustedBuf (limit count : Nat) (body : HostTree Reply) : HostTree Reply :=
  if count > limit then do
    let alloc ← sgxOcall (.allocUntrusted (allocAlignup count))
    if alloc.ret < 0 then pure { ret := alloc.ret }
    else do
      let reply ← body
      if alloc.ret = 0 then do
        let _ ← sgxOcall (.unmapUntrusted (allocAlignup count))
        pure reply
      else pure reply
  else body

def ocallOpen (pathname : List Byte) (flags mode : Nat) : HostTree Reply :=
  sgxOcall (.open pathname flags (mode % 2 ^ 16))

def ocallClose (fd : Int) : HostTree Reply := sgxOcall (.close fd)

/-- `count` is an `unsigned int`. -/
def ocallRead (fd : Int) (count : Nat) : HostTree Reply :=
  let count := count % 2 ^ 32
  withUntrustedBuf maxUntrustedStackBuf count do
    let reply ← sgxOcall (.read fd count)
    if reply.ret > 0 then
      if reply.ret > count then pure { ret := -1 }
      else pure { ret := reply.ret, data := reply.data.take reply.ret.toNat }
    else pure { ret := reply.ret }

/-- `count` is an `unsigned int`. -/
def ocallWrite (fd : Int) (buf : List Byte) : HostTree Reply :=
  let count := buf.length % 2 ^ 32
  withUntrustedBuf maxUntrustedStackBuf count do
    let reply ← sgxOcall (.write fd (buf.take count))
    if reply.ret > 0 ∧ reply.ret > count then pure { ret := -1 } else pure { ret := reply.ret }

/-- `count` is a `size_t`, `ms_count` an `unsigned int`, `ms_pos` an `unsigned long`. -/
def ocallPread64 (fd : Int) (count : Nat) (pos : Int) : HostTree Reply :=
  withUntrustedBuf 4096 count do
    let reply ← sgxOcall (.pread64 fd (count % 2 ^ 32) (pos % 2 ^ 64).toNat)
    if reply.ret > 0 then pure { ret := reply.ret, data := reply.data.take reply.ret.toNat }
    else pure { ret := reply.ret }

/-- `count` is a `size_t`, `offset` an `unsigned long`; `ms_count` and `ms_offset` are
    `unsigned int`s. -/
def ocallPwrite64 (fd : Int) (buf : List Byte) (offset : Int) : HostTree Reply :=
  withUntrustedBuf 4096 buf.length
    (sgxOcall (.pwrite64 fd (buf.take (buf.length % 2 ^ 32)) (offset % 2 ^ 32).toNat))

def ocallLseek64 (fd offset : Int) (whence : Nat) : HostTree Reply :=
  sgxOcall (.lseek64 fd offset whence)

def ocallFsync (fd : Int) : HostTree Reply := sgxOcall (.fsync fd)

def ocallFtruncate (fd : Int) (length : Nat) : HostTree Reply := sgxOcall (.ftruncate fd length)

def ocallFcntl (fd : Int) (cmd : Nat) (args : Int) : HostTree Reply :=
  sgxOcall (.fcntl fd cmd args)

/-- The three `stat64` wrappers copy the structure out when the call succeeded. -/
def copyStat (c : HostCall) : HostTree Reply := do
  let reply ← sgxOcall c
  if reply.ret = 0 then pure reply else pure { ret := reply.ret }

def ocallStat64 (path : List Byte) : HostTree Reply := copyStat (.stat64 path)

def ocallLstat64 (path : List Byte) : HostTree Reply := copyStat (.lstat64 path)

def ocallFstat64 (fd : Int) : HostTree Reply := copyStat (.fstat64 fd)

/-! ## Directories -/

def ocallMkdir (pathname : List Byte) (mode : Nat) : HostTree Reply :=
  sgxOcall (.mkdir pathname (mode % 2 ^ 16))

def ocallRmdir (pathname : List Byte) : HostTree Reply := sgxOcall (.rmdir pathname)

def ocallChdir (pathname : List Byte) : HostTree Reply := sgxOcall (.chdir pathname)

/-- The path is copied in only if it fits. -/
def ocallGetcwd (size : Nat) : HostTree Reply := do
  let reply ← sgxOcall (.getcwd size)
  if reply.ret ≥ 0 ∧ reply.data.length + 1 ≤ size then pure reply
  else pure { ret := reply.ret }

def ocallLink (oldpath newpath : List Byte) : HostTree Reply := sgxOcall (.link oldpath newpath)

def ocallUnlink (pathname : List Byte) : HostTree Reply := sgxOcall (.unlink pathname)

/-- `size` is an `unsigned int`. -/
def ocallTruncate (pathname : List Byte) (size : Nat) : HostTree Reply :=
  sgxOcall (.truncate pathname (size % 2 ^ 32))

def ocallRename (oldpath newpath : List Byte) : HostTree Reply :=
  sgxOcall (.rename oldpath newpath)

def ocallChmod (path : List Byte) (mode : Nat) : HostTree Reply := sgxOcall (.chmod path mode)

def ocallAccess (pathname : List Byte) (mode : Nat) : HostTree Reply :=
  sgxOcall (.access pathname (mode % 2 ^ 16))

end SandboxTEE.HostDesc
