import SandboxTEE.HostDesc.Calls
import SandboxTEE.Runtime.App
import SandboxTEE.Stdlib.Strtok

/-! # SGX host descriptors (`shared/platform/sgx/nacl_host_desc.c`)

The operations take the value of the enclave's `errno`, which they read and never write.
`abort` is `LOG_FATAL`, a failed `CHECK` or a call of `strcmp` on NULL.
-/

namespace SandboxTEE.HostDesc

open SandboxTEE.Lib (CallTree)
open SandboxTEE.Lib.CallTree (perform abort)
open SandboxTEE.Runtime
open SandboxTEE.Stdlib

/-! ## Error numbers (`nacl_host_desc_common.c`) -/

/-- The numbers up to `ENOTRECOVERABLE` that have no `MAP` line. -/
def unmappedErrnos : List Nat :=
  [15, 26, 41, 48, 58, 85, 86, 117, 118, 119, 120, 121, 124, 126, 127, 128, 129]

/-- The mapped numbers are the same on both sides. -/
def naClXlateErrno (errnum : Nat) : Nat :=
  if 131 < errnum ∨ errnum ∈ unmappedErrnos then naClAbiEINVAL else errnum

/-- `-NaClXlateErrno(errno)` -/
def negXlate (errno : Nat) : Int := -(naClXlateErrno errno : Int)

/-! ## Flags -/

def accMode : Nat := 3
def oRDONLY : Nat := 0
def oWRONLY : Nat := 1
def oRDWR : Nat := 2
def oCREAT : Nat := 0o100
def oEXCL : Nat := 0o200
def oTRUNC : Nat := 0o1000
def oAPPEND : Nat := 0o2000
def oLARGEFILE : Nat := 0o100000

def naClAllowedOpenFlags : Nat := accMode ||| oCREAT ||| oTRUNC ||| oAPPEND ||| oEXCL

/-- The ABI's numbers for the flags are those of the host. -/
def naClMapOpenFlags (naclFlags : Nat) : Nat := naclFlags &&& naClAllowedOpenFlags

/-- `S_IRUSR` and `S_IWUSR` -/
def naClMapOpenPerm (naclPerm : Nat) : Nat := naclPerm &&& 0o600

/-- `S_IRUSR`, `S_IWUSR` and `S_IXUSR` -/
def naClMapMode (abiMode : Nat) : Nat := abiMode &&& 0o700

/-- `R_OK`, `W_OK` and `X_OK`; `F_OK` is zero. -/
def naClMapAccessMode (naclMode : Nat) : Nat := naclMode &&& 7

def fGETFL : Nat := 3
def fSETFL : Nat := 4

/-! ## Descriptors -/

/-- The key part of `struct DescCTX`; `none` is a NULL key. -/
structure DescCTX where
  sksKey : Option (List Byte)
  sksKeyLen : Nat
  iv : List Byte

structure NaClHostDesc where
  d : Int
  flags : Nat
  descCtx : Option DescCTX

/-- The key and the initialisation vector of a keyed descriptor: `wc_AesSetKey` takes
    `AES_BLOCK_SIZE` bytes of each. -/
def NaClHostDesc.keyIv (d : NaClHostDesc) : Option (List Byte × List Byte) :=
  match d.descCtx with
  | some { sksKey := some key, sksKeyLen := 64, iv := iv } => some (key.take 16, iv.take 16)
  | _ => none

def naClHostDescCheckValidity (d : NaClHostDesc) : HostTree Unit :=
  if d.d = -1 then abort else pure ()

/-! ## Opening -/

def comma : Byte := 44
def statusMsg : List Byte := [49]
def statusA : List Byte := [65]
def statusN : List Byte := [78]

/-- The request: `snprintf(buff, 512, "%d,%s", 1, file_name)`. -/
def statusQuery (fileName : List Byte) : List Byte :=
  (statusMsg ++ comma :: fileName).take 511

/-- The status in a reply of the monitor, of which 511 bytes are read: the token behind the
    path, or NULL when there is none. -/
def replyStatus (data : List Byte) : HostTree (Option (List Byte)) :=
  match strtokR comma (cstr (data.take 511)) with
  | (none, _) => abort
  | (some msgType, ptr) =>
    if msgType = statusMsg then pure (strtokR comma (strtokR comma ptr).2).1
    else pure (some statusN)

/-- The result points into the function's own reply buffer; it is read as the string that
    stands there. -/
def checkFileStatus (fileName : List Byte) : HostTree (Option (List Byte)) := do
  let reply ← perform (.askMonitor (statusQuery fileName))
  replyStatus reply.data

/-- What `redis_get_key` leaves in the context. -/
def DescCTX.withKey (ctx : DescCTX) (reply : Reply) : DescCTX :=
  if 0 ≤ reply.ret then { ctx with sksKey := some reply.data, sksKeyLen := reply.ret.toNat }
  else ctx

/-- The part behind the monitor's check. -/
def openAllowed (errno : Nat) (d : NaClHostDesc) (path : List Byte) (flags mode : Nat) :
    HostTree (Int × NaClHostDesc) := do
  let retval ← perform .naClGetTimeOfDay
  if retval.ret ≠ 0 then pure (retval.ret, d)
  else do
    let _ ← perform (.sendTracelog path flags)
    let key ← perform .redisGetKey
    let d := { d with descCtx := d.descCtx.map fun ctx => ctx.withKey key }
    if flags &&& naClAllowedOpenFlags ≠ flags then pure (-naClAbiEINVAL, d)
    else if flags &&& accMode = accMode then pure (-naClAbiEINVAL, d)
    else do
      let posixFlags := naClMapOpenFlags flags ||| oLARGEFILE
      let hostDesc ← ocallOpen path posixFlags (naClMapOpenPerm mode)
      if hostDesc.ret = -1 then pure (negXlate errno, d)
      else pure (0, { d with d := hostDesc.ret, flags := flags })

def naClHostDescOpen (errno : Nat) (d : NaClHostDesc) (path : List Byte) (flags mode : Nat) :
    HostTree (Int × NaClHostDesc) := do
  let status ← checkFileStatus path
  match status with
  | none => abort
  | some status =>
    if status = statusA then openAllowed errno d path flags mode else pure (-1, d)

/-! ## Reading and writing

The callers clamp a length to `INT32_MAX`, so that `int length = len` is exact.  The result
of a read is the return value and what stands at the beginning of the buffer. -/

def readFile (errno : Nat) (d : NaClHostDesc) (key iv : List Byte) (len : Nat) :
    HostTree (Int × List Byte) := do
  let input ← perform (.malloc len)
  let _ ← perform (.malloc len)
  let retlen ← ocallRead d.d len
  if retlen.ret = -1 then pure (negXlate errno, [])
  else do
    let input := retlen.data ++ input.data.drop retlen.data.length
    let retval ← perform (.wcAesSetKey key iv)
    if retval.ret ≠ 0 then pure (-naClAbiEINVAL, [])
    else do
      let output ← perform (.wcAesCtrEncrypt key iv input)
      if output.ret ≠ 0 then pure (-naClAbiEINVAL, [])
      else pure (retlen.ret, output.data)

def naClHostDescRead (errno : Nat) (d : NaClHostDesc) (len : Nat) :
    HostTree (Int × List Byte) := do
  naClHostDescCheckValidity d
  if d.flags &&& accMode = oWRONLY then pure (-naClAbiEBADF, [])
  else
    match d.keyIv with
    | none => do
      let retval ← ocallRead d.d len
      if retval.ret = -1 then pure (negXlate errno, []) else pure (retval.ret, retval.data)
    | some (key, iv) => readFile errno d key iv len

/-- The test `desc_ctx->iv == NULL` is of an array, and never holds: no fresh vector is
    generated.  A failed encryption is overwritten by the result of the write. -/
def writeFile (errno : Nat) (d : NaClHostDesc) (key iv buf : List Byte) : HostTree Int := do
  let retval ← perform .wcInitRng
  if retval.ret ≠ 0 then pure (-naClAbiEBADF)
  else do
    let retval ← perform (.wcAesSetKey key iv)
    if retval.ret ≠ 0 then pure (-naClAbiEBADF)
    else do
      let output ← perform (.wcAesCtrEncrypt key iv buf)
      let retval ← ocallWrite d.d output.data
      if retval.ret = -1 then pure (negXlate errno) else pure retval.ret

def naClHostDescWrite (errno : Nat) (d : NaClHostDesc) (buf : List Byte) : HostTree Int := do
  naClHostDescCheckValidity d
  if d.flags &&& accMode = oRDONLY then pure (-naClAbiEBADF)
  else
    match d.keyIv with
    | none => do
      let retval ← ocallWrite d.d buf
      if retval.ret = -1 then pure (negXlate errno) else pure retval.ret
    | some (key, iv) => writeFile errno d key iv buf

def naClHostDescSeek (errno : Nat) (d : NaClHostDesc) (offset : Int) (whence : Nat) :
    HostTree Int := do
  naClHostDescCheckValidity d
  let retval ← ocallLseek64 d.d offset whence
  if retval.ret = -1 then pure (negXlate errno) else pure retval.ret

def naClHostDescPRead (errno : Nat) (d : NaClHostDesc) (len : Nat) (offset : Int) :
    HostTree (Int × List Byte) := do
  naClHostDescCheckValidity d
  if d.flags &&& accMode = oWRONLY then pure (-naClAbiEBADF, [])
  else do
    let retval ← ocallPread64 d.d len offset
    if retval.ret = -1 then pure (negXlate errno, []) else pure (retval.ret, retval.data)

/-- A bit of an `int`. -/
def testFlag (n : Int) (flag : Nat) : Bool := (n % 2 ^ 32).toNat &&& flag ≠ 0

/-- `n & ~flag` of an `int`. -/
def clearFlag (n : Int) (flag : Nat) : Int :=
  cInt ((n % 2 ^ 32).toNat &&& (2 ^ 32 - 1 - flag) : Nat)

/-- On a descriptor opened for append, `O_APPEND` is taken off around the call. -/
def naClHostDescPWrite (errno : Nat) (d : NaClHostDesc) (buf : List Byte) (offset : Int) :
    HostTree Int := do
  naClHostDescCheckValidity d
  if d.flags &&& accMode = oRDONLY then pure (-naClAbiEBADF)
  else if d.flags &&& oAPPEND ≠ 0 then do
    let origFlags ← ocallFcntl d.d fGETFL 0
    if testFlag origFlags.ret oAPPEND = false then abort
    else do
      let cleared ← ocallFcntl d.d fSETFL (clearFlag origFlags.ret oAPPEND)
      if cleared.ret = -1 then abort
      else do
        let retval ← ocallPwrite64 d.d buf offset
        let restored ← ocallFcntl d.d fSETFL origFlags.ret
        if restored.ret = -1 then abort
        else if retval.ret = -1 then pure (negXlate errno) else pure retval.ret
  else do
    let retval ← ocallPwrite64 d.d buf offset
    if retval.ret = -1 then pure (negXlate errno) else pure retval.ret

/-! ## The other operations -/

/-- `if (-1 == call) return -NaClXlateErrno(errno); return 0;` -/
def failIfMinusOne (errno : Nat) (call : HostTree Reply) : HostTree Int := do
  let retval ← call
  if retval.ret = -1 then pure (negXlate errno) else pure 0

/-- `if (call != 0) return -NaClXlateErrno(errno); return 0;` -/
def failUnlessZero (errno : Nat) (call : HostTree Reply) : HostTree Int := do
  let retval ← call
  if retval.ret ≠ 0 then pure (negXlate errno) else pure 0

/-- The status operations also hand the structure out. -/
def statOrFail (errno : Nat) (call : HostTree Reply) : HostTree (Int × List Byte) := do
  let retval ← call
  if retval.ret = -1 then pure (negXlate errno, retval.data) else pure (0, retval.data)

def naClHostDescFstat (errno : Nat) (d : NaClHostDesc) : HostTree (Int × List Byte) := do
  naClHostDescCheckValidity d
  statOrFail errno (ocallFstat64 d.d)

def naClHostDescStat (errno : Nat) (path : List Byte) : HostTree (Int × List Byte) :=
  statOrFail errno (ocallStat64 path)

def naClHostDescLstat (errno : Nat) (path : List Byte) : HostTree (Int × List Byte) :=
  statOrFail errno (ocallLstat64 path)

def naClHostDescClose (errno : Nat) (d : NaClHostDesc) : HostTree (Int × NaClHostDesc) := do
  naClHostDescCheckValidity d
  let retval ← ocallClose d.d
  if retval.ret = -1 then pure (negXlate errno, d) else pure (retval.ret, { d with d := -1 })

def naClHostDescFsync (errno : Nat) (d : NaClHostDesc) : HostTree Int := do
  naClHostDescCheckValidity d
  failIfMinusOne errno (ocallFsync d.d)

def naClHostDescFtruncate (errno : Nat) (d : NaClHostDesc) (length : Nat) : HostTree Int := do
  naClHostDescCheckValidity d
  failIfMinusOne errno (ocallFtruncate d.d length)

def naClHostDescMkdir (errno : Nat) (path : List Byte) (mode : Nat) : HostTree Int :=
  failUnlessZero errno (ocallMkdir path mode)

def naClHostDescRmdir (errno : Nat) (path : List Byte) : HostTree Int :=
  failUnlessZero errno (ocallRmdir path)

def naClHostDescChdir (errno : Nat) (path : List Byte) : HostTree Int :=
  failUnlessZero errno (ocallChdir path)

/-- The test is the other way round than in its siblings: zero is success of `ocall_getcwd`. -/
def naClHostDescGetcwd (errno : Nat) (len : Nat) : HostTree (Int × List Byte) := do
  let retval ← ocallGetcwd len
  if retval.ret = 0 then pure (negXlate errno, retval.data) else pure (0, retval.data)

def naClHostDescUnlink (errno : Nat) (path : List Byte) : HostTree Int :=
  failUnlessZero errno (ocallUnlink path)

def naClHostDescTruncate (errno : Nat) (path : List Byte) (length : Nat) : HostTree Int :=
  failUnlessZero errno (ocallTruncate path length)

def naClHostDescLink (errno : Nat) (oldpath newpath : List Byte) : HostTree Int :=
  failUnlessZero errno (ocallLink oldpath newpath)

def naClHostDescRename (errno : Nat) (oldpath newpath : List Byte) : HostTree Int :=
  failUnlessZero errno (ocallRename oldpath newpath)

def naClHostDescChmod (errno : Nat) (path : List Byte) (mode : Nat) : HostTree Int :=
  failUnlessZero errno (ocallChmod path (naClMapMode mode))

def naClHostDescAccess (errno : Nat) (path : List Byte) (amode : Nat) : HostTree Int :=
  failUnlessZero errno (ocallAccess path (naClMapAccessMode amode))

end SandboxTEE.HostDesc
