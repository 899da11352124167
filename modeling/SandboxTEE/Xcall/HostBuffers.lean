import SandboxTEE.Xcall.DataInSafe
import SandboxTEE.Xcall.Frames

/-! # Buffers that the host provides (`ocall_mem_t.c`, `ocall_file_t.c`)

A transfer that is too large for the untrusted stack goes through a buffer for which the host is
asked.  What the two calls that ask for memory check is that the host's range does not lie
completely within the enclave; the range that they hand on is read once more.
-/

namespace SandboxTEE.Xcall.Frames

open SandboxTEE.Lib.Traced (emit)

/-! ## Memory of the host -/

/-- The end of the two calls: the return value, and what is left in `*mem`, NULL before. -/
def acceptMem (e : Enclave) (oldUstack size : Nat) (r : AllocReply) : Framed (Int × Nat) :=
  if r.ret = 0 then
    if sgxIsCompletelyWithinEnclave e r.memChecked size then do
      sgxResetUstack oldUstack
      pure (-1, 0)
    else do
      sgxResetUstack oldUstack
      pure (0, r.mem)
  else do
    sgxResetUstack oldUstack
    pure (r.ret, 0)

def ocallAllocUntrusted (e : Enclave) (size : Nat) (r : AllocReply) : Framed (Int × Nat) := do
  let oldUstack ← sgxPrepareUstack e
  let ms ← sgxAllocOnUstackAligned e msMemSize 8
  emit (.ms ms msMemSize [size])
  emit (.ocall .ocallAllocUntrusted ms)
  acceptMem e oldUstack size r

def ocallMmapUntrusted (e : Enclave) (fd : Int) (offset size prot : Nat) (r : AllocReply) :
    Framed (Int × Nat) := do
  let oldUstack ← sgxPrepareUstack e
  let ms ← sgxAllocOnUstackAligned e 40 8
  emit (.ms ms 40 [fd, offset, size, prot])
  emit (.ocall .ocallMmapUntrusted ms)
  acceptMem e oldUstack size r

def ocallUnmapUntrusted (e : Enclave) (mem size : Nat) (ret : Int) : Framed Int := do
  let oldUstack ← sgxPrepareUstack e
  if sgxIsCompletelyWithinEnclave e mem size then do
    sgxResetUstack oldUstack
    pure (-1)
  else do
    let ms ← sgxAllocOnUstackAligned e msMemSize 8
    emit (.ms ms msMemSize [mem, size])
    emit (.ocall .ocallUnmapUntrusted ms)
    sgxResetUstack oldUstack
    pure ret

/-! ## Transfers -/

def allocBounce (e : Enclave) (limit count : Nat) (r : AllocReply) : Framed (Int × Nat) :=
  if count > limit then ocallAllocUntrusted e (allocAlignup count) r else pure (0, 0)

def unmapBounce (e : Enclave) (obuf count : Nat) (ret : Int) : Framed Unit :=
  if obuf ≠ 0 then do
    let _ ← ocallUnmapUntrusted e obuf (allocAlignup count) ret
    pure ()
  else pure ()

/-- The first part of a transfer.  A failed call for the buffer ends it at once. -/
def withBounce (e : Enclave) (limit count : Nat) (r : AllocReply) (rest : Nat → Nat → Framed Int) :
    Framed Int := do
  let oldUstack ← sgxPrepareUstack e
  let bounce ← allocBounce e limit count r
  if bounce.1 < 0 then pure bounce.1 else rest oldUstack bounce.2

/-- The bytes for the host: copied to its buffer, else to the untrusted stack.  Only the second
    way checks them. -/
def copyOutBounce (e : Enclave) (obuf buf count : Nat) : Framed Nat :=
  if obuf ≠ 0 then do
    emit (.copyOut obuf buf count)
    pure obuf
  else sgxCopyToUstack e buf count

/-- The part of `ocall_read` in front of its label `out`. -/
def readBeforeOut (e : Enclave) (fd : Int) (buf count ms obuf : Nat) (r : TransferReply) :
    Framed Int :=
  if ms = 0 then pure (-1)
  else do
    emit (.ms ms 24 [fd, count])
    let _ ← (if obuf ≠ 0 then pure obuf else sgxAllocOnUstack e count)
    emit (.ocall .ocallRead ms)
    if r.ret > 0 then
      if r.ret.toNat > count then pure (-1)
      else do
        let copied ← sgxCopyToEnclave e buf count r.buf r.ret.toNat
        pure (if copied = false then -1 else r.ret)
    else pure r.ret

def ocallRead (e : Enclave) (fd : Int) (buf count : Nat) (r : TransferReply) : Framed Int :=
  withBounce e maxUntrustedStackBuf count r.alloc fun oldUstack obuf => do
    let ms ← sgxAllocOnUstackAligned e 24 8
    let retval ← readBeforeOut e fd buf count ms obuf r
    sgxResetUstack oldUstack
    unmapBounce e obuf count r.unmap
    pure retval

/-- What the host answers to a call that takes data. -/
structure WriteReply where
  alloc : AllocReply
  ret : Int
  unmap : Int

def ocallWrite (e : Enclave) (fd : Int) (buf count : Nat) (r : WriteReply) : Framed Int :=
  withBounce e maxUntrustedStackBuf count r.alloc fun oldUstack obuf => do
    let ms ← sgxAllocOnUstackAligned e 24 8
    let msBuf ← copyOutBounce e obuf buf count
    emit (.ms ms 24 [fd, msBuf, count])
    emit (.ocall .ocallWrite ms)
    sgxResetUstack oldUstack
    unmapBounce e obuf count r.unmap
    pure (if r.ret > 0 ∧ r.ret.toNat > count then -1 else r.ret)

/-- The length is not checked, nor the place. -/
def ocallPread64 (e : Enclave) (fd : Int) (buf count pos : Nat) (r : TransferReply) :
    Framed Int :=
  withBounce e 4096 count r.alloc fun oldUstack obuf => do
    let ms ← sgxAllocOnUstackAligned e 32 8
    emit (.ms ms 32 [fd, count % 2 ^ 32, pos])
    let _ ← (if obuf ≠ 0 then pure obuf else sgxAllocOnUstack e count)
    emit (.ocall .ocallPread64 ms)
    let _ ← (if r.ret > 0 then emit (.copyIn buf r.buf r.ret.toNat) else pure ())
    sgxResetUstack oldUstack
    unmapBounce e obuf count r.unmap
    pure r.ret

/-- The fields for the count and the offset have 32 bits. -/
def ocallPwrite64 (e : Enclave) (fd : Int) (buf count offset : Nat) (r : WriteReply) :
    Framed Int :=
  withBounce e 4096 count r.alloc fun oldUstack obuf => do
    let ms ← sgxAllocOnUstackAligned e 24 8
    let msBuf ← copyOutBounce e obuf buf count
    emit (.ms ms 24 [fd, msBuf, count % 2 ^ 32, offset % 2 ^ 32])
    emit (.ocall .ocallPwrite64 ms)
    sgxResetUstack oldUstack
    unmapBounce e obuf count r.unmap
    pure r.ret

/-! ## The plain wrappers -/

variable {e : Enclave}

@[simp] theorem forget_ocallAllocUntrusted (size : Nat) (r : AllocReply) :
    (ocallAllocUntrusted e size r).mapEvents Access.forget =
      Xcall.ocallAllocUntrusted e size r := by
  simp [ocallAllocUntrusted, acceptMem, Xcall.ocallAllocUntrusted]

@[simp] theorem forget_ocallUnmapUntrusted (mem size : Nat) (ret : Int) :
    (ocallUnmapUntrusted e mem size ret).mapEvents Access.forget =
      Xcall.ocallUnmapUntrusted e mem size ret := by
  simp [ocallUnmapUntrusted, Xcall.ocallUnmapUntrusted]

@[simp] theorem forget_allocBounce (limit count : Nat) (r : AllocReply) :
    (allocBounce e limit count r).mapEvents Access.forget = Xcall.allocBounce e limit count r := by
  simp [allocBounce, Xcall.allocBounce]

@[simp] theorem forget_unmapBounce (obuf count : Nat) (ret : Int) :
    (unmapBounce e obuf count ret).mapEvents Access.forget =
      Xcall.unmapBounce e obuf count ret := by
  simp [unmapBounce, Xcall.unmapBounce]

@[simp] theorem forget_readBeforeOut (fd : Int) (buf count ms obuf : Nat) (r : TransferReply) :
    (readBeforeOut e fd buf count ms obuf r).mapEvents Access.forget =
      Xcall.readBeforeOut e buf count ms obuf r := by
  simp [readBeforeOut, Xcall.readBeforeOut]

theorem forget_ocallRead (fd : Int) (buf count : Nat) (r : TransferReply) :
    (ocallRead e fd buf count r).mapEvents Access.forget = Xcall.ocallRead e buf count r := by
  simp [ocallRead, withBounce, Xcall.ocallRead]

theorem forget_ocallPread64 (fd : Int) (buf count pos : Nat) (r : TransferReply) :
    (ocallPread64 e fd buf count pos r).mapEvents Access.forget =
      Xcall.ocallPread64 e buf count r := by
  simp [ocallPread64, withBounce, Xcall.ocallPread64]

end SandboxTEE.Xcall.Frames
