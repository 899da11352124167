import SandboxTEE.Xcall.Framework

/-! # The wrappers that return data (`ocall_file_t.c`, `ocall_dir_t.c`, `ocall_socket_t.c`,
`ocall_ra_t.c`)

After the host call every field of `ms` that a wrapper reads is a value of the host, and a field
that it reads twice is two values.  A count is what the caller says its buffer can take.
-/

namespace SandboxTEE.Xcall

open SandboxTEE.Lib.Traced (emit)

/-- `128*PRESET_PAGESIZE` -/
def maxUntrustedStackBuf : Nat := 128 * 4096

/-- `ALLOC_ALIGNUP` of an `unsigned long` -/
@[irreducible] def allocAlignup (addr : Nat) : Nat := (addr + 4095) % 2 ^ 64 / 4096 * 4096

/-- A large transfer goes through memory of the host.  NULL is no such memory. -/
def allocBounce (e : Enclave) (limit count : Nat) (r : AllocReply) : Wrapper (Int × Nat) :=
  if count > limit then ocallAllocUntrusted e (allocAlignup count) r else pure (0, 0)

def unmapBounce (e : Enclave) (obuf count : Nat) (ret : Int) : Wrapper Unit :=
  if obuf ≠ 0 then do
    let _ ← ocallUnmapUntrusted e obuf (allocAlignup count) ret
    pure ()
  else pure ()

/-! ## Files and directories -/

structure TransferReply where
  alloc : AllocReply
  ret : Int
  buf : Nat
  unmap : Int

/-- The part of `ocall_read` in front of its label `out`. -/
def readBeforeOut (e : Enclave) (buf count ms obuf : Nat) (r : TransferReply) : Wrapper Int :=
  if ms = 0 then pure (-1)
  else do
    emit (.store ms 24)
    let _ ← (if obuf ≠ 0 then pure obuf else sgxAllocOnUstack e count)
    if r.ret > 0 then
      if r.ret.toNat > count then pure (-1)
      else do
        let copied ← sgxCopyToEnclave e buf count r.buf r.ret.toNat
        pure (if copied = false then -1 else r.ret)
    else pure r.ret

def ocallRead (e : Enclave) (buf count : Nat) (r : TransferReply) : Wrapper Int := do
  let oldUstack ← sgxPrepareUstack e
  let bounce ← allocBounce e maxUntrustedStackBuf count r.alloc
  if bounce.1 < 0 then pure bounce.1
  else do
    let ms ← sgxAllocOnUstackAligned e 24 8
    let retval ← readBeforeOut e buf count ms bounce.2 r
    sgxResetUstack oldUstack
    unmapBounce e bounce.2 count r.unmap
    pure retval

/-- The length is not checked, nor the place. -/
def ocallPread64 (e : Enclave) (buf count : Nat) (r : TransferReply) : Wrapper Int := do
  let oldUstack ← sgxPrepareUstack e
  let bounce ← allocBounce e 4096 count r.alloc
  if bounce.1 < 0 then pure bounce.1
  else do
    let ms ← sgxAllocOnUstackAligned e 32 8
    emit (.store ms 32)
    let _ ← (if bounce.2 ≠ 0 then pure bounce.2 else sgxAllocOnUstack e count)
    let _ ← (if r.ret > 0 then emit (.copyIn buf r.buf r.ret.toNat) else pure ())
    sgxResetUstack oldUstack
    unmapBounce e bounce.2 count r.unmap
    pure r.ret

structure GetdentsReply where
  ret : Int
  dirp : Nat

def ocallGetdents (e : Enclave) (dirp size : Nat) (r : GetdentsReply) : Wrapper Int := do
  let oldUstack ← sgxPrepareUstack e
  let ms ← sgxAllocOnUstackAligned e 24 8
  emit (.store ms 24)
  let _ ← sgxAllocOnUstack e size
  let _ ← (if r.ret > 0 then sgxCopyToEnclave e dirp size r.dirp r.ret.toNat else pure false)
  sgxResetUstack oldUstack
  pure r.ret

structure GetcwdReply where
  ret : Int
  pathChecked : Nat
  pathlenChecked : Nat
  path : Nat
  pathlen : Nat

/-- The sum is one of `size_t`. -/
def ocallGetcwd (e : Enclave) (pathname size : Nat) (r : GetcwdReply) : Wrapper Int := do
  let oldUstack ← sgxPrepareUstack e
  let ms ← sgxAllocOnUstackAligned e 24 8
  emit (.store ms 24)
  let _ ← (if r.ret ≥ 0 ∧ r.pathChecked ≠ 0 ∧ r.pathlenChecked ≠ 0 then
      sgxCopyToEnclave e pathname size r.path ((r.pathlen + 1) % 2 ^ 64)
    else pure false)
  sgxResetUstack oldUstack
  pure r.ret

/-! ## Sockets -/

/-- An `unsigned int` of the caller that a wrapper updates. -/
structure OutParam where
  ptr : Nat
  value : Nat
  given : ptr ≠ 0

def OutParam.region (p : OutParam) : Region := ⟨p.ptr, 4, fun null => absurd null p.given⟩

/-- `addrlen ? *addrlen : 0` -/
def lenOf : Option OutParam → Nat
  | some p => p.value
  | none => 0

structure PeerReply where
  ret : Int
  buf : Nat
  addrChecked : Nat
  addrlenChecked : Nat
  addr : Nat
  addrlen : Nat

/-- The test that the two address wrappers make. -/
def PeerReply.rejected (e : Enclave) (len : Nat) (r : PeerReply) : Prop :=
  len ≠ 0 ∧ (sgxIsCompletelyWithinEnclave e r.addrChecked len = true ∨ r.addrlenChecked > len)

instance (e : Enclave) (len : Nat) (r : PeerReply) : Decidable (r.rejected e len) :=
  inferInstanceAs (Decidable (_ ∧ _))

/-- The address and its length.  With an address but no place for the length `ocall_sock_accept`
    ends here by a fault. -/
def copyPeer (e : Enclave) (addr : Nat) (r : PeerReply) : Option OutParam → Wrapper Unit
  | some p =>
    if addr ≠ 0 then do
      let _ ← sgxCopyToEnclave e addr p.value r.addr r.addrlen
      emit (.store p.ptr 4)
    else pure ()
  | none => pure ()

def ocallSockAccept (e : Enclave) (addr : Nat) (addrlen : Option OutParam) (r : PeerReply) :
    Wrapper Int := do
  let oldUstack ← sgxPrepareUstack e
  let ms ← sgxAllocOnUstackAligned e 24 8
  emit (.store ms 24)
  let _ ← sgxCopyToUstack e addr (lenOf addrlen)
  if r.ret ≥ 0 then
    if r.rejected e (lenOf addrlen) then do
      sgxResetUstack oldUstack
      pure (-1)
    else do
      copyPeer e addr r addrlen
      sgxResetUstack oldUstack
      pure r.ret
  else do
    sgxResetUstack oldUstack
    pure r.ret

/-- A failed copy does not change what is returned. -/
def ocallSockRecv (e : Enclave) (buf count addr : Nat) (addrlen : Option OutParam)
    (r : PeerReply) : Wrapper Int := do
  let oldUstack ← sgxPrepareUstack e
  let ms ← sgxAllocOnUstackAligned e 40 8
  emit (.store ms 40)
  let _ ← sgxAllocOnUstack e count
  let _ ← (if addr ≠ 0 then sgxAllocOnUstack e (lenOf addrlen) else pure 0)
  if r.ret ≥ 0 then
    if r.rejected e (lenOf addrlen) then do
      sgxResetUstack oldUstack
      pure (-1)
    else do
      let _ ← sgxCopyToEnclave e buf count r.buf r.ret.toNat
      copyPeer e addr r addrlen
      sgxResetUstack oldUstack
      pure r.ret
  else do
    sgxResetUstack oldUstack
    pure r.ret

structure FdsReply where
  ret : Int
  buf : Nat
  fdsChecked : Nat
  nfdsChecked : Nat
  fds : Nat
  nfds : Nat

def FdsReply.rejected (e : Enclave) (nfds : Nat) (r : FdsReply) : Prop :=
  sgxIsCompletelyWithinEnclave e r.fdsChecked (4 * nfds) = true ∨ r.nfdsChecked > nfds

instance (e : Enclave) (nfds : Nat) (r : FdsReply) : Decidable (r.rejected e nfds) :=
  inferInstanceAs (Decidable (_ ∨ _))

/-- The limit for the descriptors is their number, not their size. -/
def ocallSockRecvFd (e : Enclave) (buf count fds : Nat) (nfds : OutParam) (r : FdsReply) :
    Wrapper Int := do
  let oldUstack ← sgxPrepareUstack e
  let ms ← sgxAllocOnUstackAligned e 40 8
  emit (.store ms 40)
  let _ ← sgxAllocOnUstack e count
  let _ ← (if fds ≠ 0 then sgxAllocOnUstack e (4 * nfds.value) else pure 0)
  if r.ret ≥ 0 then
    if r.rejected e nfds.value then do
      sgxResetUstack oldUstack
      pure (-1)
    else do
      let _ ← sgxCopyToEnclave e buf count r.buf r.ret.toNat
      let _ ← sgxCopyToEnclave e fds nfds.value r.fds (4 * r.nfds)
      emit (.store nfds.ptr 4)
      sgxResetUstack oldUstack
      pure r.ret
  else do
    sgxResetUstack oldUstack
    pure r.ret

/-! ## Remote attestation -/

/-- `sizeof(sgx_report_t)` -/
def reportSize : Nat := 432

structure QuoteReply where
  status : Int
  quoteSize : Nat
  quote : Nat

/-- The host's size of the quote is the limit for the copy as well. -/
def ocallRemoteAttestation (e : Enclave) (quote quoteSize report : Nat) (r : QuoteReply) :
    Wrapper Int := do
  let oldUstack ← sgxPrepareUstack e
  let ms ← sgxAllocOnUstackAligned e 56 8
  emit (.store ms 56)
  let _ ← sgxCopyToUstack e report reportSize
  emit (.store quoteSize 4)
  let _ ← sgxCopyToEnclave e quote r.quoteSize r.quote r.quoteSize
  sgxResetUstack oldUstack
  pure r.status

/-! ## A call of any of them -/

/-- The quote buffer and the place for its size are two objects of the caller. -/
structure QuoteArgs where
  quote : Region
  quoteSize : Nat
  report : Nat
  room : 0 < quote.size
  given : quoteSize ≠ 0
  apart : quote.addr + quote.size ≤ quoteSize ∨ quoteSize + 4 ≤ quote.addr

inductive DataIn where
  | read (buf : Region) (r : TransferReply)
  | pread64 (buf : Region) (r : TransferReply)
  | getdents (dirp : Region) (r : GetdentsReply)
  | getcwd (pathname : Region) (r : GetcwdReply)
  | sockAccept (addr : Nat) (addrlen : Option OutParam) (r : PeerReply)
  | sockRecv (buf : Region) (addr : Nat) (addrlen : Option OutParam) (r : PeerReply)
  | sockRecvFd (buf : Region) (fds : Nat) (nfds : OutParam)
      (null : fds = 0 → nfds.value = 0) (r : FdsReply)
  | remoteAttestation (args : QuoteArgs) (r : QuoteReply)

namespace DataIn

def run (e : Enclave) : DataIn → Wrapper Int
  | read buf r => ocallRead e buf.addr buf.size r
  | pread64 buf r => ocallPread64 e buf.addr buf.size r
  | getdents dirp r => ocallGetdents e dirp.addr dirp.size r
  | getcwd pathname r => ocallGetcwd e pathname.addr pathname.size r
  | sockAccept addr addrlen r => ocallSockAccept e addr addrlen r
  | sockRecv buf addr addrlen r => ocallSockRecv e buf.addr buf.size addr addrlen r
  | sockRecvFd buf fds nfds _ r => ocallSockRecvFd e buf.addr buf.size fds nfds r
  | remoteAttestation args r =>
    ocallRemoteAttestation e args.quote.addr args.quoteSize args.report r

/-- The memory that the caller hands over. -/
def buffers : DataIn → List Region
  | read buf _ | pread64 buf _ | getdents buf _ | getcwd buf _ => [buf]
  | sockAccept addr addrlen _ =>
    .ofPtr addr (lenOf addrlen) :: (addrlen.map OutParam.region).toList
  | sockRecv buf addr addrlen _ =>
    buf :: .ofPtr addr (lenOf addrlen) :: (addrlen.map OutParam.region).toList
  | sockRecvFd buf fds nfds _ _ => [buf, .ofPtr fds (4 * nfds.value), nfds.region]
  | remoteAttestation args _ =>
    [args.quote, ⟨args.quoteSize, 4, fun null => absurd null args.given⟩]

/-- The byte count that is asked for, where one is returned. -/
def requested : DataIn → Option Nat
  | read buf _ | pread64 buf _ | getdents buf _ | sockRecv buf _ _ _ | sockRecvFd buf _ _ _ _ =>
    some buf.size
  | getcwd .. | sockAccept .. | remoteAttestation .. => none

/-- A call keeps to the caller's memory and returns no more than was asked for. -/
def Safe (e : Enclave) (ustack : Nat) (call : DataIn) : Prop :=
  AllSafe e call.buffers ((call.run e).run ustack).events ∧
    ∀ n ∈ call.requested, ((call.run e).run ustack).result ≤ (n : Int)

end DataIn

end SandboxTEE.Xcall
