import SandboxTEE.Xcall.HostBuffers

/-! # The other wrappers (`ocall_*_t.c`)

Most of them differ in their `ms` structure only.  The fields that stand in the trace are those
that are stored before the call, in the order of `ocall_types.h`; a size and an alignment are
those of the structure.  `ocall_exit` calls the host again and again and opens no frame, and
`ocall_fprint_string` does nothing at all.
-/

namespace SandboxTEE.Xcall.Frames

open SandboxTEE.Lib.Traced (emit)

/-! ## Nothing but the structure -/

/-- A structure in which nothing is stored leaves no trace. -/
def storeMs (ms size : Nat) (fields : List Int) : Framed Unit :=
  if fields.isEmpty then pure () else emit (.ms ms size fields)

/-- `out` is what the wrapper stores for its caller. -/
def plain (e : Enclave) (nr : OcallNr) (size alignment : Nat) (fields : List Int)
    (out : Framed Unit) (ret : Int) : Framed Int := do
  let oldUstack ← sgxPrepareUstack e
  let ms ← sgxAllocOnUstackAligned e size alignment
  storeMs ms size fields
  emit (.ocall nr ms)
  out
  sgxResetUstack oldUstack
  pure ret

def storeIf (p : Prop) [Decidable p] (dst size : Nat) : Framed Unit :=
  if p then emit (.store dst size) else pure ()

section

variable (e : Enclave) (ret : Int)

def ocallClose (fd : Int) : Framed Int := plain e .ocallClose 4 4 [fd] (pure ()) ret

def ocallFsetnonblock (fd nonblocking : Int) : Framed Int :=
  plain e .ocallFsetnonblock 8 4 [fd, nonblocking] (pure ()) ret

def ocallFchmod (fd : Int) (mode : Nat) : Framed Int :=
  plain e .ocallFchmod 8 4 [fd, mode] (pure ()) ret

def ocallFchdir (fd : Int) : Framed Int := plain e .ocallFchdir 4 4 [fd] (pure ()) ret

def ocallFsync (fd : Int) : Framed Int := plain e .ocallFsync 4 4 [fd] (pure ()) ret

def ocallFdatasync (fd : Int) : Framed Int := plain e .ocallFdatasync 4 4 [fd] (pure ()) ret

def ocallFtruncate (fd : Int) (length : Nat) : Framed Int :=
  plain e .ocallFtruncate 16 8 [fd, length] (pure ()) ret

def ocallLseek64 (fd offset whence : Int) : Framed Int :=
  plain e .ocallLseek64 24 8 [fd, offset, whence] (pure ()) ret

def ocallDup (fd : Int) : Framed Int := plain e .ocallDup 4 4 [fd] (pure ()) ret

def ocallFcntl (fd cmd args : Int) : Framed Int :=
  plain e .ocallFcntl 16 8 [fd, cmd, args] (pure ()) ret

def ocallSocketpair (domain type protocol : Int) (sockfds : Nat) : Framed Int :=
  plain e .ocallSocketpair 20 4 [domain, type, protocol] (storeIf (ret = 0) sockfds 8) ret

def ocallSockShutdown (sockfd how : Int) : Framed Int :=
  plain e .ocallSockShutdown 8 4 [sockfd, how] (pure ()) ret

def ocallGettimeofday (tv : Nat) : Framed Int :=
  plain e .ocallGettimeofday 16 8 [] (storeIf (ret = 0) tv 16) ret

def ocallClockGetres (clkId : Int) (tp : Nat) : Framed Int :=
  plain e .ocallClockGetres 24 8 [clkId] (storeIf (ret = 0) tp 16) ret

def ocallClockGettime (clkId : Int) (tp : Nat) : Framed Int :=
  plain e .ocallClockGettime 24 8 [clkId] (storeIf (ret = 0) tp 16) ret

/-- `-EINTR` -/
def interrupted : Int := -4

/-- The pointer with the value there, `microsec ? *microsec : 0`. -/
def ocallSleep (microsec value : Nat) : Framed Int :=
  plain e .ocallSleep 8 8 [if microsec ≠ 0 then value else 0]
    (storeIf (microsec ≠ 0 ∧ (ret = 0 ∨ ret = interrupted)) microsec 8) ret

def ocallNsleep (sec nsec : Int) (rmtp : Nat) : Framed Int :=
  plain e .ocallNsleep 32 8 [sec, nsec] (storeIf (ret ≥ 0 ∨ ret = interrupted) rmtp 16) ret

def ocallCpuid (leaf subleaf values : Nat) : Framed Int :=
  plain e .ocallCpuid 24 4 [leaf, subleaf] (storeIf (ret = 0) values 16) ret

def ocallGetpid : Framed Int := plain e .ocallGetpid 4 4 [] (pure ()) ret

def ocallFionread (fd : Int) : Framed Int := plain e .ocallFionread 4 4 [fd] (pure ()) ret

/-- The host's value is dropped. -/
def ocallDebugp (val : Int) : Framed Int := plain e .ocallDebugp 4 4 [val] (pure ()) 0

end

/-! ## Data for the host -/

/-- A string of the caller, with its length. -/
structure CString where
  ptr : Nat
  strlen : Nat

/-- An `int` where a `size_t` is expected. -/
def sizeOfInt (n : Nat) : Nat :=
  if n % 2 ^ 32 < 2 ^ 31 then n % 2 ^ 32 else n % 2 ^ 32 + (2 ^ 64 - 2 ^ 32)

/-- `int len = path ? strlen(path) + 1 : 0` -/
def CString.len (path : CString) : Nat :=
  sizeOfInt (if path.ptr ≠ 0 then path.strlen + 1 else 0)

/-- A structure with the place of one copy in it. -/
def withCopy (e : Enclave) (nr : OcallNr) (size ptr len : Nat) (fields : Nat → List Int)
    (ret : Int) : Framed Int := do
  let oldUstack ← sgxPrepareUstack e
  let ms ← sgxAllocOnUstackAligned e size 8
  let uptr ← sgxCopyToUstack e ptr len
  emit (.ms ms size (fields uptr))
  emit (.ocall nr ms)
  sgxResetUstack oldUstack
  pure ret

def withPath (e : Enclave) (nr : OcallNr) (size : Nat) (path : CString) (fields : List Int)
    (ret : Int) : Framed Int :=
  withCopy e nr size path.ptr path.len (fun uptr => uptr :: fields) ret

/-- A second copy, when it is asked for. -/
def withCopies (e : Enclave) (nr : OcallNr) (size ptr len ptr' len' : Nat) (second : Bool)
    (fields : Nat → Nat → List Int) (ret : Int) : Framed Int := do
  let oldUstack ← sgxPrepareUstack e
  let ms ← sgxAllocOnUstackAligned e size 8
  let uptr ← sgxCopyToUstack e ptr len
  let uptr' ← (if second then sgxCopyToUstack e ptr' len' else pure 0)
  emit (.ms ms size (fields uptr uptr'))
  emit (.ocall nr ms)
  sgxResetUstack oldUstack
  pure ret

section

variable (e : Enclave) (ret : Int)

def ocallOpen (pathname : CString) (flags : Int) (mode : Nat) : Framed Int :=
  withPath e .ocallOpen 24 pathname [flags, mode] ret

def ocallMkdir (pathname : CString) (mode : Nat) : Framed Int :=
  withPath e .ocallMkdir 16 pathname [mode] ret

def ocallRmdir (pathname : CString) : Framed Int := withPath e .ocallRmdir 8 pathname [] ret

def ocallChdir (pathname : CString) : Framed Int := withPath e .ocallChdir 8 pathname [] ret

def ocallUnlink (pathname : CString) : Framed Int := withPath e .ocallUnlink 8 pathname [] ret

def ocallTruncate (pathname : CString) (size : Nat) : Framed Int :=
  withPath e .ocallTruncate 16 pathname [size] ret

def ocallChmod (path : CString) (mode : Nat) : Framed Int :=
  withPath e .ocallChmod 16 path [mode] ret

def ocallAccess (pathname : CString) (mode : Nat) : Framed Int :=
  withPath e .ocallAccess 16 pathname [mode] ret

def ocallSockSetopt (sockfd level optname : Int) (optval optlen : Nat) : Framed Int :=
  withCopy e .ocallSockSetopt 32 optval optlen
    (fun uptr => [sockfd, level, optname, uptr, optlen]) ret

def ocallLink (oldpath newpath : CString) : Framed Int :=
  withCopies e .ocallLink 16 oldpath.ptr oldpath.len newpath.ptr newpath.len true
    (fun old new => [old, new]) ret

def ocallRename (oldpath newpath : CString) : Framed Int :=
  withCopies e .ocallRename 16 oldpath.ptr oldpath.len newpath.ptr newpath.len true
    (fun old new => [old, new]) ret

def ocallSockSend (sockfd : Int) (buf count addr addrlen : Nat) : Framed Int :=
  withCopies e .ocallSockSend 40 buf count addr addrlen (addr ≠ 0)
    (fun uptr uaddr => [sockfd, uptr, count, uaddr, addrlen]) ret

def ocallSockSendFd (sockfd : Int) (buf count fds nfds : Nat) : Framed Int :=
  withCopies e .ocallSockSendFd 40 buf count fds (4 * nfds) (fds ≠ 0)
    (fun uptr ufds => [sockfd, uptr, count, ufds, nfds]) ret

/-- The string is copied twice. -/
def ocallPrintString (str length : Nat) : Framed Int := do
  let oldUstack ← sgxPrepareUstack e
  if str = 0 ∨ length = 0 then do
    sgxResetUstack oldUstack
    pure 0
  else do
    let ms ← sgxAllocOnUstackAligned e 16 8
    if ms = 0 then do
      sgxResetUstack oldUstack
      pure (-1)
    else do
      let _ ← sgxCopyToUstack e str length
      let uptr ← sgxCopyToUstack e str length
      emit (.ms ms 16 [uptr, length])
      emit (.ocall .ocallPrintString ms)
      sgxResetUstack oldUstack
      pure (if ret > 0 ∧ ret.toNat > length then -1 else ret)

end

/-! ## Data from the host -/

/-- `sizeof(struct stat)`, and of `struct stat64` -/
def statSize : Nat := 144

/-- The host's place for the answer is read once more, and is not checked. -/
structure StatReply where
  ret : Int
  stat : Nat

def copyStat (buf : Nat) (r : StatReply) : Framed Unit :=
  if r.ret = 0 then emit (.copyIn buf r.stat statSize) else pure ()

def statPath (e : Enclave) (nr : OcallNr) (path : CString) (buf : Nat) (r : StatReply) :
    Framed Int := do
  let oldUstack ← sgxPrepareUstack e
  let ms ← sgxAllocOnUstackAligned e 16 8
  let upath ← sgxCopyToUstack e path.ptr path.len
  let ustat ← sgxAllocOnUstackAligned e statSize 8
  emit (.ms ms 16 [upath, ustat])
  emit (.ocall nr ms)
  copyStat buf r
  sgxResetUstack oldUstack
  pure r.ret

def statFd (e : Enclave) (nr : OcallNr) (fd : Int) (buf : Nat) (r : StatReply) : Framed Int := do
  let oldUstack ← sgxPrepareUstack e
  let ms ← sgxAllocOnUstackAligned e 16 8
  let ustat ← sgxAllocOnUstackAligned e statSize 8
  emit (.ms ms 16 [fd, ustat])
  emit (.ocall nr ms)
  copyStat buf r
  sgxResetUstack oldUstack
  pure r.ret

section

variable (e : Enclave)

def ocallStat (path : CString) (buf : Nat) (r : StatReply) : Framed Int :=
  statPath e .ocallStat path buf r

def ocallLstat (path : CString) (buf : Nat) (r : StatReply) : Framed Int :=
  statPath e .ocallLstat path buf r

def ocallStat64 (path : CString) (buf : Nat) (r : StatReply) : Framed Int :=
  statPath e .ocallStat64 path buf r

def ocallLstat64 (path : CString) (buf : Nat) (r : StatReply) : Framed Int :=
  statPath e .ocallLstat64 path buf r

def ocallFstat (fd : Int) (buf : Nat) (r : StatReply) : Framed Int :=
  statFd e .ocallFstat fd buf r

def ocallFstat64 (fd : Int) (buf : Nat) (r : StatReply) : Framed Int :=
  statFd e .ocallFstat64 fd buf r

def ocallGetdents (fd dirp size : Nat) (r : GetdentsReply) : Framed Int := do
  let oldUstack ← sgxPrepareUstack e
  let ms ← sgxAllocOnUstackAligned e 24 8
  emit (.ms ms 24 [fd, size])
  let _ ← sgxAllocOnUstack e size
  emit (.ocall .ocallGetdents ms)
  let _ ← (if r.ret > 0 then sgxCopyToEnclave e dirp size r.dirp r.ret.toNat else pure false)
  sgxResetUstack oldUstack
  pure r.ret

def ocallGetcwd (pathname size : Nat) (r : GetcwdReply) : Framed Int := do
  let oldUstack ← sgxPrepareUstack e
  let ms ← sgxAllocOnUstackAligned e 24 8
  emit (.ms ms 24 [size])
  emit (.ocall .ocallGetcwd ms)
  let _ ← (if r.ret ≥ 0 ∧ r.pathChecked ≠ 0 ∧ r.pathlenChecked ≠ 0 then
      sgxCopyToEnclave e pathname size r.path ((r.pathlen + 1) % 2 ^ 64)
    else pure false)
  sgxResetUstack oldUstack
  pure r.ret

/-- The quote's target. -/
def targetInfoSize : Nat := 512

def ocallSgxInitQuote (targetInfo : Nat) (status : Int) (src : Nat) : Framed Int := do
  let oldUstack ← sgxPrepareUstack e
  let ms ← sgxAllocOnUstackAligned e 8 8
  storeMs ms 8 (if targetInfo = 0 then [0] else [])
  let uptr ← sgxAllocOnUstackAligned e targetInfoSize 8
  emit (.ms ms 8 [uptr])
  emit (.ocall .ocallSgxInitQuote ms)
  let _ ← (if status = 0 ∧ targetInfo ≠ 0 then
      sgxCopyToEnclave e targetInfo targetInfoSize src targetInfoSize
    else pure false)
  sgxResetUstack oldUstack
  pure status

def ocallRemoteAttestation (quote quoteSize report : Nat) (r : QuoteReply) : Framed Int := do
  let oldUstack ← sgxPrepareUstack e
  let ms ← sgxAllocOnUstackAligned e 56 8
  emit (.ms ms 56 [])
  let _ ← sgxCopyToUstack e report reportSize
  emit (.ocall .ocallRemoteAttestation ms)
  emit (.store quoteSize 4)
  let _ ← sgxCopyToEnclave e quote r.quoteSize r.quote r.quoteSize
  sgxResetUstack oldUstack
  pure r.status

end

/-! ## Sockets with an address -/

/-- The address and its length.  With an address but no place for the length `ocall_sock_accept`
    and `ocall_sock_connect` end here by a fault. -/
def copyPeer (e : Enclave) (addr : Nat) (r : PeerReply) : Option OutParam → Framed Unit
  | some p =>
    if addr ≠ 0 then do
      let _ ← sgxCopyToEnclave e addr p.value r.addr r.addrlen
      emit (.store p.ptr 4)
    else pure ()
  | none => pure ()

/-- The end of these wrappers: `copy` takes in what the host's values stand for. -/
def acceptPeer (oldUstack : Nat) (rejected : Prop) [Decidable rejected]
    (copy : Framed Unit) (ret : Int) : Framed Int :=
  if ret ≥ 0 then
    if rejected then do
      sgxResetUstack oldUstack
      pure (-1)
    else do
      copy
      sgxResetUstack oldUstack
      pure ret
  else do
    sgxResetUstack oldUstack
    pure ret

section

variable (e : Enclave)

/-- A length of 0 is checked as well. -/
def ocallSockListen (domain type protocol : Int) (addr : Nat) (addrlen : OutParam)
    (r : PeerReply) : Framed Int := do
  let oldUstack ← sgxPrepareUstack e
  let ms ← sgxAllocOnUstackAligned e 32 8
  let uaddr ← sgxCopyToUstack e addr addrlen.value
  emit (.ms ms 32 [domain, type, protocol, uaddr, addrlen.value])
  emit (.ocall .ocallSockListen ms)
  acceptPeer oldUstack
    (sgxIsCompletelyWithinEnclave e r.addrChecked addrlen.value = true ∨
      r.addrlenChecked > addrlen.value)
    (copyPeer e addr r (some addrlen)) r.ret

def ocallSockAccept (sockfd : Int) (addr : Nat) (addrlen : Option OutParam) (r : PeerReply) :
    Framed Int := do
  let oldUstack ← sgxPrepareUstack e
  let ms ← sgxAllocOnUstackAligned e 24 8
  emit (.ms ms 24 [sockfd, lenOf addrlen])
  let _ ← sgxCopyToUstack e addr (lenOf addrlen)
  emit (.ocall .ocallSockAccept ms)
  acceptPeer oldUstack (r.rejected e (lenOf addrlen)) (copyPeer e addr r addrlen) r.ret

def ocallSockConnect (domain type protocol : Int) (addr addrlen bindAddr : Nat)
    (bindAddrlen : Option OutParam) (r : PeerReply) : Framed Int := do
  let oldUstack ← sgxPrepareUstack e
  let ms ← sgxAllocOnUstackAligned e 48 8
  let uaddr ← sgxCopyToUstack e addr addrlen
  let ubind ← (if bindAddr ≠ 0 then sgxCopyToUstack e bindAddr (lenOf bindAddrlen) else pure 0)
  emit (.ms ms 48 [domain, type, protocol, uaddr, addrlen, ubind, lenOf bindAddrlen])
  emit (.ocall .ocallSockConnect ms)
  acceptPeer oldUstack (r.rejected e (lenOf bindAddrlen)) (copyPeer e bindAddr r bindAddrlen) r.ret

def ocallSockRecv (sockfd : Int) (buf count addr : Nat) (addrlen : Option OutParam)
    (r : PeerReply) : Framed Int := do
  let oldUstack ← sgxPrepareUstack e
  let ms ← sgxAllocOnUstackAligned e 40 8
  emit (.ms ms 40 [sockfd, count, lenOf addrlen])
  let _ ← sgxAllocOnUstack e count
  let _ ← (if addr ≠ 0 then sgxAllocOnUstack e (lenOf addrlen) else pure 0)
  emit (.ocall .ocallSockRecv ms)
  acceptPeer oldUstack (r.rejected e (lenOf addrlen))
    (do let _ ← sgxCopyToEnclave e buf count r.buf r.ret.toNat; copyPeer e addr r addrlen) r.ret

def ocallSockRecvFd (sockfd : Int) (buf count fds : Nat) (nfds : OutParam) (r : FdsReply) :
    Framed Int := do
  let oldUstack ← sgxPrepareUstack e
  let ms ← sgxAllocOnUstackAligned e 40 8
  emit (.ms ms 40 [sockfd, count, nfds.value])
  let _ ← sgxAllocOnUstack e count
  let _ ← (if fds ≠ 0 then sgxAllocOnUstack e (4 * nfds.value) else pure 0)
  emit (.ocall .ocallSockRecvFd ms)
  acceptPeer oldUstack (r.rejected e nfds.value)
    (do
      let _ ← sgxCopyToEnclave e buf count r.buf r.ret.toNat
      let _ ← sgxCopyToEnclave e fds nfds.value r.fds (4 * r.nfds)
      emit (.store nfds.ptr 4)) r.ret

/-! ## Checks in front of the call -/

def ocallMprotect (addr len : Nat) (prot ret : Int) : Framed Int := do
  let oldUstack ← sgxPrepareUstack e
  if sgxIsCompletelyWithinEnclave e addr len then do
    sgxResetUstack oldUstack
    pure (-1)
  else do
    let ms ← sgxAllocOnUstackAligned e 24 8
    emit (.ms ms 24 [addr, len, prot])
    emit (.ocall .ocallMprotect ms)
    sgxResetUstack oldUstack
    pure ret

/-- `OCALL_NO_TIMEOUT` -/
def ocallNoTimeout : Nat := 2 ^ 64 - 1

/-- The structure is taken before the check. -/
def ocallFutex (futex : Nat) (op val : Int) (timeout : Option Nat) (uaddr2 : Nat) (val3 ret : Int) :
    Framed Int := do
  let oldUstack ← sgxPrepareUstack e
  let ms ← sgxAllocOnUstackAligned e 40 8
  if sgxIsCompletelyWithinEnclave e futex 4 then do
    sgxResetUstack oldUstack
    pure (-1)
  else do
    emit (.ms ms 40 [futex, op, val, timeout.getD ocallNoTimeout, uaddr2, val3])
    emit (.ocall .ocallFutex ms)
    sgxResetUstack oldUstack
    pure ret

end

/-! ## The plain wrappers -/

section

variable {e : Enclave}

theorem forget_ocallGetdents (fd dirp size : Nat) (r : GetdentsReply) :
    (ocallGetdents e fd dirp size r).mapEvents Access.forget = Xcall.ocallGetdents e dirp size r := by
  simp [ocallGetdents, Xcall.ocallGetdents]

theorem forget_ocallGetcwd (pathname size : Nat) (r : GetcwdReply) :
    (ocallGetcwd e pathname size r).mapEvents Access.forget =
      Xcall.ocallGetcwd e pathname size r := by
  simp [ocallGetcwd, Xcall.ocallGetcwd]

theorem forget_ocallRemoteAttestation (quote quoteSize report : Nat) (r : QuoteReply) :
    (ocallRemoteAttestation e quote quoteSize report r).mapEvents Access.forget =
      Xcall.ocallRemoteAttestation e quote quoteSize report r := by
  simp [ocallRemoteAttestation, Xcall.ocallRemoteAttestation]

@[simp] theorem forget_copyPeer (addr : Nat) (r : PeerReply) (addrlen : Option OutParam) :
    (copyPeer e addr r addrlen).mapEvents Access.forget = Xcall.copyPeer e addr r addrlen := by
  cases addrlen with
  | none => rfl
  | some p => simp [copyPeer, Xcall.copyPeer]

theorem forget_ocallSockAccept (sockfd : Int) (addr : Nat) (addrlen : Option OutParam)
    (r : PeerReply) : (ocallSockAccept e sockfd addr addrlen r).mapEvents Access.forget =
      Xcall.ocallSockAccept e addr addrlen r := by
  simp [ocallSockAccept, acceptPeer, Xcall.ocallSockAccept]

theorem forget_ocallSockRecv (sockfd : Int) (buf count addr : Nat) (addrlen : Option OutParam)
    (r : PeerReply) : (ocallSockRecv e sockfd buf count addr addrlen r).mapEvents Access.forget =
      Xcall.ocallSockRecv e buf count addr addrlen r := by
  simp [ocallSockRecv, acceptPeer, Xcall.ocallSockRecv]

theorem forget_ocallSockRecvFd (sockfd : Int) (buf count fds : Nat) (nfds : OutParam)
    (r : FdsReply) : (ocallSockRecvFd e sockfd buf count fds nfds r).mapEvents Access.forget =
      Xcall.ocallSockRecvFd e buf count fds nfds r := by
  simp [ocallSockRecvFd, acceptPeer, Xcall.ocallSockRecvFd]

end

end SandboxTEE.Xcall.Frames
