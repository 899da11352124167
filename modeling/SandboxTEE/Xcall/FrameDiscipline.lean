import SandboxTEE.Xcall.FrameRules
import SandboxTEE.Xcall.HostRanges
import SandboxTEE.Xcall.Wrappers

/-! # Every wrapper closes its frame, but for a failed buffer

The four transfers return at once when the call for their buffer fails, and leave the red zone
behind.  All other wrappers leave the untrusted stack as they found it, whatever the host answers.
-/

namespace SandboxTEE.Xcall.Frames

/-! ## Layouts -/

variable {size : Nat}

theorem layout_words (words : 8 ∣ size) (bound : size < 2 ^ 64) : Layout size 8 :=
  ⟨bound, 3, by decide, rfl, words⟩

theorem layout_ints (ints : 4 ∣ size) (bound : size < 2 ^ 64) : Layout size 4 :=
  ⟨bound, 2, by decide, rfl, ints⟩

theorem sizeOfInt_lt (n : Nat) : sizeOfInt n < 2 ^ 64 := by
  rw [sizeOfInt]
  split
  · omega
  · omega

theorem uint32_lt (n : UInt32) : n.toNat < 2 ^ 64 := Nat.lt_trans n.toNat_lt (by decide)

theorem CString.len_lt (path : CString) : path.len < 2 ^ 64 := sizeOfInt_lt _

/-! ## The families -/

variable {α : Type} {e : Enclave}

theorem descends_storeIf (p : Prop) [Decidable p] (dst size : Nat) :
    Descends e (storeIf p dst size) := descends_ite (descends_emit _ rfl) (descends_pure ())

theorem descends_storeMs (ms size : Nat) (fields : List Int) :
    Descends e (storeMs ms size fields) := descends_ite (descends_pure ()) (descends_emit _ rfl)

variable {nr : OcallNr}

theorem restores_plain {alignment : Nat} {fields : List Int} {out : Framed Unit}
    (layout : Layout size alignment) (quiet : Descends e out) (ret : Int) :
    Restores e (plain e nr size alignment fields out ret) := by
  refine restores_frame fun old => closes_ms layout fun ms => ?_
  refine closes_bind (descends_storeMs _ _ _) fun _ => closes_bind (descends_emit _ rfl) fun _ => ?_
  exact closes_bind quiet fun _ => closes_done old ret

theorem restores_withCopy {ptr len : Nat} {fields : Nat → List Int} (layout : Layout size 8)
    (bound : len < 2 ^ 64) (ret : Int) : Restores e (withCopy e nr size ptr len fields ret) := by
  refine restores_frame fun old => closes_ms layout fun ms => ?_
  refine closes_bind (descends_copyToUstack ptr bound) fun uptr => ?_
  exact closes_ocall (closes_done old ret)

theorem restores_withCopies {ptr len ptr' len' : Nat} {second : Bool}
    {fields : Nat → Nat → List Int} (layout : Layout size 8) (bound : len < 2 ^ 64)
    (bound' : len' < 2 ^ 64) (ret : Int) :
    Restores e (withCopies e nr size ptr len ptr' len' second fields ret) := by
  refine restores_frame fun old => closes_ms layout fun ms => ?_
  refine closes_bind (descends_copyToUstack ptr bound) fun uptr => ?_
  refine closes_bind (descends_ite (descends_copyToUstack ptr' bound') (descends_pure 0)) ?_
  exact fun uptr' => closes_ocall (closes_done old ret)

theorem descends_copyStat (buf : Nat) (r : StatReply) : Descends e (copyStat buf r) :=
  descends_ite (descends_emit _ rfl) (descends_pure ())

theorem layout_stat : Layout statSize 8 := layout_words (by decide) (by decide)

theorem restores_statPath (nr : OcallNr) (path : CString) (buf : Nat) (r : StatReply) :
    Restores e (statPath e nr path buf r) := by
  refine restores_frame fun old => closes_ms (layout_words (by decide) (by decide)) fun ms => ?_
  refine closes_bind (descends_copyToUstack path.ptr path.len_lt) fun upath => ?_
  refine closes_ms layout_stat fun ustat => closes_ocall ?_
  exact closes_bind (descends_copyStat buf r) fun _ => closes_done old r.ret

theorem restores_statFd (nr : OcallNr) (fd : Int) (buf : Nat) (r : StatReply) :
    Restores e (statFd e nr fd buf r) := by
  refine restores_frame fun old => closes_ms (layout_words (by decide) (by decide)) fun ms => ?_
  refine closes_ms layout_stat fun ustat => closes_ocall ?_
  exact closes_bind (descends_copyStat buf r) fun _ => closes_done old r.ret

theorem descends_copyPeer (addr : Nat) (r : PeerReply) (addrlen : Option OutParam) :
    Descends e (copyPeer e addr r addrlen) := by
  cases addrlen with
  | none => exact descends_pure ()
  | some p =>
    refine descends_ite (descends_bind (descends_copyToEnclave _ _ _ _) fun _ => ?_) (descends_pure ())
    exact descends_emit _ rfl

theorem closes_acceptPeer {old : Nat} {rejected : Prop} [Decidable rejected] {copy : Framed Unit}
    (quiet : Descends e copy) (ret : Int) : Closes e old (acceptPeer old rejected copy ret) := by
  refine closes_ite (closes_ite (closes_done old _) ?_) (closes_done old ret)
  exact closes_bind quiet fun _ => closes_done old ret

theorem restores_ocallAllocUntrusted (size : Nat) (r : AllocReply) :
    Restores e (ocallAllocUntrusted e size r) := by
  refine restores_frame fun old => closes_ms (layout_words (by decide) (by decide)) fun ms => ?_
  exact closes_ocall (closes_ite (closes_ite (closes_done _ _) (closes_done _ _)) (closes_done _ _))

variable (fd : Int)

theorem restores_ocallMmapUntrusted (offset size prot : Nat) (r : AllocReply) :
    Restores e (ocallMmapUntrusted e fd offset size prot r) := by
  refine restores_frame fun old => closes_ms (layout_words (by decide) (by decide)) fun ms => ?_
  exact closes_ocall (closes_ite (closes_ite (closes_done _ _) (closes_done _ _)) (closes_done _ _))

theorem restores_ocallUnmapUntrusted (mem size : Nat) (ret : Int) :
    Restores e (ocallUnmapUntrusted e mem size ret) := by
  refine restores_frame fun old => closes_ite (closes_done _ _) ?_
  refine closes_ms (layout_words (by decide) (by decide)) fun ms => ?_
  exact closes_ocall (closes_done _ _)

/-! ## The other wrappers -/

theorem restores_ocallPrintString (str length : Nat) (bound : length < 2 ^ 64) (ret : Int) :
    Restores e (ocallPrintString e ret str length) := by
  refine restores_frame fun old => closes_ite (closes_done _ _) ?_
  refine closes_ms (layout_words (by decide) (by decide)) fun ms => ?_
  refine closes_ite (closes_done _ _) ?_
  refine closes_bind (descends_copyToUstack str bound) fun _ => ?_
  exact closes_bind (descends_copyToUstack str bound) fun _ => closes_ocall (closes_done _ _)

theorem restores_ocallGetdents (fd dirp size : Nat) (bound : size < 2 ^ 64) (r : GetdentsReply) :
    Restores e (ocallGetdents e fd dirp size r) := by
  refine restores_frame fun old => closes_ms (layout_words (by decide) (by decide)) fun ms => ?_
  refine closes_bind (descends_emit _ rfl) fun _ => closes_ms (layout_bytes bound) fun _ => ?_
  refine closes_bind (descends_emit _ rfl) fun _ => ?_
  refine closes_bind (descends_ite (descends_copyToEnclave _ _ _ _) (descends_pure false)) ?_
  exact fun _ => closes_done _ _

theorem restores_ocallGetcwd (pathname size : Nat) (r : GetcwdReply) :
    Restores e (ocallGetcwd e pathname size r) := by
  refine restores_frame fun old => closes_ms (layout_words (by decide) (by decide)) fun ms => ?_
  refine closes_ocall ?_
  refine closes_bind (descends_ite (descends_copyToEnclave _ _ _ _) (descends_pure false)) ?_
  exact fun _ => closes_done _ _

theorem restores_ocallSgxInitQuote (targetInfo : Nat) (status : Int) (src : Nat) :
    Restores e (ocallSgxInitQuote e targetInfo status src) := by
  refine restores_frame fun old => closes_ms (layout_words (by decide) (by decide)) fun ms => ?_
  refine closes_bind (descends_storeMs _ _ _) fun _ => ?_
  refine closes_ms (layout_words (by decide) (by decide)) fun uptr => closes_ocall ?_
  refine closes_bind (descends_ite (descends_copyToEnclave _ _ _ _) (descends_pure false)) ?_
  exact fun _ => closes_done _ _

theorem restores_ocallRemoteAttestation (quote quoteSize report : Nat) (r : QuoteReply) :
    Restores e (ocallRemoteAttestation e quote quoteSize report r) := by
  refine restores_frame fun old => closes_ms (layout_words (by decide) (by decide)) fun ms => ?_
  refine closes_bind (descends_emit _ rfl) fun _ => ?_
  refine closes_bind (descends_copyToUstack report (by decide)) fun _ => ?_
  refine closes_bind (descends_emit _ rfl) fun _ => closes_bind (descends_emit _ rfl) fun _ => ?_
  exact closes_bind (descends_copyToEnclave _ _ _ _) fun _ => closes_done _ _

theorem restores_ocallSockListen (domain type protocol : Int) (addr : Nat) (addrlen : OutParam)
    (bound : addrlen.value < 2 ^ 64) (r : PeerReply) :
    Restores e (ocallSockListen e domain type protocol addr addrlen r) := by
  refine restores_frame fun old => closes_ms (layout_words (by decide) (by decide)) fun ms => ?_
  refine closes_bind (descends_copyToUstack addr bound) fun uaddr => closes_ocall ?_
  exact closes_acceptPeer (descends_copyPeer _ _ _) r.ret

theorem restores_ocallSockAccept (sockfd : Int) (addr : Nat) (addrlen : Option OutParam)
    (bound : lenOf addrlen < 2 ^ 64) (r : PeerReply) :
    Restores e (ocallSockAccept e sockfd addr addrlen r) := by
  refine restores_frame fun old => closes_ms (layout_words (by decide) (by decide)) fun ms => ?_
  refine closes_bind (descends_emit _ rfl) fun _ => ?_
  refine closes_bind (descends_copyToUstack addr bound) fun _ => ?_
  exact closes_bind (descends_emit _ rfl) fun _ => closes_acceptPeer (descends_copyPeer _ _ _) r.ret

theorem restores_ocallSockConnect (domain type protocol : Int) (addr addrlen bindAddr : Nat)
    (bindAddrlen : Option OutParam) (bound : addrlen < 2 ^ 64)
    (bound' : lenOf bindAddrlen < 2 ^ 64) (r : PeerReply) :
    Restores e (ocallSockConnect e domain type protocol addr addrlen bindAddr bindAddrlen r) := by
  refine restores_frame fun old => closes_ms (layout_words (by decide) (by decide)) fun ms => ?_
  refine closes_bind (descends_copyToUstack addr bound) fun uaddr => ?_
  refine closes_bind (descends_ite (descends_copyToUstack _ bound') (descends_pure 0)) ?_
  exact fun ubind => closes_ocall (closes_acceptPeer (descends_copyPeer _ _ _) r.ret)

theorem restores_ocallSockRecv (sockfd : Int) (buf count addr : Nat) (addrlen : Option OutParam)
    (bound : count < 2 ^ 64) (bound' : lenOf addrlen < 2 ^ 64) (r : PeerReply) :
    Restores e (ocallSockRecv e sockfd buf count addr addrlen r) := by
  refine restores_frame fun old => closes_ms (layout_words (by decide) (by decide)) fun ms => ?_
  refine closes_bind (descends_emit _ rfl) fun _ => closes_ms (layout_bytes bound) fun _ => ?_
  refine closes_bind (descends_ite (descends_alloc (layout_bytes bound')) (descends_pure 0)) ?_
  refine fun _ => closes_bind (descends_emit _ rfl) fun _ => closes_acceptPeer ?_ r.ret
  exact descends_bind (descends_copyToEnclave _ _ _ _) fun _ => descends_copyPeer _ _ _

theorem restores_ocallSockRecvFd (sockfd : Int) (buf count fds : Nat) (nfds : OutParam)
    (bound : count < 2 ^ 64) (bound' : 4 * nfds.value < 2 ^ 64) (r : FdsReply) :
    Restores e (ocallSockRecvFd e sockfd buf count fds nfds r) := by
  refine restores_frame fun old => closes_ms (layout_words (by decide) (by decide)) fun ms => ?_
  refine closes_bind (descends_emit _ rfl) fun _ => closes_ms (layout_bytes bound) fun _ => ?_
  refine closes_bind (descends_ite (descends_alloc (layout_bytes bound')) (descends_pure 0)) ?_
  refine fun _ => closes_bind (descends_emit _ rfl) fun _ => closes_acceptPeer ?_ r.ret
  refine descends_bind (descends_copyToEnclave _ _ _ _) fun _ => ?_
  exact descends_bind (descends_copyToEnclave _ _ _ _) fun _ => descends_emit _ rfl

theorem restores_ocallMprotect (addr len : Nat) (prot ret : Int) :
    Restores e (ocallMprotect e addr len prot ret) := by
  refine restores_frame fun old => closes_ite (closes_done _ _) ?_
  refine closes_ms (layout_words (by decide) (by decide)) fun ms => ?_
  exact closes_ocall (closes_done _ _)

theorem restores_ocallFutex (futex : Nat) (op val : Int) (timeout : Option Nat) (uaddr2 : Nat)
    (val3 ret : Int) : Restores e (ocallFutex e futex op val timeout uaddr2 val3 ret) := by
  refine restores_frame fun old => closes_ms (layout_words (by decide) (by decide)) fun ms => ?_
  exact closes_ite (closes_done _ _) (closes_ocall (closes_done _ _))

/-! ## Transfers -/

theorem restores_unmapBounce (obuf count : Nat) (ret : Int) :
    Restores e (unmapBounce e obuf count ret) := by
  refine restores_ite (restores_bind (restores_ocallUnmapUntrusted _ _ _) ?_) (restores_pure ())
  exact fun _ => restores_pure ()

theorem restores_allocBounce (limit count : Nat) (r : AllocReply) :
    Restores e (allocBounce e limit count r) :=
  restores_ite (restores_ocallAllocUntrusted _ r) (restores_pure _)

theorem closes_leave (old obuf count : Nat) (unmap a : Int) :
    Closes e old (do sgxResetUstack old; unmapBounce e obuf count unmap; pure a) :=
  (restores_bind (restores_unmapBounce _ _ _) fun _ => restores_pure a).closes

variable {count : Nat}

theorem descends_copyOutBounce (obuf buf : Nat) (bound : count < 2 ^ 64) :
    Descends e (copyOutBounce e obuf buf count) := by
  refine descends_ite (descends_bind (descends_emit _ rfl) fun _ => descends_pure obuf) ?_
  exact descends_copyToUstack buf bound

theorem descends_readBeforeOut (buf ms obuf : Nat) (bound : count < 2 ^ 64)
    (r : TransferReply) : Descends e (readBeforeOut e fd buf count ms obuf r) := by
  refine descends_ite (descends_pure _) (descends_bind (descends_emit _ rfl) fun _ => ?_)
  refine descends_bind (descends_ite (descends_pure obuf) (descends_alloc (layout_bytes bound))) ?_
  refine fun _ => descends_bind (descends_emit _ rfl) fun _ => ?_
  refine descends_ite (descends_ite (descends_pure _) ?_) (descends_pure _)
  exact descends_bind (descends_copyToEnclave _ _ _ _) fun _ => descends_pure _

/-- The host refuses the buffer, or its answer is rejected. -/
def BufferFails (e : Enclave) (limit count : Nat) (r : AllocReply) : Prop :=
  count > limit ∧ (r.ret < 0 ∨
    r.ret = 0 ∧ sgxIsCompletelyWithinEnclave e r.memChecked (allocAlignup count) = true)

instance (e : Enclave) (limit count : Nat) (r : AllocReply) :
    Decidable (BufferFails e limit count r) := inferInstanceAs (Decidable (_ ∧ _))

theorem bounceOutcome_neg_iff (limit count : Nat) (r : AllocReply) :
    (bounceOutcome e limit count r).1 < 0 ↔ BufferFails e limit count r := by
  rw [bounceOutcome, BufferFails]
  by_cases large : count > limit
  · rw [if_pos large, allocOutcome]
    by_cases ok : r.ret = 0
    · by_cases inside : sgxIsCompletelyWithinEnclave e r.memChecked (allocAlignup count) = true
      · simp [large, ok, inside]
      · simp [ok, inside]
    · simp [large, ok]
  · simp [large]

/-- A transfer whose buffer fails leaves its frame open, and the pointer where the frame
    begins. -/
theorem effect_withBounce {limit : Nat} {r : AllocReply} {rest : Nat → Nat → Framed Int}
    (closes : ∀ old obuf, Closes e old (rest old obuf)) (ustack : Nat) (outer : List (List Block))
    (idle : Idle outer) : effect e (withBounce e limit count r rest) ustack outer =
      if BufferFails e limit count r then (prepared e ustack, some ([] :: outer))
      else (ustack, some outer) := by
  have idle' : Idle ([] :: outer) := List.forall_mem_cons.mpr ⟨rfl, idle⟩
  rw [withBounce, effect_prepare_bind, effect_bind (restores_allocBounce _ _ _ _ _ idle'),
    result_allocBounce]
  by_cases failed : BufferFails e limit count r
  · rw [if_pos failed, if_pos ((bounceOutcome_neg_iff ..).mpr failed)]
    rfl
  · rw [if_neg failed, if_neg (mt (bounceOutcome_neg_iff ..).mp failed)]
    exact closes ustack _ _ [] outer (below_nil _) idle

/-! ### The four transfers -/

variable {outer : List (List Block)}

theorem effect_ocallRead (buf ustack : Nat) (bound : count < 2 ^ 64) (r : TransferReply)
    (idle : Idle outer) : effect e (ocallRead e fd buf count r) ustack outer =
      if BufferFails e maxUntrustedStackBuf count r.alloc then
        (prepared e ustack, some ([] :: outer)) else (ustack, some outer) := by
  refine effect_withBounce (fun old obuf => ?_) ustack outer idle
  refine closes_ms (layout_words (by decide) (by decide)) fun ms => ?_
  refine closes_bind (descends_readBeforeOut _ _ _ _ bound r) fun retval => ?_
  exact closes_leave _ _ _ _ _

theorem effect_ocallPread64 (buf pos ustack : Nat) (bound : count < 2 ^ 64)
    (r : TransferReply) (idle : Idle outer) :
    effect e (ocallPread64 e fd buf count pos r) ustack outer =
      if BufferFails e 4096 count r.alloc then (prepared e ustack, some ([] :: outer))
      else (ustack, some outer) := by
  refine effect_withBounce (fun old obuf => ?_) ustack outer idle
  refine closes_ms (layout_words (by decide) (by decide)) fun ms => ?_
  refine closes_bind (descends_emit _ rfl) fun _ => ?_
  refine closes_bind (descends_ite (descends_pure obuf) (descends_alloc (layout_bytes bound))) ?_
  refine fun _ => closes_bind (descends_emit _ rfl) fun _ => ?_
  refine closes_bind (descends_ite (descends_emit _ rfl) (descends_pure ())) fun _ => ?_
  exact closes_leave _ _ _ _ _

theorem closes_copyOut {f : Nat → Nat → Framed Int} {old obuf : Nat} (buf : Nat)
    (bound : count < 2 ^ 64) (rest : ∀ ms msBuf, Closes e old (f ms msBuf)) : Closes e old (do
      let ms ← sgxAllocOnUstackAligned e 24 8 let msBuf ← copyOutBounce e obuf buf count
      f ms msBuf) := by
  refine closes_ms (layout_words (by decide) (by decide)) fun ms => ?_
  exact closes_bind (descends_copyOutBounce obuf buf bound) fun msBuf => rest ms msBuf

theorem effect_ocallWrite (buf ustack : Nat) (bound : count < 2 ^ 64) (r : WriteReply)
    (idle : Idle outer) : effect e (ocallWrite e fd buf count r) ustack outer =
      if BufferFails e maxUntrustedStackBuf count r.alloc then
        (prepared e ustack, some ([] :: outer)) else (ustack, some outer) := by
  refine effect_withBounce (fun old obuf => ?_) ustack outer idle
  exact closes_copyOut buf bound fun ms msBuf => closes_ocall (closes_leave _ _ _ _ _)

theorem effect_ocallPwrite64 (buf offset ustack : Nat) (bound : count < 2 ^ 64)
    (r : WriteReply) (idle : Idle outer) :
    effect e (ocallPwrite64 e fd buf count offset r) ustack outer =
      if BufferFails e 4096 count r.alloc then (prepared e ustack, some ([] :: outer))
      else (ustack, some outer) := by
  refine effect_withBounce (fun old obuf => ?_) ustack outer idle
  exact closes_copyOut buf bound fun ms msBuf => closes_ocall (closes_leave _ _ _ _ _)

/-! ## A call of any of them -/

/-- An `unsigned int` of the caller that a wrapper updates. -/
structure UintParam extends OutParam where
  bound : value < 2 ^ 32

def outParam (p : Option UintParam) : Option OutParam := p.map UintParam.toOutParam

theorem lenOf_lt (p : Option UintParam) : lenOf (outParam p) < 2 ^ 64 := by
  cases p with
  | none => exact Nat.two_pow_pos 64
  | some p => exact Nat.lt_trans p.bound (by decide)

inductive Call where
  | allocUntrusted (size : Nat) (r : AllocReply)
  | mmapUntrusted (fd : Int) (offset size prot : Nat) (r : AllocReply)
  | unmapUntrusted (mem size : Nat) (ret : Int)
  | mprotect (addr len : Nat) (prot ret : Int)
  | openFile (pathname : CString) (flags : Int) (mode : Nat) (ret : Int)
  | close (fd ret : Int)
  | read (fd : Int) (buf : Nat) (count : UInt32) (r : TransferReply)
  | write (fd : Int) (buf : Nat) (count : UInt32) (r : WriteReply)
  | stat (path : CString) (buf : Nat) (r : StatReply)
  | lstat (path : CString) (buf : Nat) (r : StatReply)
  | fstat (fd : Int) (buf : Nat) (r : StatReply)
  | stat64 (path : CString) (buf : Nat) (r : StatReply)
  | lstat64 (path : CString) (buf : Nat) (r : StatReply)
  | fstat64 (fd : Int) (buf : Nat) (r : StatReply)
  | fsetnonblock (fd nonblocking ret : Int)
  | fchmod (fd : Int) (mode : Nat) (ret : Int)
  | fchdir (fd ret : Int)
  | fsync (fd ret : Int)
  | fdatasync (fd ret : Int)
  | ftruncate (fd : Int) (length : Nat) (ret : Int)
  | lseek64 (fd offset whence ret : Int)
  | pread64 (fd : Int) (buf : Nat) (count : UInt64) (pos : Nat) (r : TransferReply)
  | pwrite64 (fd : Int) (buf : Nat) (count : UInt64) (offset : Nat) (r : WriteReply)
  | dup (fd ret : Int)
  | mkdir (pathname : CString) (mode : Nat) (ret : Int)
  | rmdir (pathname : CString) (ret : Int)
  | chdir (pathname : CString) (ret : Int)
  | getcwd (pathname size : Nat) (r : GetcwdReply)
  | link (oldpath newpath : CString) (ret : Int)
  | unlink (pathname : CString) (ret : Int)
  | truncate (pathname : CString) (size : Nat) (ret : Int)
  | rename (oldpath newpath : CString) (ret : Int)
  | chmod (path : CString) (mode : Nat) (ret : Int)
  | access (pathname : CString) (mode : Nat) (ret : Int)
  | fcntl (fd cmd args ret : Int)
  | getdents (fd dirp : Nat) (size : UInt32) (r : GetdentsReply)
  | socketpair (domain type protocol : Int) (sockfds : Nat) (ret : Int)
  | sockListen (domain type protocol : Int) (addr : Nat) (addrlen : UintParam) (r : PeerReply)
  | sockAccept (sockfd : Int) (addr : Nat) (addrlen : Option UintParam) (r : PeerReply)
  | sockConnect (domain type protocol : Int) (addr : Nat) (addrlen : UInt32) (bindAddr : Nat)
      (bindAddrlen : Option UintParam) (r : PeerReply)
  | sockRecv (sockfd : Int) (buf : Nat) (count : UInt32) (addr : Nat)
      (addrlen : Option UintParam) (r : PeerReply)
  | sockSend (sockfd : Int) (buf : Nat) (count : UInt32) (addr : Nat) (addrlen : UInt32)
      (ret : Int)
  | sockRecvFd (sockfd : Int) (buf : Nat) (count : UInt32) (fds : Nat) (nfds : UintParam)
      (r : FdsReply)
  | sockSendFd (sockfd : Int) (buf : Nat) (count : UInt32) (fds : Nat) (nfds : UInt32) (ret : Int)
  | sockSetopt (sockfd level optname : Int) (optval : Nat) (optlen : UInt32) (ret : Int)
  | sockShutdown (sockfd how ret : Int)
  | gettimeofday (tv : Nat) (ret : Int)
  | clockGetres (clkId : Int) (tp : Nat) (ret : Int)
  | clockGettime (clkId : Int) (tp : Nat) (ret : Int)
  | sleep (microsec value : Nat) (ret : Int)
  | nsleep (sec nsec : Int) (rmtp : Nat) (ret : Int)
  | cpuid (leaf subleaf values : Nat) (ret : Int)
  | getpid (ret : Int)
  | fionread (fd ret : Int)
  | futex (addr : Nat) (op val : Int) (timeout : Option Nat) (uaddr2 : Nat) (val3 ret : Int)
  | printString (str : Nat) (length : UInt32) (ret : Int)
  | debugp (val ret : Int)
  | sgxInitQuote (targetInfo : Nat) (status : Int) (src : Nat)
  | remoteAttestation (quote quoteSize report : Nat) (r : QuoteReply)

namespace Call

def run (e : Enclave) : Call → Framed Int
  | allocUntrusted size r => do
    let out ← ocallAllocUntrusted e size r
    pure out.1
  | mmapUntrusted fd offset size prot r => do
    let out ← ocallMmapUntrusted e fd offset size prot r
    pure out.1
  | unmapUntrusted mem size ret => ocallUnmapUntrusted e mem size ret
  | mprotect addr len prot ret => ocallMprotect e addr len prot ret
  | openFile pathname flags mode ret => ocallOpen e ret pathname flags mode
  | close fd ret => ocallClose e ret fd
  | read fd buf count r => ocallRead e fd buf count.toNat r
  | write fd buf count r => ocallWrite e fd buf count.toNat r
  | stat path buf r => ocallStat e path buf r
  | lstat path buf r => ocallLstat e path buf r
  | fstat fd buf r => ocallFstat e fd buf r
  | stat64 path buf r => ocallStat64 e path buf r
  | lstat64 path buf r => ocallLstat64 e path buf r
  | fstat64 fd buf r => ocallFstat64 e fd buf r
  | fsetnonblock fd nonblocking ret => ocallFsetnonblock e ret fd nonblocking
  | fchmod fd mode ret => ocallFchmod e ret fd mode
  | fchdir fd ret => ocallFchdir e ret fd
  | fsync fd ret => ocallFsync e ret fd
  | fdatasync fd ret => ocallFdatasync e ret fd
  | ftruncate fd length ret => ocallFtruncate e ret fd length
  | lseek64 fd offset whence ret => ocallLseek64 e ret fd offset whence
  | pread64 fd buf count pos r => ocallPread64 e fd buf count.toNat pos r
  | pwrite64 fd buf count offset r => ocallPwrite64 e fd buf count.toNat offset r
  | dup fd ret => ocallDup e ret fd
  | mkdir pathname mode ret => ocallMkdir e ret pathname mode
  | rmdir pathname ret => ocallRmdir e ret pathname
  | chdir pathname ret => ocallChdir e ret pathname
  | getcwd pathname size r => ocallGetcwd e pathname size r
  | link oldpath newpath ret => ocallLink e ret oldpath newpath
  | unlink pathname ret => ocallUnlink e ret pathname
  | truncate pathname size ret => ocallTruncate e ret pathname size
  | rename oldpath newpath ret => ocallRename e ret oldpath newpath
  | chmod path mode ret => ocallChmod e ret path mode
  | access pathname mode ret => ocallAccess e ret pathname mode
  | fcntl fd cmd args ret => ocallFcntl e ret fd cmd args
  | getdents fd dirp size r => ocallGetdents e fd dirp size.toNat r
  | socketpair domain type protocol sockfds ret =>
    ocallSocketpair e ret domain type protocol sockfds
  | sockListen domain type protocol addr addrlen r =>
    ocallSockListen e domain type protocol addr addrlen.toOutParam r
  | sockAccept sockfd addr addrlen r => ocallSockAccept e sockfd addr (outParam addrlen) r
  | sockConnect domain type protocol addr addrlen bindAddr bindAddrlen r =>
    ocallSockConnect e domain type protocol addr addrlen.toNat bindAddr (outParam bindAddrlen) r
  | sockRecv sockfd buf count addr addrlen r =>
    ocallSockRecv e sockfd buf count.toNat addr (outParam addrlen) r
  | sockSend sockfd buf count addr addrlen ret =>
    ocallSockSend e ret sockfd buf count.toNat addr addrlen.toNat
  | sockRecvFd sockfd buf count fds nfds r =>
    ocallSockRecvFd e sockfd buf count.toNat fds nfds.toOutParam r
  | sockSendFd sockfd buf count fds nfds ret =>
    ocallSockSendFd e ret sockfd buf count.toNat fds nfds.toNat
  | sockSetopt sockfd level optname optval optlen ret =>
    ocallSockSetopt e ret sockfd level optname optval optlen.toNat
  | sockShutdown sockfd how ret => ocallSockShutdown e ret sockfd how
  | gettimeofday tv ret => ocallGettimeofday e ret tv
  | clockGetres clkId tp ret => ocallClockGetres e ret clkId tp
  | clockGettime clkId tp ret => ocallClockGettime e ret clkId tp
  | sleep microsec value ret => ocallSleep e ret microsec value
  | nsleep sec nsec rmtp ret => ocallNsleep e ret sec nsec rmtp
  | cpuid leaf subleaf values ret => ocallCpuid e ret leaf subleaf values
  | getpid ret => ocallGetpid e ret
  | fionread fd ret => ocallFionread e ret fd
  | futex addr op val timeout uaddr2 val3 ret =>
    ocallFutex e addr op val timeout uaddr2 val3 ret
  | printString str length ret => ocallPrintString e ret str length.toNat
  | debugp val _ => ocallDebugp e val
  | sgxInitQuote targetInfo status src => ocallSgxInitQuote e targetInfo status src
  | remoteAttestation quote quoteSize report r =>
    ocallRemoteAttestation e quote quoteSize report r

/-- The call for the buffer of a transfer fails. -/
def FailsForBuffer (e : Enclave) : Call → Prop
  | read _ _ count r => BufferFails e maxUntrustedStackBuf count.toNat r.alloc
  | write _ _ count r => BufferFails e maxUntrustedStackBuf count.toNat r.alloc
  | pread64 _ _ count _ r => BufferFails e 4096 count.toNat r.alloc
  | pwrite64 _ _ count _ r => BufferFails e 4096 count.toNat r.alloc
  | _ => False

instance (e : Enclave) (call : Call) : Decidable (call.FailsForBuffer e) := by
  cases call
  case read | write | pread64 | pwrite64 => exact inferInstanceAs (Decidable (BufferFails ..))
  all_goals exact instDecidableFalse

end Call

theorem effect_run (call : Call) (ustack : Nat) (outer : List (List Block)) (idle : Idle outer) :
    effect e (call.run e) ustack outer =
      if call.FailsForBuffer e then (prepared e ustack, some ([] :: outer))
      else (ustack, some outer) := by
  revert ustack outer
  have quiet : Descends e (pure ()) := descends_pure ()
  have words {size : Nat} (h : 8 ∣ size ∧ size < 2 ^ 64) : Layout size 8 := layout_words h.1 h.2
  have ints {size : Nat} (h : 4 ∣ size ∧ size < 2 ^ 64) : Layout size 4 := layout_ints h.1 h.2
  cases call with
  | read fd buf count r => exact fun u _ => effect_ocallRead _ _ u (uint32_lt count) r
  | write fd buf count r => exact fun u _ => effect_ocallWrite _ _ u (uint32_lt count) r
  | pread64 fd buf count pos r => exact fun u _ => effect_ocallPread64 _ _ _ u count.toNat_lt r
  | pwrite64 fd buf count offset r =>
    exact fun u _ => effect_ocallPwrite64 _ _ _ u count.toNat_lt r
  | allocUntrusted size r =>
    exact restores_bind (restores_ocallAllocUntrusted _ _) fun _ => restores_pure _
  | mmapUntrusted fd offset size prot r =>
    exact restores_bind (restores_ocallMmapUntrusted _ _ _ _ _) fun _ => restores_pure _
  | unmapUntrusted mem size ret => exact restores_ocallUnmapUntrusted _ _ _
  | mprotect addr len prot ret => exact restores_ocallMprotect _ _ _ _
  | close fd ret | fchdir fd ret | fsync fd ret | fdatasync fd ret | dup fd ret
  | fionread fd ret | getpid ret | debugp val ret =>
    exact restores_plain (ints (by decide)) quiet _
  | fsetnonblock fd nonblocking ret | fchmod fd mode ret | sockShutdown sockfd how ret =>
    exact restores_plain (ints (by decide)) quiet _
  | ftruncate fd length ret | lseek64 fd offset whence ret | fcntl fd cmd args ret =>
    exact restores_plain (words (by decide)) quiet _
  | socketpair domain type protocol sockfds ret | cpuid leaf subleaf values ret =>
    exact restores_plain (ints (by decide)) (descends_storeIf _ _ _) _
  | gettimeofday tv ret | clockGetres clkId tp ret | clockGettime clkId tp ret
  | sleep microsec value ret | nsleep sec nsec rmtp ret =>
    exact restores_plain (words (by decide)) (descends_storeIf _ _ _) _
  | openFile path flags mode ret | mkdir path mode ret | rmdir path ret | chdir path ret
  | unlink path ret | truncate path size ret | chmod path mode ret | access path mode ret =>
    exact restores_withCopy (words (by decide)) path.len_lt _
  | sockSetopt sockfd level optname optval optlen ret =>
    exact restores_withCopy (words (by decide)) (uint32_lt optlen) _
  | link oldpath newpath ret | rename oldpath newpath ret =>
    exact restores_withCopies (words (by decide)) oldpath.len_lt newpath.len_lt _
  | sockSend sockfd buf count addr addrlen ret =>
    exact restores_withCopies (words (by decide)) (uint32_lt count) (uint32_lt addrlen) _
  | sockSendFd sockfd buf count fds nfds ret =>
    have := nfds.toNat_lt
    exact restores_withCopies (words (by decide)) (uint32_lt count) (by omega) _
  | stat path buf r | lstat path buf r | stat64 path buf r | lstat64 path buf r =>
    exact restores_statPath _ _ _ _
  | fstat fd buf r | fstat64 fd buf r => exact restores_statFd _ _ _ _
  | getcwd pathname size r => exact restores_ocallGetcwd _ _ _
  | getdents fd dirp size r => exact restores_ocallGetdents _ _ _ (uint32_lt size) _
  | sockListen domain type protocol addr addrlen r =>
    have := addrlen.bound
    exact restores_ocallSockListen _ _ _ _ _ (by omega) _
  | sockAccept sockfd addr addrlen r =>
    exact restores_ocallSockAccept _ _ _ (lenOf_lt addrlen) _
  | sockConnect domain type protocol addr addrlen bindAddr bindAddrlen r =>
    exact restores_ocallSockConnect _ _ _ _ _ _ _ (uint32_lt addrlen) (lenOf_lt bindAddrlen) _
  | sockRecv sockfd buf count addr addrlen r =>
    exact restores_ocallSockRecv _ _ _ _ _ (uint32_lt count) (lenOf_lt addrlen) _
  | sockRecvFd sockfd buf count fds nfds r =>
    have := nfds.bound
    exact restores_ocallSockRecvFd _ _ _ _ _ (uint32_lt count) (by omega) _
  | futex addr op val timeout uaddr2 val3 ret => exact restores_ocallFutex _ _ _ _ _ _ _
  | printString str length ret => exact restores_ocallPrintString _ _ (uint32_lt length) _
  | sgxInitQuote targetInfo status src => exact restores_ocallSgxInitQuote _ _ _
  | remoteAttestation quote quoteSize report r => exact restores_ocallRemoteAttestation _ _ _ _

/-! ## The discipline -/

theorem subWrap_redZone_ne (ustack : Nat) : subWrap ustack redZoneSize ≠ ustack := by
  rw [subWrap, redZoneSize]
  omega

theorem prepared_eq_iff (ustack : Nat) : prepared e ustack = ustack ↔ ustack = e.ustackTop := by
  rw [prepared]
  by_cases top : ustack = e.ustackTop
  · rw [if_neg (not_not_intro top)]
    exact iff_of_true rfl top
  · rw [if_pos top]
    exact iff_of_false (subWrap_redZone_ne ustack) top

/-- The pointer is back at its entry value, and every block that was taken was completely
    outside and apart from all blocks in use. -/
def Disciplined (e : Enclave) (ustack : Nat) {α : Type} (m : Framed α) : Prop :=
  (m.run ustack).state = ustack ∧ (framesAfter e [] (m.run ustack).events).isSome

variable {ustack : Nat}

theorem disciplined_of_effect {m : Framed α} {frames : List (List Block)}
    (h : effect e m ustack [] = (ustack, some frames)) : Disciplined e ustack m := by
  obtain ⟨state, after⟩ := Prod.mk.inj h
  exact ⟨state, Option.isSome_of_eq_some after⟩

/-- The call for a buffer fails at most where there is no red zone to leave behind. -/
def Call.KeepsRedZone (e : Enclave) (ustack : Nat) (call : Call) : Prop :=
  call.FailsForBuffer e → ustack = e.ustackTop

/-- One call, and the frames that it may leave open. -/
theorem effect_of_keepsRedZone {call : Call} (keeps : call.KeepsRedZone e ustack)
    (outer : List (List Block)) (idle : Idle outer) : ∃ outer',
    effect e (call.run e) ustack outer = (ustack, some outer') ∧ Idle outer' := by
  rw [effect_run call ustack outer idle]
  by_cases fails : call.FailsForBuffer e
  · rw [if_pos fails, (prepared_eq_iff ustack).mpr (keeps fails)]
    exact ⟨[] :: outer, rfl, List.forall_mem_cons.mpr ⟨rfl, idle⟩⟩
  · rw [if_neg fails]
    exact ⟨outer, rfl, idle⟩

theorem disciplined_run_iff (ustack : Nat) (call : Call) :
    Disciplined e ustack (call.run e) ↔ call.KeepsRedZone e ustack := by
  have idle : Idle [] := fun _ mem => nomatch mem
  constructor
  · intro disciplined fails
    have after := effect_run (e := e) call ustack [] idle
    rw [if_pos fails] at after
    obtain ⟨state, -⟩ := Prod.mk.inj after
    exact (prepared_eq_iff ustack).mp (state.symm.trans disciplined.1)
  · intro keeps
    obtain ⟨frames, after, -⟩ := effect_of_keepsRedZone keeps [] idle
    exact disciplined_of_effect after

/-- One call after the other. -/
def runCalls (e : Enclave) : List Call → Framed Unit
  | [] => pure ()
  | call :: calls => do
    let _ ← call.run e
    runCalls e calls

theorem effect_runCalls : ∀ {calls : List Call},
    (∀ call ∈ calls, call.KeepsRedZone e ustack) → ∀ outer, Idle outer → ∃ outer',
      effect e (runCalls e calls) ustack outer = (ustack, some outer')
  | [], _, outer, _ => ⟨outer, rfl⟩
  | call :: calls, keeps, outer, idle => by
    obtain ⟨first, rest⟩ := List.forall_mem_cons.mp keeps
    obtain ⟨between, after, idle'⟩ := effect_of_keepsRedZone first outer idle
    rw [runCalls, effect_bind after]
    exact effect_runCalls rest between idle'

/-- For one call exactly when no buffer fails below the top, and so for every run of such calls. -/
theorem ustack_discipline (e : Enclave) (ustack : Nat) :
    (∀ call : Call, Disciplined e ustack (call.run e) ↔ call.KeepsRedZone e ustack) ∧
      ∀ calls : List Call, (∀ call ∈ calls, call.KeepsRedZone e ustack) →
        Disciplined e ustack (runCalls e calls) := by
  refine ⟨disciplined_run_iff ustack, fun calls keeps => ?_⟩
  obtain ⟨frames, after⟩ := effect_runCalls keeps [] fun _ mem => nomatch mem
  exact disciplined_of_effect after

/-- The host has no memory for the buffer. -/
def refusedRead : Call :=
  .read 3 0x1800000 600000
    { alloc := { ret := -12, memChecked := 0, mem := 0 }, ret := 0, buf := 0, unmap := 0 }

/-- A large read that gets no buffer loses the red zone. -/
theorem refusedRead_leaks : ¬ Disciplined below16M 0x7fff00 (refusedRead.run below16M) := by
  rw [disciplined_run_iff]
  exact fun keeps => absurd (keeps ⟨by decide, .inl (by decide)⟩) (by decide)

/-- The same call at the top of the stack, and a call with a path after it. -/
theorem ustack_discipline_at_top : Disciplined below16M 0x800000
    (runCalls below16M [refusedRead, .mkdir { ptr := 0x1800000, strlen := 4 } 0x1ff 0]) :=
  (ustack_discipline below16M 0x800000).2 _ fun call mem => by
    rcases List.mem_pair.mp mem with rfl | rfl
    · exact fun _ => rfl
    · exact fun fails => fails.elim

end SandboxTEE.Xcall.Frames
