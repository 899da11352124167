import SandboxTEE.Lib.ByteMemory
import SandboxTEE.Lib.LittleEndian
import SandboxTEE.Xcall.Framework

/-! # Descriptors over the boundary (`ocall_sock_send_fd`, `ocall_sock_recv_fd`)

What the wrappers and their counterparts on the host do to memory.  The sender hands its message
and its descriptors to `sendmsg`.  The receiver's host looks at the control message only when
`recvmsg` has *failed*, and the wrapper compares a size in bytes with a number of descriptors: no
descriptor ever reaches the caller (`ocallSockRecvFd_passes_iff`).

The host is the kernel and the code outside the enclave.  The `ms` structures are values.
-/

namespace SandboxTEE.Xcall.PassFds

open SandboxTEE.Lib (bytesAt store leBytes leBytes_append_inj length_bytesAt bytesAt_copy
  bytesAt_store bytesAt_store_of_apart store_nil)

/-- The pointer of the untrusted stack, and the memory of the process. -/
structure Process where
  ustack : Nat
  mem : Nat → BitVec 8

abbrev Trusted := StateM Process

/-- A step that leaves the memory alone. -/
def onUstack {α : Type} (w : Wrapper α) : Trusted α := fun p =>
  ((w p.ustack).result, { p with ustack := (w p.ustack).state })

def memcpy (dst src size : Nat) : Trusted Unit := fun p =>
  ((), { p with mem := store p.mem dst (bytesAt p.mem src size) })

/-- `sgx_copy_to_ustack`, with the bytes. -/
def copyToUstack (e : Enclave) (ptr size : Nat) : Trusted Nat :=
  if sgxIsCompletelyWithinEnclave e ptr size = false then pure 0
  else do
    let uptr ← onUstack (sgxAllocOnUstack e size)
    if uptr ≠ 0 then do
      memcpy uptr ptr size
      pure uptr
    else pure uptr

/-- `sgx_copy_to_enclave`, with the bytes. -/
def copyToEnclave (e : Enclave) (ptr maxsize uptr usize : Nat) : Trusted Bool :=
  if usize > maxsize ∨ sgxIsCompletelyOutsideEnclave e uptr usize = false ∨
      sgxIsCompletelyWithinEnclave e ptr usize = false then pure false
  else do
    memcpy ptr uptr usize
    pure true

/-- `ms_ocall_sock_send_fd_t`, `ms_ocall_sock_recv_fd_t`; pointers are addresses. -/
structure MsSockFd where
  msSockfd : Int
  msBuf : Nat
  msCount : Nat
  msFds : Nat
  msNfds : Nat

/-- `sizeof` of both. -/
def msSockFdSize : Nat := 40

/-- The number of bytes of descriptors. -/
def fdsSize (n : Nat) : Nat := 4 * n

def fdBytes (fds : List (BitVec 32)) : List (BitVec 8) := fds.flatMap fun fd => leBytes 4 fd.toNat

theorem fdBytes_cons (fd : BitVec 32) (fds : List (BitVec 32)) :
    fdBytes (fd :: fds) = leBytes 4 fd.toNat ++ fdBytes fds := List.flatMap_cons

theorem fdBytes_inj {fds fds' : List (BitVec 32)} (same : fdBytes fds = fdBytes fds') :
    fds = fds' := by
  induction fds generalizing fds' with
  | nil =>
    cases fds' with
    | nil => rfl
    | cons fd' fds' => exact nomatch same
  | cons fd fds ih =>
    cases fds' with
    | nil => exact nomatch same
    | cons fd' fds' =>
      rw [fdBytes_cons, fdBytes_cons] at same
      obtain ⟨first, rest⟩ := leBytes_append_inj fd.isLt fd'.isLt same
      rw [BitVec.eq_of_toNat_eq first, ih rest]

/-! ## Sending -/

/-- The pointer of the message, its bytes, and the data of the `SCM_RIGHTS` message. -/
structure SendmsgArgs where
  sockfd : Int
  buf : Nat
  bytes : List (BitVec 8)
  rights : List (BitVec 8)
deriving DecidableEq

/-- What `sendmsg` is called with; `memcpy` from NULL is a fault. -/
def sgxOcallSockSendFd (mem : Nat → BitVec 8) (ms : MsSockFd) : Option SendmsgArgs :=
  if ms.msFds = 0 ∧ 0 < ms.msNfds then none
  else some ⟨ms.msSockfd, ms.msBuf, bytesAt mem ms.msBuf ms.msCount,
    bytesAt mem ms.msFds (fdsSize ms.msNfds)⟩

/-- `fds ? sgx_copy_to_ustack(fds, sizeof(int) * nfds) : NULL` -/
def copyFdsToUstack (e : Enclave) (fds nfds : Nat) : Trusted Nat :=
  if fds ≠ 0 then copyToUstack e fds (fdsSize nfds) else pure 0

/-- What the host hands to `sendmsg`. -/
def ocallSockSendFd (e : Enclave) (sockfd : Int) (buf count fds nfds : Nat) :
    Trusted (Option SendmsgArgs) := do
  let oldUstack ← onUstack (sgxPrepareUstack e)
  let _ ← onUstack (sgxAllocOnUstackAligned e msSockFdSize 8)
  let msBuf ← copyToUstack e buf count
  let msFds ← copyFdsToUstack e fds nfds
  let args := sgxOcallSockSendFd (← get).mem ⟨sockfd, msBuf, count, msFds, nfds⟩
  onUstack (sgxResetUstack oldUstack)
  pure args

/-! ## Receiving -/

/-- The buffer, and the room for descriptors in the control buffer. -/
structure RecvmsgArgs where
  sockfd : Int
  buf : Nat
  count : Nat
  room : Nat

/-- The return value, the bytes stored at the buffer, and the descriptors of the first control
    message when it is one of `SCM_RIGHTS`. -/
structure RecvmsgResult where
  ret : Int
  bytes : List (BitVec 8)
  rights : Option (List (BitVec 32))

/-- The return value and `ms_nfds`. -/
def sgxOcallSockRecvFd (recvmsg : RecvmsgArgs → RecvmsgResult) (ms : MsSockFd) :
    Trusted (Int × Nat) := fun p =>
  let r := recvmsg ⟨ms.msSockfd, ms.msBuf, ms.msCount, ms.msNfds⟩
  let mem := store p.mem ms.msBuf r.bytes
  if r.ret < 0 then
    match r.rights with
    | some fds => ((r.ret, fds.length), { p with mem := store mem ms.msFds (fdBytes fds) })
    | none => ((r.ret, 0), { p with mem := mem })
  else ((r.ret, ms.msNfds), { p with mem := mem })

/-- `fds ? sgx_alloc_on_ustack(sizeof(int) * (*nfds)) : NULL` -/
def allocFdsOnUstack (e : Enclave) (fds nfds : Nat) : Trusted Nat :=
  if fds ≠ 0 then onUstack (sgxAllocOnUstack e (fdsSize nfds)) else pure 0

/-- What is done with the reply. -/
def takeRecvFdReply (e : Enclave) (buf count fds nfds msBuf msFds : Nat) (retval : Int)
    (msNfds : Nat) : Trusted (Int × Nat) :=
  if 0 ≤ retval then
    if sgxIsCompletelyWithinEnclave e msFds (fdsSize nfds) ∨ msNfds > nfds then pure (-1, nfds)
    else do
      let _ ← copyToEnclave e buf count msBuf retval.toNat
      let _ ← copyToEnclave e fds nfds msFds (fdsSize msNfds)
      pure (retval, msNfds)
  else pure (retval, nfds)

/-- The return value and `*nfds`. -/
def ocallSockRecvFd (e : Enclave) (recvmsg : RecvmsgArgs → RecvmsgResult) (sockfd : Int)
    (buf count fds nfds : Nat) : Trusted (Int × Nat) := do
  let oldUstack ← onUstack (sgxPrepareUstack e)
  let _ ← onUstack (sgxAllocOnUstackAligned e msSockFdSize 8)
  let msBuf ← onUstack (sgxAllocOnUstack e count)
  let msFds ← allocFdsOnUstack e fds nfds
  let (retval, msNfds) ← sgxOcallSockRecvFd recvmsg ⟨sockfd, msBuf, count, msFds, nfds⟩
  let result ← takeRecvFdReply e buf count fds nfds msBuf msFds retval msNfds
  onUstack (sgxResetUstack oldUstack)
  pure result

/-! ## Steps and what they leave -/

section Steps

variable {e : Enclave} {p q : Process}

theorem trusted_bind {α β : Type} {m : Trusted α} {f : α → Trusted β} {r : β × Process}
    (run : (m >>= f) p = r) : ∃ a q, m p = (a, q) ∧ f a q = r :=
  ⟨_, _, rfl, run⟩

theorem onUstack_mem {α : Type} {w : Wrapper α} {a : α} (run : onUstack w p = (a, q)) :
    q.mem = p.mem := by
  cases run
  rfl

theorem within_iff {addr size : Nat} : sgxIsCompletelyWithinEnclave e addr size = true ↔
      addr ≤ uintptrMax - size ∧ e.base ≤ addr ∧ addr + size ≤ e.top := by
  rw [sgxIsCompletelyWithinEnclave]
  split <;> simp <;> omega

theorem outside_iff {addr size : Nat} : sgxIsCompletelyOutsideEnclave e addr size = true ↔
      addr ≤ uintptrMax - size ∧ (addr + size ≤ e.base ∨ e.top ≤ addr) := by
  rw [sgxIsCompletelyOutsideEnclave]
  split <;> simp <;> omega

/-- What passes one check is apart from what passes the other. -/
theorem apart_of_checks {addr size addr' size' : Nat}
    (within : sgxIsCompletelyWithinEnclave e addr size = true)
    (outside : sgxIsCompletelyOutsideEnclave e addr' size' = true) :
    addr + size ≤ addr' ∨ addr' + size' ≤ addr := by
  have within := within_iff.mp within
  have outside := outside_iff.mp outside
  omega

theorem allocated_check {ustack size alignment : Nat} (h : allocated e ustack size alignment ≠ 0) :
    sgxIsCompletelyOutsideEnclave e (allocated e ustack size alignment) size = true := by
  rw [allocated] at h ⊢
  by_cases check : sgxIsCompletelyOutsideEnclave e (ustackBelow ustack size alignment) size = false
  · exact absurd (if_pos check) h
  · rw [if_neg check]
    exact eq_true_of_ne_false check

theorem sub_mod_add_le {m u s : Nat} (small : s ≤ m) (fits : (u + m - s) % m + s < m) :
    (u + m - s) % m + s ≤ u := by
  have same : ((u + m - s) % m + s) % m = u % m := by
    rw [Nat.mod_add_mod, Nat.sub_add_cancel (small.trans (Nat.le_add_left m u)), Nat.add_mod_right]
  rw [← Nat.mod_eq_of_lt fits, same]
  exact Nat.mod_le u m

/-- A block of bytes ends where the pointer was. -/
theorem allocated_add_le {ustack size : Nat} (h : allocated e ustack size 1 ≠ 0) :
    allocated e ustack size 1 + size ≤ ustack := by
  have check := (outside_iff.mp (allocated_check h)).1
  have below : allocated e ustack size 1 = subWrap ustack size := by
    rw [allocated] at h ⊢
    split at h
    · exact absurd rfl h
    · next kept => rw [if_neg kept, ustackBelow, Nat.sub_self, Nat.and_zero, Nat.sub_zero]
  rw [below] at h check ⊢
  rw [uintptrMax] at check
  have small : size < 2 ^ 64 := by
    by_contra large
    exact h (Nat.le_zero.mp (check.trans (Nat.le_of_eq (Nat.sub_eq_zero_of_le (by omega)))))
  rw [subWrap, Nat.mod_eq_of_lt small] at check ⊢
  exact sub_mod_add_le (Nat.le_of_lt small) (by omega)

theorem onUstack_alloc {count addr : Nat} (run : onUstack (sgxAllocOnUstack e count) p = (addr, q))
    (nonnull : addr ≠ 0) : q = { p with ustack := addr } ∧
      sgxIsCompletelyOutsideEnclave e addr count = true ∧ addr + count ≤ p.ustack := by
  cases run
  refine ⟨?_, allocated_check nonnull, allocated_add_le nonnull⟩
  have kept : sgxIsCompletelyOutsideEnclave e (ustackBelow p.ustack count 1) count ≠ false := by
    intro failed
    exact nonnull (if_pos failed)
  have result : (sgxAllocOnUstack e count p.ustack).result = ustackBelow p.ustack count 1 :=
    if_neg kept
  have state : (sgxAllocOnUstack e count p.ustack).state = ustackBelow p.ustack count 1 :=
    if_neg kept
  exact congrArg (fun ustack => { p with ustack := ustack }) (state.trans result.symm)

/-- Bytes that are copied out: NULL and nothing happened, or a new block of them. -/
def Copied (e : Enclave) (ptr size addr : Nat) (p q : Process) : Prop :=
  (addr = 0 ∧ q.mem = p.mem) ∨
  (sgxIsCompletelyOutsideEnclave e addr size = true ∧ q.ustack = addr ∧ addr + size ≤ p.ustack ∧
    q.mem = store p.mem addr (bytesAt p.mem ptr size))

theorem copied_of_copyToUstack {ptr size addr : Nat}
    (run : copyToUstack e ptr size p = (addr, q)) : Copied e ptr size addr p q := by
  rw [copyToUstack] at run
  split at run
  · cases run
    exact Or.inl ⟨rfl, rfl⟩
  · obtain ⟨uptr, q₁, alloc, run⟩ := trusted_bind run
    have unchanged := onUstack_mem alloc
    split at run
    · next nonnull =>
      obtain ⟨rfl, outside, below⟩ := onUstack_alloc alloc nonnull
      cases run
      exact Or.inr ⟨outside, rfl, below, rfl⟩
    · next null =>
      cases run
      exact Or.inl ⟨Decidable.not_not.mp null, unchanged⟩

variable {ptr size addr addr' len : Nat}

theorem Copied.bytes (h : Copied e ptr size addr p q) (nonnull : addr = 0 → size = 0) :
    bytesAt q.mem addr size = bytesAt p.mem ptr size := by
  rcases h with ⟨null, -⟩ | ⟨-, -, -, mem⟩
  · rw [nonnull null]
    rfl
  · rw [mem, bytesAt_copy]

theorem Copied.keeps_above (h : Copied e ptr size addr p q) (above : p.ustack ≤ addr') :
    bytesAt q.mem addr' len = bytesAt p.mem addr' len := by
  rcases h with ⟨-, mem⟩ | ⟨-, -, below, mem⟩
  · rw [mem]
  · rw [mem, bytesAt_store_of_apart]
    rw [length_bytesAt]
    omega

theorem Copied.keeps_enclave (h : Copied e ptr size addr p q)
    (within : sgxIsCompletelyWithinEnclave e addr' len = true) :
    bytesAt q.mem addr' len = bytesAt p.mem addr' len := by
  rcases h with ⟨-, mem⟩ | ⟨outside, -, -, mem⟩
  · rw [mem]
  · rw [mem, bytesAt_store_of_apart]
    rw [length_bytesAt]
    exact apart_of_checks within outside

/-- Memory behind `sgx_copy_to_enclave`. -/
def copiedIn (e : Enclave) (ptr maxsize uptr usize : Nat) (mem : Nat → BitVec 8) : Nat → BitVec 8 :=
  if usize > maxsize ∨ sgxIsCompletelyOutsideEnclave e uptr usize = false ∨
      sgxIsCompletelyWithinEnclave e ptr usize = false then mem
  else store mem ptr (bytesAt mem uptr usize)

theorem copyToEnclave_mem {ptr maxsize uptr usize : Nat} {copied : Bool}
    (run : copyToEnclave e ptr maxsize uptr usize p = (copied, q)) :
    q.mem = copiedIn e ptr maxsize uptr usize p.mem := by
  rw [copyToEnclave] at run
  rw [copiedIn]
  split at run
  · next failed =>
    cases run
    rw [if_pos failed]
  · next passed =>
    cases run
    rw [if_neg passed]

end Steps

/-! ## What is sent -/

section Send

variable {e : Enclave} {sockfd : Int} {buf count fds nfds : Nat} {p q : Process}

theorem copied_of_copyFdsToUstack {addr : Nat} (run : copyFdsToUstack e fds nfds p = (addr, q)) :
    Copied e fds (fdsSize nfds) addr p q := by
  rw [copyFdsToUstack] at run
  split at run
  · exact copied_of_copyToUstack run
  · cases run
    exact Or.inl ⟨rfl, rfl⟩

/-- The host sends the bytes of the caller's buffer and the descriptors of its array, unless the
    untrusted stack had no room for them. -/
theorem ocallSockSendFd_sends {args : SendmsgArgs}
    (run : ocallSockSendFd e sockfd buf count fds nfds p = (some args, q))
    (within : sgxIsCompletelyWithinEnclave e fds (fdsSize nfds) = true)
    (nonnull : args.buf = 0 → count = 0) :
    args.bytes = bytesAt p.mem buf count ∧ args.rights = bytesAt p.mem fds (fdsSize nfds) := by
  rw [ocallSockSendFd] at run
  obtain ⟨oldUstack, p₁, opened, run⟩ := trusted_bind run
  obtain ⟨ms, p₂, allocMs, run⟩ := trusted_bind run
  obtain ⟨msBuf, p₃, copyBuf, run⟩ := trusted_bind run
  obtain ⟨msFds, p₄, copyFds, run⟩ := trusted_bind run
  obtain ⟨_, p₅, now, run⟩ := trusted_bind run
  cases now
  obtain ⟨_, p₆, closed, run⟩ := trusted_bind run
  have sent : sgxOcallSockSendFd p₄.mem ⟨sockfd, msBuf, count, msFds, nfds⟩ = some args :=
    congrArg Prod.fst run
  have entry : p₂.mem = p.mem := (onUstack_mem allocMs).trans (onUstack_mem opened)
  have copiedBuf := copied_of_copyToUstack copyBuf
  have copiedFds := copied_of_copyFdsToUstack copyFds
  rw [sgxOcallSockSendFd] at sent
  split at sent
  · exact nomatch sent
  · next noFault =>
    cases sent
    dsimp only at nonnull noFault ⊢
    constructor
    · -- the descriptors are copied to below the message
      have kept : bytesAt p₄.mem msBuf count = bytesAt p₃.mem msBuf count := by
        rcases copiedBuf with ⟨null, -⟩ | ⟨-, top, -, -⟩
        · rw [nonnull null]
          rfl
        · exact copiedFds.keeps_above (Nat.le_of_eq top)
      rw [kept, copiedBuf.bytes nonnull, entry]
    · have noFds : msFds = 0 → fdsSize nfds = 0 := by
        intro null
        rw [fdsSize]
        omega
      rw [copiedFds.bytes noFds, copiedBuf.keeps_enclave within, entry]

end Send

/-! ## What is received -/

section Receive

variable {e : Enclave} {recvmsg : RecvmsgArgs → RecvmsgResult} {sockfd : Int}
  {buf count fds nfds : Nat} {p q : Process} {retval : Int} {nfds' : Nat}

theorem allocFdsOnUstack_mem {addr : Nat} (run : allocFdsOnUstack e fds nfds p = (addr, q)) :
    q.mem = p.mem := by
  rw [allocFdsOnUstack] at run
  split at run
  · exact onUstack_mem run
  · cases run
    rfl

/-- When `recvmsg` succeeds, the host stores its bytes, and leaves `ms_nfds` as it is. -/
theorem sgxOcallSockRecvFd_success {ms : MsSockFd}
    (run : sgxOcallSockRecvFd recvmsg ms p = ((retval, nfds'), q)) (ok : 0 ≤ retval) :
    retval = (recvmsg ⟨ms.msSockfd, ms.msBuf, ms.msCount, ms.msNfds⟩).ret ∧ nfds' = ms.msNfds ∧
      q.mem = store p.mem ms.msBuf
        (recvmsg ⟨ms.msSockfd, ms.msBuf, ms.msCount, ms.msNfds⟩).bytes := by
  unfold sgxOcallSockRecvFd at run
  dsimp only at run
  split at run
  · next failed =>
    -- the branch that fills in the descriptors is the one of a failed call
    split at run
    · cases run
      exact absurd failed (Int.not_lt.mpr ok)
    · cases run
      exact absurd failed (Int.not_lt.mpr ok)
  · cases run
    exact ⟨rfl, rfl, rfl⟩

theorem takeRecvFdReply_success {msBuf msFds msNfds : Nat} {ret : Int}
    (run : takeRecvFdReply e buf count fds nfds msBuf msFds ret msNfds p = ((retval, nfds'), q))
    (ok : 0 ≤ retval) : retval = ret ∧ nfds' = msNfds ∧
      q.mem = copiedIn e fds nfds msFds (fdsSize msNfds)
        (copiedIn e buf count msBuf ret.toNat p.mem) := by
  rw [takeRecvFdReply] at run
  split at run
  · split at run
    · cases run
      exact absurd ok (by decide)
    · obtain ⟨_, p₁, copyBuf, run⟩ := trusted_bind run
      obtain ⟨_, p₂, copyFds, run⟩ := trusted_bind run
      cases run
      rw [copyToEnclave_mem copyFds, copyToEnclave_mem copyBuf]
      exact ⟨rfl, rfl, rfl⟩
  · next failed =>
    cases run
    exact absurd ok failed

/-- A call that succeeds: the buffer on the untrusted stack, what `recvmsg` stored there, and
    the two copies. -/
theorem ocallSockRecvFd_success
    (run : ocallSockRecvFd e recvmsg sockfd buf count fds nfds p = ((retval, nfds'), q))
    (ok : 0 ≤ retval) :
    ∃ msBuf msFds, (msBuf ≠ 0 → sgxIsCompletelyOutsideEnclave e msBuf count = true) ∧
      retval = (recvmsg ⟨sockfd, msBuf, count, nfds⟩).ret ∧ nfds' = nfds ∧
      q.mem = copiedIn e fds nfds msFds (fdsSize nfds) (copiedIn e buf count msBuf retval.toNat
        (store p.mem msBuf (recvmsg ⟨sockfd, msBuf, count, nfds⟩).bytes)) := by
  rw [ocallSockRecvFd] at run
  obtain ⟨oldUstack, p₁, opened, run⟩ := trusted_bind run
  obtain ⟨ms, p₂, allocMs, run⟩ := trusted_bind run
  obtain ⟨msBuf, p₃, allocBuf, run⟩ := trusted_bind run
  obtain ⟨msFds, p₄, allocFds, run⟩ := trusted_bind run
  obtain ⟨⟨ret, msNfds⟩, p₅, called, run⟩ := trusted_bind run
  obtain ⟨⟨retval', result⟩, p₆, taken, run⟩ := trusted_bind run
  obtain ⟨_, p₇, closed, run⟩ := trusted_bind run
  cases run
  have entry : p₄.mem = p.mem :=
    ((allocFdsOnUstack_mem allocFds).trans (onUstack_mem allocBuf)).trans
      ((onUstack_mem allocMs).trans (onUstack_mem opened))
  obtain ⟨rfl, rfl, copied⟩ := takeRecvFdReply_success taken ok
  obtain ⟨rfl, rfl, stored⟩ := sgxOcallSockRecvFd_success called ok
  refine ⟨msBuf, msFds, fun nonnull => (onUstack_alloc allocBuf nonnull).2.1, rfl, rfl, ?_⟩
  rw [onUstack_mem closed, copied, stored, entry]

end Receive

/-! ## Whether the descriptors arrive -/

/-- What the kernel does with a message that was sent: on the other side of the socket stand the
    descriptors `received`, in order one for each that was sent, and `recvmsg` with enough room
    hands them out, with as many bytes as the buffer takes. -/
structure Delivers (sameFile : BitVec 32 → BitVec 32 → Prop) (sent : SendmsgArgs)
    (received : List (BitVec 32)) (recvmsg : RecvmsgArgs → RecvmsgResult) : Prop where
  each : ∀ fds, sent.rights = fdBytes fds → List.Forall₂ sameFile fds received
  bytes : ∀ args, 0 ≤ (recvmsg args).ret → (recvmsg args).bytes = sent.bytes.take args.count
  ret : ∀ args, 0 ≤ (recvmsg args).ret → (recvmsg args).ret = (recvmsg args).bytes.length
  rights : ∀ args, 0 ≤ (recvmsg args).ret → received.length ≤ args.room →
    (recvmsg args).rights = some received
  fault : ∀ args, 0 < (recvmsg args).ret → args.buf ≠ 0

variable {sameFile : BitVec 32 → BitVec 32 → Prop} {e : Enclave} {sent : SendmsgArgs} {received : List (BitVec 32)}
  {recvmsg : RecvmsgArgs → RecvmsgResult} {sockfd : Int} {buf count fds nfds : Nat}
  {p q : Process} {retval : Int} {nfds' : Nat}

theorem Delivers.length_le (delivers : Delivers sameFile sent received recvmsg) {args : RecvmsgArgs}
    (ok : 0 ≤ (recvmsg args).ret) : (recvmsg args).bytes.length ≤ args.count := by
  rw [delivers.bytes args ok, List.length_take]
  exact Nat.min_le_left ..

/-- `sizeof(int) * n` is more than `n`: the descriptors are not copied in. -/
theorem copiedIn_fds (msFds : Nat) (mem : Nat → BitVec 8) :
    copiedIn e fds nfds msFds (fdsSize nfds) mem = mem := by
  rw [copiedIn, fdsSize]
  split
  · rfl
  · next passed =>
    have none : nfds = 0 := by omega
    rw [none]
    exact store_nil

/-- The bytes of the message are, if the caller's buffer is in the enclave. -/
theorem copiedIn_bytes {addr : Nat} {bytes : List (BitVec 8)} {mem : Nat → BitVec 8}
    (within : sgxIsCompletelyWithinEnclave e buf count = true) (fits : bytes.length ≤ count)
    (outside : bytes.length ≠ 0 → sgxIsCompletelyOutsideEnclave e addr count = true) :
    copiedIn e buf count addr bytes.length (store mem addr bytes) =
      store (store mem addr bytes) buf bytes := by
  rw [copiedIn, bytesAt_store]
  split
  · next failed =>
    by_cases empty : bytes.length = 0
    · rw [List.eq_nil_of_length_eq_zero empty, store_nil, store_nil]
    · have outside := outside_iff.mp (outside empty)
      have within := within_iff.mp within
      rw [← Bool.not_eq_true, outside_iff, ← Bool.not_eq_true, within_iff] at failed
      omega
  · rfl

/-- What a call that succeeds leaves: the bytes of the message at `buf`, and the array of
    descriptors as it was. -/
theorem ocallSockRecvFd_leaves (delivers : Delivers sameFile sent received recvmsg)
    (withinBuf : sgxIsCompletelyWithinEnclave e buf count = true)
    (withinFds : sgxIsCompletelyWithinEnclave e fds (fdsSize nfds) = true)
    (apart : buf + count ≤ fds ∨ fds + fdsSize nfds ≤ buf)
    (run : ocallSockRecvFd e recvmsg sockfd buf count fds nfds p = ((retval, nfds'), q))
    (ok : 0 ≤ retval) :
    nfds' = nfds ∧ bytesAt q.mem fds (fdsSize nfds) = bytesAt p.mem fds (fdsSize nfds) ∧
      bytesAt q.mem buf retval.toNat = sent.bytes.take retval.toNat := by
  obtain ⟨msBuf, msFds, outside, rfl, rfl, mem⟩ := ocallSockRecvFd_success run ok
  have bytes := delivers.bytes _ ok
  have length : (recvmsg ⟨sockfd, msBuf, count, nfds'⟩).bytes.length ≤ count :=
    delivers.length_le ok
  have ret := delivers.ret _ ok
  have fault : 0 < (recvmsg ⟨sockfd, msBuf, count, nfds'⟩).ret → msBuf ≠ 0 := delivers.fault _
  generalize recvmsg ⟨sockfd, msBuf, count, nfds'⟩ = r at *
  have size : r.ret.toNat = r.bytes.length := by rw [ret, Int.toNat_natCast]
  have outside : r.bytes.length ≠ 0 → sgxIsCompletelyOutsideEnclave e msBuf count = true := by
    intro some
    exact outside (fault (by omega))
  rw [size, copiedIn_fds, copiedIn_bytes withinBuf length outside] at mem
  refine ⟨rfl, ?_, ?_⟩
  · rw [mem, bytesAt_store_of_apart (by omega)]
    by_cases empty : r.bytes.length = 0
    · rw [List.eq_nil_of_length_eq_zero empty, store_nil]
    · have := apart_of_checks withinFds (outside empty)
      rw [bytesAt_store_of_apart (by omega)]
  · have front : sent.bytes.take r.bytes.length = r.bytes := by
      rw [bytes, List.length_take, List.take_eq_take_iff]
      omega
    rw [mem, size, bytesAt_store, front]

/-- A message goes from one enclave to the other, whose array has room for all descriptors.  After
    a call that succeeds they are in it just if they were there before, as many as the array
    has room for. -/
theorem ocallSockRecvFd_passes_iff {e₀ : Enclave} {sockfd₀ : Int} {buf₀ count₀ fds₀ : Nat}
    {p₀ q₀ : Process} {message : List (BitVec 8)} {fdsSent : List (BitVec 32)}
    (hasMessage : bytesAt p₀.mem buf₀ count₀ = message)
    (hasFds : bytesAt p₀.mem fds₀ (fdsSize fdsSent.length) = fdBytes fdsSent)
    (inEnclave : sgxIsCompletelyWithinEnclave e₀ fds₀ (fdsSize fdsSent.length) = true)
    (sends : ocallSockSendFd e₀ sockfd₀ buf₀ count₀ fds₀ fdsSent.length p₀ = (some sent, q₀))
    (accepted : sent.buf = 0 → count₀ = 0) (delivers : Delivers sameFile sent received recvmsg)
    (withinBuf : sgxIsCompletelyWithinEnclave e buf count = true)
    (withinFds : sgxIsCompletelyWithinEnclave e fds (fdsSize nfds) = true)
    (apart : buf + count ≤ fds ∨ fds + fdsSize nfds ≤ buf) (room : fdsSent.length ≤ nfds)
    (run : ocallSockRecvFd e recvmsg sockfd buf count fds nfds p = ((retval, nfds'), q))
    (ok : 0 ≤ retval) :
    (nfds' = fdsSent.length ∧ bytesAt q.mem fds (fdsSize nfds') = fdBytes received ∧
        List.Forall₂ sameFile fdsSent received ∧
        bytesAt q.mem buf retval.toNat = message.take retval.toNat) ↔
      nfds ≤ fdsSent.length ∧ bytesAt p.mem fds (fdsSize nfds) = fdBytes received := by
  obtain ⟨bytes, rights⟩ := ocallSockSendFd_sends sends inEnclave accepted
  obtain ⟨rfl, array, arrived⟩ := ocallSockRecvFd_leaves delivers withinBuf withinFds apart run ok
  rw [bytes, hasMessage] at arrived
  constructor
  · rintro ⟨all, found, -⟩
    exact ⟨Nat.le_of_eq all, array.symm.trans found⟩
  · rintro ⟨full, there⟩
    exact ⟨Nat.le_antisymm full room, array.trans there,
      delivers.each fdsSent (rights.trans hasFds), arrived⟩

/-! ### A descriptor that does not arrive -/

section Example

/-- The enclave takes the addresses from `0x1000` to `0x2000`, the untrusted stack is above. -/
def enclaveAt : Enclave := { base := 0x1000, top := 0x2000, ustackTop := 0x8000 }

/-- The message "A" at `0x1000` and a word at `0x1100`. -/
def holding (word : BitVec 32) : Process where
  ustack := 0x8000
  mem := store (store (fun _ => 0) 0x1000 [65]) 0x1100 (fdBytes [word])

/-- The descriptor 5 arrives with what was sent. -/
def recvmsgFive (args : RecvmsgArgs) : RecvmsgResult :=
  if args.buf = 0 then ⟨-1, [], none⟩
  else ⟨([65].take args.count : List (BitVec 8)).length, [65].take args.count,
    if 1 ≤ args.room then some [5] else none⟩

def sentFive : SendmsgArgs := ⟨0, 0x7fd7, [65], fdBytes [5]⟩

theorem sendsFive : ocallSockSendFd enclaveAt 0 0x1000 1 0x1100 1 (holding 5) =
    (some sentFive, (ocallSockSendFd enclaveAt 0 0x1000 1 0x1100 1 (holding 5)).2) :=
  Prod.ext (by decide +kernel) rfl

theorem delivers_five : Delivers Eq sentFive [5] recvmsgFive where
  each fds same := by
    rw [← fdBytes_inj (show fdBytes [5] = fdBytes fds from same)]
    exact List.Forall₂.cons rfl List.Forall₂.nil
  bytes args ok := by
    rw [recvmsgFive] at ok ⊢
    split at ok
    · exact absurd ok (by decide)
    · next nonnull => rw [if_neg nonnull, sentFive]
  ret args ok := by
    rw [recvmsgFive] at ok ⊢
    split at ok
    · exact absurd ok (by decide)
    · next nonnull => rw [if_neg nonnull]
  rights args ok room := by
    rw [recvmsgFive] at ok ⊢
    split at ok
    · exact absurd ok (by decide)
    · next nonnull =>
      rw [if_neg nonnull]
      exact if_pos room
  fault args some null := by
    rw [recvmsgFive, if_pos null] at some
    exact absurd some (by decide)

/-- The call of a receiver whose array holds the word. -/
def receive (word : BitVec 32) : (Int × Nat) × Process :=
  ocallSockRecvFd enclaveAt recvmsgFive 0 0x1000 1 0x1100 1 (holding word)

/-- The receiver has the descriptor in its array already. -/
theorem ocallSockRecvFd_passes_there :
    (receive 5).1.2 = 1 ∧
      bytesAt (receive 5).2.mem 0x1100 (fdsSize (receive 5).1.2) = fdBytes [5] ∧
      List.Forall₂ Eq [(5 : BitVec 32)] [5] ∧
      bytesAt (receive 5).2.mem 0x1000 (receive 5).1.1.toNat =
        [65].take (receive 5).1.1.toNat := by
  have run : ocallSockRecvFd enclaveAt recvmsgFive 0 0x1000 1 0x1100 1 (holding 5) =
      (((receive 5).1.1, (receive 5).1.2), (receive 5).2) := by rw [← receive]
  have ok : 0 ≤ (receive 5).1.1 := by decide +kernel
  have message : bytesAt (holding 5).mem 0x1000 1 = [65] := by decide +kernel
  have array : bytesAt (holding 5).mem 0x1100 (fdsSize 1) = fdBytes [5] := by decide +kernel
  have withinBuf : sgxIsCompletelyWithinEnclave enclaveAt 0x1000 1 = true := by decide +kernel
  have withinFds : sgxIsCompletelyWithinEnclave enclaveAt 0x1100 (fdsSize 1) = true := by
    decide +kernel
  have passes := @ocallSockRecvFd_passes_iff Eq enclaveAt sentFive [5] recvmsgFive 0 0x1000 1
    0x1100 1 (holding 5) (receive 5).2 (receive 5).1.1 (receive 5).1.2 enclaveAt 0 0x1000 1 0x1100
    (holding 5) _ [65] [5] message array withinFds sendsFive (by decide) delivers_five withinBuf
    withinFds (by decide) (by decide) run ok
  exact passes.mpr ⟨by decide, array⟩

/-- The descriptor 5 is sent and the call of the receiver succeeds, but its array holds 0. -/
theorem ocallSockRecvFd_loses :
    (ocallSockSendFd enclaveAt 0 0x1000 1 0x1100 1 (holding 5)).1 = some sentFive ∧
      sentFive.rights = fdBytes [5] ∧ (receive 0).1 = (1, 1) ∧
      bytesAt (receive 0).2.mem 0x1100 (fdsSize 1) ≠ fdBytes [5] := by
  decide +kernel

end Example

end SandboxTEE.Xcall.PassFds
