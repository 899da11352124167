import SandboxTEE.Xcall.DataIn

/-! # When data may come in

For each wrapper, its trace and from it the exact condition under which a call is safe.  The
first part of every condition is that the `ms` structure lies outside: only `ocall_read` looks
whether there was room for it.
-/

namespace SandboxTEE.Xcall

open SandboxTEE.Lib (Traced)
open SandboxTEE.Lib.Traced (run_pure run_emit_bind run_bind_of run_bind_of_nil)

/-! ## The parts -/

def copyOk (e : Enclave) (ptr maxsize uptr usize : Nat) : Bool :=
  !(decide (usize > maxsize ∨ sgxIsCompletelyOutsideEnclave e uptr usize = false ∨
    sgxIsCompletelyWithinEnclave e ptr usize = false))

/-- The trace of `sgx_copy_to_enclave`. -/
def copied (e : Enclave) (ptr maxsize uptr usize : Nat) : List Event :=
  if copyOk e ptr maxsize uptr usize then [.copyIn ptr uptr usize] else []

theorem run_sgxCopyToEnclave (e : Enclave) (ptr maxsize uptr usize ustack : Nat) :
    (sgxCopyToEnclave e ptr maxsize uptr usize).run ustack =
      { result := copyOk e ptr maxsize uptr usize, state := ustack
        events := copied e ptr maxsize uptr usize } := by
  rw [copied, copyOk, sgxCopyToEnclave]
  by_cases h : usize > maxsize ∨ sgxIsCompletelyOutsideEnclave e uptr usize = false ∨
      sgxIsCompletelyWithinEnclave e ptr usize = false
  · rw [if_pos h, decide_eq_true h]
    rfl
  · rw [if_neg h, decide_eq_false h]
    rfl

/-- A wrapper that is silent here. -/
def Silent {α : Type} (m : Traced Nat Event α) (ustack : Nat) : Prop :=
  ∃ a ustack', m.run ustack = { result := a, state := ustack', events := [] }

theorem silent_alloc (e : Enclave) (size ustack : Nat) :
    Silent (sgxAllocOnUstack e size) ustack := ⟨_, _, rfl⟩

theorem silent_allocIf (e : Enclave) (p : Prop) [Decidable p] (size ptr ustack : Nat) :
    Silent (if p then sgxAllocOnUstack e size else pure ptr) ustack := by
  split
  · exact silent_alloc e size ustack
  · exact ⟨_, _, rfl⟩

theorem silent_allocUnless (e : Enclave) (p : Prop) [Decidable p] (size ptr ustack : Nat) :
    Silent (if p then pure ptr else sgxAllocOnUstack e size) ustack := by
  split
  · exact ⟨_, _, rfl⟩
  · exact silent_alloc e size ustack

variable {e : Enclave} {buffers : List Region}

/-- The length is limited to the room of a buffer. -/
theorem allSafe_copied {ptr maxsize uptr usize : Nat} {b : Region} (mem : b ∈ buffers)
    (addr : b.addr = ptr) (room : maxsize ≤ b.size) :
    AllSafe e buffers (copied e ptr maxsize uptr usize) := by
  rw [copied]
  split
  · next ok =>
    simp only [copyOk, Bool.not_eq_true', decide_eq_false_iff_not, not_or,
      Bool.not_eq_false] at ok
    obtain ⟨fits, outside, -⟩ := ok
    refine allSafe_cons.mpr ⟨⟨⟨b, mem, ?_⟩, outside_of_check outside⟩, allSafe_nil⟩
    exact ⟨Nat.le_of_eq addr, by omega⟩
  · exact allSafe_nil

/-- What is left on the untrusted stack is outside. -/
theorem run_sgxCopyToUstack (e : Enclave) (ptr size ustack : Nat) : ∃ uptr ustack' events,
    (sgxCopyToUstack e ptr size).run ustack =
      { result := uptr, state := ustack', events := events } ∧
    ∀ buffers, AllSafe e buffers events := by
  obtain ⟨ustack', alloc⟩ := run_sgxAllocOnUstackAligned e size 1 ustack
  rw [sgxCopyToUstack]
  split
  · exact ⟨0, ustack, [], rfl, fun _ => allSafe_nil⟩
  · rw [sgxAllocOnUstack, run_bind_of_nil alloc]
    by_cases null : allocated e ustack size 1 = 0
    · rw [if_neg (not_not_intro null)]
      exact ⟨_, ustack', [], rfl, fun _ => allSafe_nil⟩
    · rw [if_pos null]
      refine ⟨_, ustack', [.store _ size], rfl, fun _ => ?_⟩
      exact allSafe_cons.mpr ⟨.inl (allocated_outside null), allSafe_nil⟩

/-! ## Memory of the host -/

/-- What `ocall_alloc_untrusted` gives its caller. -/
def allocOutcome (e : Enclave) (size : Nat) (r : AllocReply) : Int × Nat :=
  if r.ret = 0 then
    if sgxIsCompletelyWithinEnclave e r.memChecked size then (-1, 0) else (0, r.mem)
  else (r.ret, 0)

theorem run_ocallAllocUntrusted (e : Enclave) (size : Nat) (r : AllocReply) (ustack : Nat) :
    (ocallAllocUntrusted e size r).run ustack =
      { result := allocOutcome e size r, state := ustack
        events := [.store (msAt e ustack msMemSize) msMemSize] } := by
  obtain ⟨ustack', ms⟩ := run_allocMs e msMemSize ustack
  rw [ocallAllocUntrusted, run_bind_of_nil (run_sgxPrepareUstack e ustack), run_bind_of_nil ms,
    run_emit_bind, allocOutcome]
  split_ifs <;> rfl

theorem run_ocallUnmapUntrusted (e : Enclave) (mem size : Nat) (ret : Int) (ustack : Nat) :
    ∃ ret', (ocallUnmapUntrusted e mem size ret).run ustack =
      { result := ret', state := ustack
        events := if sgxIsCompletelyWithinEnclave e mem size then []
          else [.store (msAt e ustack msMemSize) msMemSize] } := by
  obtain ⟨ustack', ms⟩ := run_allocMs e msMemSize ustack
  rw [ocallUnmapUntrusted, run_bind_of_nil (run_sgxPrepareUstack e ustack)]
  split
  · exact ⟨-1, rfl⟩
  · rw [run_bind_of_nil ms, run_emit_bind]
    exact ⟨ret, rfl⟩

/-- What the first part of a transfer gives. -/
def bounceOutcome (e : Enclave) (limit count : Nat) (r : AllocReply) : Int × Nat :=
  if count > limit then allocOutcome e (allocAlignup count) r else (0, 0)

theorem run_allocBounce (e : Enclave) (limit count : Nat) (r : AllocReply) (ustack : Nat) :
    (allocBounce e limit count r).run ustack =
      { result := bounceOutcome e limit count r, state := ustack
        events := if count > limit then [.store (msAt e ustack msMemSize) msMemSize] else [] } := by
  rw [allocBounce, bounceOutcome]
  split
  · exact run_ocallAllocUntrusted e _ r ustack
  · rfl

/-- The `ms` structure of the call that takes memory back is needed, and lies outside. -/
def UnmapOutside (e : Enclave) (ustack obuf count : Nat) : Prop :=
  obuf = 0 ∨ sgxIsCompletelyWithinEnclave e obuf (allocAlignup count) = true ∨
    MsOutside e ustack msMemSize

theorem run_unmapBounce (e : Enclave) (obuf count : Nat) (ret : Int) (ustack : Nat) : ∃ events,
    (unmapBounce e obuf count ret).run ustack =
      { result := (), state := ustack, events := events } ∧
    ∀ buffers, AllSafe e buffers events ↔ UnmapOutside e ustack obuf count := by
  rw [unmapBounce]
  by_cases null : obuf = 0
  · rw [if_neg (not_not_intro null)]
    exact ⟨[], rfl, fun _ => iff_of_true allSafe_nil (.inl null)⟩
  · obtain ⟨ret', unmap⟩ := run_ocallUnmapUntrusted e obuf (allocAlignup count) ret ustack
    rw [if_pos null, run_bind_of unmap]
    refine ⟨_, rfl, fun buffers => ?_⟩
    rw [run_pure, List.append_nil, UnmapOutside]
    by_cases inside : sgxIsCompletelyWithinEnclave e obuf (allocAlignup count) = true
    · rw [if_pos inside]
      exact iff_of_true allSafe_nil (.inr (.inl inside))
    · rw [if_neg inside, allSafe_cons, safe_storeMs_iff (by decide)]
      simp only [allSafe_nil, and_true, null, inside, false_or, Bool.false_eq_true]

/-! ## Files and directories -/

theorem run_ocallGetdents (e : Enclave) (dirp size : Nat) (r : GetdentsReply) (ustack : Nat) :
    (ocallGetdents e dirp size r).run ustack =
      { result := r.ret, state := ustack
        events := .store (msAt e ustack 24) 24 ::
          if r.ret > 0 then copied e dirp size r.dirp r.ret.toNat else [] } := by
  obtain ⟨_, ms⟩ := run_allocMs e 24 ustack
  rw [ocallGetdents, run_bind_of_nil (run_sgxPrepareUstack e ustack), run_bind_of_nil ms,
    run_emit_bind]
  obtain ⟨_, _, alloc⟩ := silent_alloc e size _
  rw [run_bind_of_nil alloc]
  split
  · rw [run_bind_of (run_sgxCopyToEnclave ..), run_bind_of_nil (run_sgxResetUstack ..), run_pure,
      List.append_nil]
  · rw [run_bind_of_nil (run_pure ..), run_bind_of_nil (run_sgxResetUstack ..), run_pure]

theorem run_ocallGetcwd (e : Enclave) (pathname size : Nat) (r : GetcwdReply) (ustack : Nat) :
    (ocallGetcwd e pathname size r).run ustack =
      { result := r.ret, state := ustack
        events := .store (msAt e ustack 24) 24 ::
          if r.ret ≥ 0 ∧ r.pathChecked ≠ 0 ∧ r.pathlenChecked ≠ 0 then
            copied e pathname size r.path ((r.pathlen + 1) % 2 ^ 64)
          else [] } := by
  obtain ⟨_, ms⟩ := run_allocMs e 24 ustack
  rw [ocallGetcwd, run_bind_of_nil (run_sgxPrepareUstack e ustack), run_bind_of_nil ms,
    run_emit_bind]
  split
  · rw [run_bind_of (run_sgxCopyToEnclave ..), run_bind_of_nil (run_sgxResetUstack ..), run_pure,
      List.append_nil]
  · rw [run_bind_of_nil (run_pure ..), run_bind_of_nil (run_sgxResetUstack ..), run_pure]

theorem allSafe_bounce {limit count ustack : Nat} : AllSafe e buffers
        (if count > limit then [.store (msAt e ustack msMemSize) msMemSize] else []) ↔
      (count > limit → MsOutside e ustack msMemSize) := by
  split
  · next large =>
    rw [allSafe_cons, safe_storeMs_iff (by decide)]
    simp only [allSafe_nil, and_true, large, true_imp_iff]
  · next small => exact iff_of_true allSafe_nil fun large => absurd large small

theorem run_readBeforeOut {buf : Region} (mem : buf ∈ buffers) {ms : Nat} (obuf : Nat)
    (r : TransferReply) (outside : ms ≠ 0 → e.Outside ms 24) (ustack : Nat) :
    ∃ ret ustack' events, (readBeforeOut e buf.addr buf.size ms obuf r).run ustack =
        { result := ret, state := ustack', events := events } ∧
      ret ≤ (buf.size : Int) ∧ AllSafe e buffers events := by
  rw [readBeforeOut]
  by_cases null : ms = 0
  · rw [if_pos null]
    exact ⟨-1, ustack, [], rfl, by omega, allSafe_nil⟩
  · have here : (Event.store ms 24).Safe e buffers := .inl (outside null)
    obtain ⟨_, ustack', alloc⟩ := silent_allocUnless e (obuf ≠ 0) buf.size obuf ustack
    rw [if_neg null, run_emit_bind, run_bind_of_nil alloc]
    split_ifs with some more
    · exact ⟨-1, ustack', _, rfl, by omega, allSafe_cons.mpr ⟨here, allSafe_nil⟩⟩
    · rw [run_bind_of (run_sgxCopyToEnclave ..)]
      refine ⟨_, ustack', _, rfl, ?_, ?_⟩
      · dsimp only [run_pure]
        split <;> omega
      · rw [run_pure, List.append_nil]
        exact allSafe_cons.mpr ⟨here, allSafe_copied mem rfl (Nat.le_refl _)⟩
    · exact ⟨r.ret, ustack', _, rfl, by omega, allSafe_cons.mpr ⟨here, allSafe_nil⟩⟩

theorem ocallRead_safe_iff (e : Enclave) (ustack : Nat) (buf : Region) (r : TransferReply) :
    (DataIn.read buf r).Safe e ustack ↔
      (buf.size > maxUntrustedStackBuf → MsOutside e (prepared e ustack) msMemSize) ∧
      ((bounceOutcome e maxUntrustedStackBuf buf.size r.alloc).1 < 0 ∨
        UnmapOutside e ustack (bounceOutcome e maxUntrustedStackBuf buf.size r.alloc).2 buf.size) := by
  have bounce := run_allocBounce e maxUntrustedStackBuf buf.size r.alloc (prepared e ustack)
  generalize bounceOutcome e maxUntrustedStackBuf buf.size r.alloc = out at *
  have mem : buf ∈ (DataIn.read buf r).buffers := List.mem_singleton.mpr rfl
  rw [DataIn.Safe, DataIn.run, ocallRead, run_bind_of_nil (run_sgxPrepareUstack e ustack),
    run_bind_of bounce]
  simp only [DataIn.requested, Option.mem_some_iff, forall_eq', allSafe_append, allSafe_bounce]
  by_cases failed : out.1 < 0
  · rw [if_pos failed]
    simp only [run_pure, allSafe_nil, and_true, failed, true_or]
    exact and_iff_left (by omega)
  · obtain ⟨ustack', ms⟩ := run_allocMs e 24 ustack
    have room : msAt e ustack 24 ≠ 0 → e.Outside (msAt e ustack 24) 24 := allocated_outside
    obtain ⟨ret, _, events, body, small, isSafe⟩ := run_readBeforeOut mem out.2 r room ustack'
    obtain ⟨events', unmap, unmapSafe⟩ := run_unmapBounce e out.2 buf.size r.unmap ustack
    rw [if_neg failed, run_bind_of_nil ms, run_bind_of body, run_bind_of_nil (run_sgxResetUstack ..),
      run_bind_of unmap]
    simp only [run_pure, List.append_nil, allSafe_append, isSafe, true_and, unmapSafe, failed,
      false_or, small, and_true]

theorem ocallPread64_safe_iff (e : Enclave) (ustack : Nat) (buf : Region) (r : TransferReply) :
    (DataIn.pread64 buf r).Safe e ustack ↔
      (buf.size > 4096 → MsOutside e (prepared e ustack) msMemSize) ∧
      ((bounceOutcome e 4096 buf.size r.alloc).1 < 0 ∨ MsOutside e ustack 32 ∧
        (r.ret ≤ 0 ∨ r.ret ≤ (buf.size : Int) ∧ e.Outside r.buf r.ret.toNat) ∧
        UnmapOutside e ustack (bounceOutcome e 4096 buf.size r.alloc).2 buf.size) := by
  have bounce := run_allocBounce e 4096 buf.size r.alloc (prepared e ustack)
  generalize bounceOutcome e 4096 buf.size r.alloc = out at *
  rw [DataIn.Safe, DataIn.run, ocallPread64, run_bind_of_nil (run_sgxPrepareUstack e ustack),
    run_bind_of bounce]
  simp only [DataIn.requested, Option.mem_some_iff, forall_eq', allSafe_append, allSafe_bounce]
  by_cases failed : out.1 < 0
  · rw [if_pos failed]
    simp only [run_pure, allSafe_nil, and_true, failed, true_or]
    exact and_iff_left (by omega)
  · obtain ⟨_, ms⟩ := run_allocMs e 32 ustack
    obtain ⟨_, _, alloc⟩ := silent_allocUnless e (out.2 ≠ 0) buf.size out.2 _
    obtain ⟨events, unmap, unmapSafe⟩ := run_unmapBounce e out.2 buf.size r.unmap ustack
    rw [if_neg failed, run_bind_of_nil ms, run_emit_bind, run_bind_of_nil alloc]
    by_cases some : r.ret > 0
    · rw [if_pos some, run_emit_bind, run_bind_of_nil (run_sgxResetUstack ..), run_bind_of unmap]
      have copy : (Event.copyIn buf.addr r.buf r.ret.toNat).Safe e [buf] ↔
          r.ret.toNat ≤ buf.size ∧ e.Outside r.buf r.ret.toNat := by
        simp [Event.Safe, Region.Covers]
      simp only [run_pure, List.append_nil, allSafe_cons, safe_storeMs_iff (show 0 < 32 by decide),
        unmapSafe, failed, false_or, DataIn.buffers, copy, Int.not_le.mpr some]
      constructor
      · rintro ⟨⟨first, ms, ⟨fits, outside⟩, last⟩, count⟩
        exact ⟨first, ms, ⟨count, outside⟩, last⟩
      · rintro ⟨first, ms, ⟨count, outside⟩, last⟩
        exact ⟨⟨first, ms, ⟨by omega, outside⟩, last⟩, count⟩
    · rw [if_neg some, run_bind_of_nil (run_pure ..), run_bind_of_nil (run_sgxResetUstack ..),
        run_bind_of unmap]
      simp only [run_pure, List.append_nil, allSafe_cons, safe_storeMs_iff (show 0 < 32 by decide),
        unmapSafe, failed, false_or, Int.not_lt.mp some, true_or, true_and]
      have count : r.ret ≤ (buf.size : Int) := by omega
      simp only [count, and_true]

theorem ocallGetdents_safe_iff (e : Enclave) (ustack : Nat) (dirp : Region) (r : GetdentsReply) :
    (DataIn.getdents dirp r).Safe e ustack ↔ MsOutside e ustack 24 ∧ r.ret ≤ (dirp.size : Int) := by
  have copy : AllSafe e (DataIn.getdents dirp r).buffers
      (if r.ret > 0 then copied e dirp.addr dirp.size r.dirp r.ret.toNat else []) := by
    split
    · exact allSafe_copied (List.mem_singleton.mpr rfl) rfl (Nat.le_refl _)
    · exact allSafe_nil
  rw [DataIn.Safe, DataIn.run, run_ocallGetdents]
  simp only [DataIn.requested, Option.mem_some_iff, forall_eq', allSafe_cons, copy, and_true,
    safe_storeMs_iff (show 0 < 24 by decide)]

theorem ocallGetcwd_safe_iff (e : Enclave) (ustack : Nat) (pathname : Region) (r : GetcwdReply) :
    (DataIn.getcwd pathname r).Safe e ustack ↔ MsOutside e ustack 24 := by
  have copy : AllSafe e (DataIn.getcwd pathname r).buffers
      (if r.ret ≥ 0 ∧ r.pathChecked ≠ 0 ∧ r.pathlenChecked ≠ 0 then
        copied e pathname.addr pathname.size r.path ((r.pathlen + 1) % 2 ^ 64) else []) := by
    split
    · exact allSafe_copied (List.mem_singleton.mpr rfl) rfl (Nat.le_refl _)
    · exact allSafe_nil
  rw [DataIn.Safe, DataIn.run, run_ocallGetcwd]
  simp only [DataIn.requested, Option.mem_def, reduceCtorEq, false_imp_iff, implies_true, and_true,
    allSafe_cons, copy, safe_storeMs_iff (show 0 < 24 by decide)]

/-! ## Sockets -/

/-- The address goes to the caller's place for it, its length to the place for the length. -/
theorem run_copyPeer (e : Enclave) (addr : Nat) (r : PeerReply) (addrlen : Option OutParam)
    (ustack : Nat) : ∃ events, (copyPeer e addr r addrlen).run ustack =
        { result := (), state := ustack, events := events } ∧
      ∀ buffers, .ofPtr addr (lenOf addrlen) ∈ buffers →
        (∀ p ∈ addrlen, p.region ∈ buffers) → AllSafe e buffers events := by
  cases addrlen with
  | none => exact ⟨[], rfl, fun _ _ _ => allSafe_nil⟩
  | some p =>
    rw [copyPeer]
    by_cases null : addr = 0
    · rw [if_neg (not_not_intro null)]
      exact ⟨[], rfl, fun _ _ _ => allSafe_nil⟩
    · rw [if_pos null, run_bind_of (run_sgxCopyToEnclave ..)]
      refine ⟨_, rfl, fun buffers peer len => allSafe_append.mpr ⟨?_, ?_⟩⟩
      · exact allSafe_copied peer rfl (Nat.le_of_eq (if_neg null).symm)
      · refine allSafe_cons.mpr ⟨.inr ⟨p.region, len p rfl, Nat.le_refl _, Nat.le_refl _⟩, ?_⟩
        exact allSafe_nil

theorem ocallSockAccept_safe_iff (e : Enclave) (ustack addr : Nat) (addrlen : Option OutParam)
    (r : PeerReply) : (DataIn.sockAccept addr addrlen r).Safe e ustack ↔ MsOutside e ustack 24 := by
  obtain ⟨_, ms⟩ := run_allocMs e 24 ustack
  obtain ⟨_, _, events, toUstack, outside⟩ := run_sgxCopyToUstack e addr (lenOf addrlen) _
  rw [DataIn.Safe, DataIn.run, ocallSockAccept, run_bind_of_nil (run_sgxPrepareUstack e ustack),
    run_bind_of_nil ms, run_emit_bind, run_bind_of toUstack]
  simp only [DataIn.requested, Option.mem_def, reduceCtorEq, false_imp_iff, implies_true, and_true,
    allSafe_cons, allSafe_append, outside, true_and, safe_storeMs_iff (show 0 < 24 by decide)]
  refine and_iff_left ?_
  split_ifs
  · exact allSafe_nil
  · obtain ⟨events', peer, isSafe⟩ := run_copyPeer e addr r addrlen _
    rw [run_bind_of peer, run_bind_of_nil (run_sgxResetUstack ..), run_pure, List.append_nil]
    exact isSafe _ List.mem_cons_self fun p some => by simp [DataIn.buffers, Option.mem_def.mp some]
  · exact allSafe_nil

theorem ocallSockRecv_safe_iff (e : Enclave) (ustack : Nat) (buf : Region) (addr : Nat)
    (addrlen : Option OutParam) (r : PeerReply) :
    (DataIn.sockRecv buf addr addrlen r).Safe e ustack ↔
      MsOutside e ustack 40 ∧ (r.rejected e (lenOf addrlen) ∨ r.ret ≤ (buf.size : Int)) := by
  obtain ⟨_, ms⟩ := run_allocMs e 40 ustack
  obtain ⟨_, _, first⟩ := silent_alloc e buf.size _
  obtain ⟨_, _, second⟩ := silent_allocIf e (addr ≠ 0) (lenOf addrlen) 0 _
  rw [DataIn.Safe, DataIn.run, ocallSockRecv, run_bind_of_nil (run_sgxPrepareUstack e ustack),
    run_bind_of_nil ms, run_emit_bind, run_bind_of_nil first, run_bind_of_nil second]
  simp only [DataIn.requested, Option.mem_some_iff, forall_eq', allSafe_cons, and_assoc,
    safe_storeMs_iff (show 0 < 40 by decide)]
  refine and_congr_right fun _ => ?_
  split_ifs with ok rejected
  · rw [run_bind_of_nil (run_sgxResetUstack ..), run_pure]
    exact iff_of_true ⟨allSafe_nil, by dsimp only; omega⟩ (.inl rejected)
  · obtain ⟨events, peer, isSafe⟩ := run_copyPeer e addr r addrlen _
    rw [run_bind_of (run_sgxCopyToEnclave ..), run_bind_of peer,
      run_bind_of_nil (run_sgxResetUstack ..), run_pure, List.append_nil]
    simp only [allSafe_append, rejected, false_or]
    refine and_iff_right ⟨allSafe_copied List.mem_cons_self rfl (Nat.le_refl _), ?_⟩
    exact isSafe _ (by simp [DataIn.buffers]) fun p some => by
      simp [DataIn.buffers, Option.mem_def.mp some]
  · rw [run_bind_of_nil (run_sgxResetUstack ..), run_pure]
    exact iff_of_true ⟨allSafe_nil, by dsimp only; omega⟩ (.inr (by omega))

theorem ocallSockRecvFd_safe_iff (e : Enclave) (ustack : Nat) (buf : Region) (fds : Nat)
    (nfds : OutParam) (null : fds = 0 → nfds.value = 0) (r : FdsReply) :
    (DataIn.sockRecvFd buf fds nfds null r).Safe e ustack ↔
      MsOutside e ustack 40 ∧ (r.rejected e nfds.value ∨ r.ret ≤ (buf.size : Int)) := by
  obtain ⟨_, ms⟩ := run_allocMs e 40 ustack
  obtain ⟨_, _, first⟩ := silent_alloc e buf.size _
  obtain ⟨_, _, second⟩ := silent_allocIf e (fds ≠ 0) (4 * nfds.value) 0 _
  rw [DataIn.Safe, DataIn.run, ocallSockRecvFd, run_bind_of_nil (run_sgxPrepareUstack e ustack),
    run_bind_of_nil ms, run_emit_bind, run_bind_of_nil first, run_bind_of_nil second]
  simp only [DataIn.requested, Option.mem_some_iff, forall_eq', allSafe_cons, and_assoc,
    safe_storeMs_iff (show 0 < 40 by decide)]
  refine and_congr_right fun _ => ?_
  split_ifs with ok rejected
  · rw [run_bind_of_nil (run_sgxResetUstack ..), run_pure]
    exact iff_of_true ⟨allSafe_nil, by dsimp only; omega⟩ (.inl rejected)
  · have room : nfds.value ≤ (Region.ofPtr fds (4 * nfds.value)).size := by
      rw [Region.ofPtr]
      dsimp only
      split
      · next h => exact Nat.le_of_eq (null h)
      · omega
    rw [run_bind_of (run_sgxCopyToEnclave ..), run_bind_of (run_sgxCopyToEnclave ..), run_emit_bind,
      run_bind_of_nil (run_sgxResetUstack ..), run_pure]
    simp only [allSafe_append, allSafe_cons, rejected, false_or]
    refine and_iff_right ⟨?_, ?_, ?_, allSafe_nil⟩
    · exact allSafe_copied List.mem_cons_self rfl (Nat.le_refl _)
    · exact allSafe_copied (by simp [DataIn.buffers]) rfl room
    · exact .inr ⟨nfds.region, by simp [DataIn.buffers], Nat.le_refl _, Nat.le_refl _⟩
  · rw [run_bind_of_nil (run_sgxResetUstack ..), run_pure]
    exact iff_of_true ⟨allSafe_nil, by dsimp only; omega⟩ (.inr (by omega))

/-! ## Remote attestation -/

/-- The caller's two objects do not make up for one another. -/
theorem QuoteArgs.safe_copy_iff (args : QuoteArgs) (r : QuoteReply) :
    AllSafe e (DataIn.remoteAttestation args r).buffers
        (copied e args.quote.addr r.quoteSize r.quote r.quoteSize) ↔ r.quoteSize ≤ args.quote.size ∨
        sgxIsCompletelyOutsideEnclave e r.quote r.quoteSize = false ∨
        sgxIsCompletelyWithinEnclave e args.quote.addr r.quoteSize = false := by
  by_cases fits : r.quoteSize ≤ args.quote.size
  · exact iff_of_true (allSafe_copied List.mem_cons_self rfl fits) (.inl fits)
  rw [copied, copyOk]
  by_cases failed : sgxIsCompletelyOutsideEnclave e r.quote r.quoteSize = false ∨
      sgxIsCompletelyWithinEnclave e args.quote.addr r.quoteSize = false
  · refine iff_of_true ?_ (.inr failed)
    rw [decide_eq_true (Or.inr failed)]
    exact allSafe_nil
  · refine iff_of_false (fun isSafe => ?_) (not_or.mpr ⟨fits, failed⟩)
    rw [decide_eq_false (not_or.mpr ⟨Nat.lt_irrefl _, failed⟩)] at isSafe
    obtain ⟨⟨b, mem, lower, upper⟩, -⟩ := (allSafe_cons.mp isSafe).1
    simp only [DataIn.buffers, List.mem_cons, List.not_mem_nil, or_false] at mem
    have room := args.room
    have apart := args.apart
    rcases mem with rfl | rfl
    · omega
    · dsimp only at lower upper
      omega

theorem ocallRemoteAttestation_safe_iff (e : Enclave) (ustack : Nat) (args : QuoteArgs)
    (r : QuoteReply) : (DataIn.remoteAttestation args r).Safe e ustack ↔ MsOutside e ustack 56 ∧
      (r.quoteSize ≤ args.quote.size ∨ sgxIsCompletelyOutsideEnclave e r.quote r.quoteSize = false ∨
        sgxIsCompletelyWithinEnclave e args.quote.addr r.quoteSize = false) := by
  obtain ⟨ustack', ms⟩ := run_allocMs e 56 ustack
  obtain ⟨_, _, events, toUstack, outside⟩ := run_sgxCopyToUstack e args.report reportSize ustack'
  have size : (Event.store args.quoteSize 4).Safe e (DataIn.remoteAttestation args r).buffers :=
    .inr ⟨_, List.mem_cons_of_mem _ List.mem_cons_self, Nat.le_refl _, Nat.le_refl _⟩
  rw [DataIn.Safe, DataIn.run, ocallRemoteAttestation,
    run_bind_of_nil (run_sgxPrepareUstack e ustack), run_bind_of_nil ms, run_emit_bind,
    run_bind_of toUstack, run_emit_bind, run_bind_of (run_sgxCopyToEnclave ..),
    run_bind_of_nil (run_sgxResetUstack ..), run_pure, List.append_nil]
  simp only [DataIn.requested, Option.mem_def, reduceCtorEq, false_imp_iff, implies_true, and_true,
    allSafe_cons, allSafe_append, outside, size, true_and, args.safe_copy_iff,
    safe_storeMs_iff (show 0 < 56 by decide)]

/-! ## Every wrapper -/

/-- What the host has to leave alone, wrapper by wrapper. -/
def DataIn.Tame (e : Enclave) (ustack : Nat) : DataIn → Prop
  | read buf r =>
    (buf.size > maxUntrustedStackBuf → MsOutside e (prepared e ustack) msMemSize) ∧
    ((bounceOutcome e maxUntrustedStackBuf buf.size r.alloc).1 < 0 ∨
      UnmapOutside e ustack (bounceOutcome e maxUntrustedStackBuf buf.size r.alloc).2 buf.size)
  | pread64 buf r =>
    (buf.size > 4096 → MsOutside e (prepared e ustack) msMemSize) ∧
    ((bounceOutcome e 4096 buf.size r.alloc).1 < 0 ∨
      MsOutside e ustack 32 ∧
      (r.ret ≤ 0 ∨ r.ret ≤ (buf.size : Int) ∧ e.Outside r.buf r.ret.toNat) ∧
      UnmapOutside e ustack (bounceOutcome e 4096 buf.size r.alloc).2 buf.size)
  | getdents dirp r => MsOutside e ustack 24 ∧ r.ret ≤ (dirp.size : Int)
  | getcwd .. | sockAccept .. => MsOutside e ustack 24
  | sockRecv buf _ addrlen r =>
    MsOutside e ustack 40 ∧ (r.rejected e (lenOf addrlen) ∨ r.ret ≤ (buf.size : Int))
  | sockRecvFd buf _ nfds _ r =>
    MsOutside e ustack 40 ∧ (r.rejected e nfds.value ∨ r.ret ≤ (buf.size : Int))
  | remoteAttestation args r =>
    MsOutside e ustack 56 ∧
    (r.quoteSize ≤ args.quote.size ∨
      sgxIsCompletelyOutsideEnclave e r.quote r.quoteSize = false ∨
      sgxIsCompletelyWithinEnclave e args.quote.addr r.quoteSize = false)

/-- Against every host, the wrappers are safe exactly under these conditions. -/
theorem dataIn_safe_iff (e : Enclave) (ustack : Nat) (call : DataIn) :
    call.Safe e ustack ↔ call.Tame e ustack := by
  cases call with
  | read buf r => exact ocallRead_safe_iff e ustack buf r
  | pread64 buf r => exact ocallPread64_safe_iff e ustack buf r
  | getdents dirp r => exact ocallGetdents_safe_iff e ustack dirp r
  | getcwd pathname r => exact ocallGetcwd_safe_iff e ustack pathname r
  | sockAccept addr addrlen r => exact ocallSockAccept_safe_iff e ustack addr addrlen r
  | sockRecv buf addr addrlen r => exact ocallSockRecv_safe_iff e ustack buf addr addrlen r
  | sockRecvFd buf fds nfds null r => exact ocallSockRecvFd_safe_iff e ustack buf fds nfds null r
  | remoteAttestation args r => exact ocallRemoteAttestation_safe_iff e ustack args r

/-- The enclave lies at address zero and has 64 GB; the untrusted stack is far above it. -/
def sampleEnclave : Enclave :=
  { base := 0, top := 2 ^ 36, ustackTop := 0x7ffd00000000 }

/-- The caller's buffer has eight bytes; the host says that it read, received or listed sixteen,
    and makes the quote larger than the place for it. -/
theorem dataIn_overruns :
    ¬ (DataIn.pread64 ⟨0xc20000000, 8, by decide⟩
        ⟨⟨0, 0, 0⟩, 16, 0x7ffd00001000, 0⟩).Safe sampleEnclave 0x7ffd00000000 ∧
    ¬ (DataIn.remoteAttestation
        ⟨⟨0xc20000000, 8, by decide⟩, 0xc20001000, 0xc20002000, by decide, by decide, by decide⟩
        ⟨0, 16, 0x7ffd00001000⟩).Safe sampleEnclave 0x7ffd00000000 ∧
    ¬ (DataIn.getdents ⟨0xc20000000, 8, by decide⟩
        ⟨16, 0x7ffd00001000⟩).Safe sampleEnclave 0x7ffd00000000 ∧
    ¬ (DataIn.sockRecv ⟨0xc20000000, 8, by decide⟩ 0 none
        ⟨16, 0x7ffd00001000, 0, 0, 0, 0⟩).Safe sampleEnclave 0x7ffd00000000 := by
  refine ⟨fun safe => absurd safe.1 ?_, fun safe => absurd safe.1 ?_,
    fun safe => absurd (safe.2 8 rfl) ?_, fun safe => absurd (safe.2 8 rfl) ?_⟩
  all_goals decide +kernel

end SandboxTEE.Xcall
