import SandboxTEE.Xcall.HostBuffers

/-! # When the host's ranges are safe

What goes wrong is that the host's range may lie partly within the enclave, may wrap, or may be
another range when it is read for the second time.
-/

namespace SandboxTEE.Xcall.Frames

open SandboxTEE.Lib (Traced)
open SandboxTEE.Lib.Traced (emit run_bind result_mapEvents)

/-! ## What copies do at the host's side -/

/-- A copy does not touch the enclave at the host's side. -/
def Access.HostOutside (e : Enclave) : Access → Prop
  | copyIn _ src size => e.Outside src size
  | copyOut dst _ size => e.Outside dst size
  | enter | alloc .. | leave | ms .. | store .. | ocall .. => True

def AllHostOutside (e : Enclave) (events : List Access) : Prop :=
  ∀ ev ∈ events, ev.HostOutside e

/-- Whatever the pointer of the untrusted stack is. -/
def Harmless (e : Enclave) {α : Type} (m : Framed α) : Prop :=
  ∀ ustack, AllHostOutside e (m.run ustack).events

variable {α β : Type} {e : Enclave}

theorem allHostOutside_nil : AllHostOutside e [] := fun _ mem => nomatch mem

theorem allHostOutside_singleton {ev : Access} : AllHostOutside e [ev] ↔ ev.HostOutside e :=
  List.forall_mem_singleton

theorem allHostOutside_append {events events' : List Access} :
    AllHostOutside e (events ++ events') ↔ AllHostOutside e events ∧ AllHostOutside e events' :=
  List.forall_mem_append

theorem harmless_pure (a : α) : Harmless e (pure a) := fun _ => allHostOutside_nil

theorem harmless_emit (ev : Access) (h : ev.HostOutside e) : Harmless e (emit ev) :=
  fun _ => allHostOutside_singleton.mpr h

variable {m : Framed α} {f : α → Framed β}

theorem harmless_bind (first : Harmless e m) (rest : ∀ a, Harmless e (f a)) :
    Harmless e (m >>= f) := fun ustack => by
  rw [run_bind]
  exact allHostOutside_append.mpr ⟨first ustack, rest _ _⟩

theorem harmless_ite {p : Prop} [Decidable p] {m' : Framed α} (h : p → Harmless e m)
    (h' : ¬ p → Harmless e m') : Harmless e (if p then m else m') := by
  split
  · next yes => exact h yes
  · next no => exact h' no

theorem allHostOutside_bind (first : Harmless e m) (ustack : Nat) :
    AllHostOutside e ((m >>= f).run ustack).events ↔
      AllHostOutside e ((f (m.run ustack).result).run (m.run ustack).state).events := by
  rw [run_bind, allHostOutside_append, and_iff_right (first ustack)]

theorem harmless_prepare : Harmless e (sgxPrepareUstack e) :=
  fun _ => allHostOutside_singleton.mpr trivial

theorem harmless_reset (old : Nat) : Harmless e (sgxResetUstack old) :=
  fun _ => allHostOutside_singleton.mpr trivial

theorem harmless_alloc (size alignment : Nat) :
    Harmless e (sgxAllocOnUstackAligned e size alignment) := fun ustack => by
  rw [Traced.run, sgxAllocOnUstackAligned]
  split
  · exact allHostOutside_nil
  · exact allHostOutside_singleton.mpr trivial

variable {size : Nat}

/-- What is taken from the untrusted stack is NULL or outside. -/
theorem outside_of_alloc {alignment ustack : Nat}
    (h : ((sgxAllocOnUstackAligned e size alignment).run ustack).result ≠ 0) :
    e.Outside ((sgxAllocOnUstackAligned e size alignment).run ustack).result size := by
  rw [Traced.run, sgxAllocOnUstackAligned] at h ⊢
  split at h
  · exact absurd rfl h
  · next outside =>
    rw [if_neg outside]
    exact outside_of_check (eq_true_of_ne_false outside)

theorem harmless_copyToUstack (ptr size : Nat) : Harmless e (sgxCopyToUstack e ptr size) := by
  rw [sgxCopyToUstack]
  refine harmless_ite (fun _ => harmless_pure 0) fun _ ustack => ?_
  rw [sgxAllocOnUstack, allHostOutside_bind (harmless_alloc size 1)]
  split
  · next some =>
    exact harmless_bind (harmless_emit (.copyOut _ ptr size) (outside_of_alloc some)) (fun _ => harmless_pure _) _
  · exact allHostOutside_nil

theorem harmless_copyToEnclave (ptr maxsize uptr usize : Nat) :
    Harmless e (sgxCopyToEnclave e ptr maxsize uptr usize) := by
  rw [sgxCopyToEnclave]
  refine harmless_ite (fun _ => harmless_pure false) fun ok => ?_
  rw [not_or, not_or, Bool.not_eq_false, Bool.not_eq_false] at ok
  exact harmless_bind (harmless_emit (.copyIn ptr uptr usize) (outside_of_check ok.2.1)) fun _ => harmless_pure true

/-! ## Memory of the host -/

theorem harmless_acceptMem (oldUstack size : Nat) (r : AllocReply) :
    Harmless e (acceptMem e oldUstack size r) := by
  have done (out : Int × Nat) : Harmless e (do sgxResetUstack oldUstack; pure out) :=
    harmless_bind (harmless_reset oldUstack) fun _ => harmless_pure out
  exact harmless_ite (fun _ => harmless_ite (fun _ => done _) fun _ => done _) fun _ => done _

theorem harmless_ocallAllocUntrusted (size : Nat) (r : AllocReply) :
    Harmless e (ocallAllocUntrusted e size r) :=
  harmless_bind harmless_prepare fun _ => harmless_bind (harmless_alloc _ _) fun _ =>
    harmless_bind (harmless_emit _ trivial) fun _ => harmless_bind (harmless_emit _ trivial) fun _ =>
      harmless_acceptMem _ _ _

theorem harmless_ocallUnmapUntrusted (mem size : Nat) (ret : Int) :
    Harmless e (ocallUnmapUntrusted e mem size ret) := by
  refine harmless_bind harmless_prepare fun old => harmless_ite (fun _ => ?_) fun _ => ?_
  · exact harmless_bind (harmless_reset old) fun _ => harmless_pure _
  · refine harmless_bind (harmless_alloc _ _) fun ms => harmless_bind (harmless_emit _ trivial) ?_
    refine fun _ => harmless_bind (harmless_emit _ trivial) fun _ => ?_
    exact harmless_bind (harmless_reset old) fun _ => harmless_pure _

theorem harmless_allocBounce (limit count : Nat) (r : AllocReply) :
    Harmless e (allocBounce e limit count r) :=
  harmless_ite (fun _ => harmless_ocallAllocUntrusted _ _) fun _ => harmless_pure _

theorem harmless_unmapBounce (obuf count : Nat) (ret : Int) :
    Harmless e (unmapBounce e obuf count ret) :=
  harmless_ite
    (fun _ => harmless_bind (harmless_ocallUnmapUntrusted _ _ _) fun _ => harmless_pure _)
    fun _ => harmless_pure _

/-- The results are those of the plain wrappers. -/
theorem result_allocBounce (limit count ustack : Nat) (r : AllocReply) :
    ((allocBounce e limit count r).run ustack).result = bounceOutcome e limit count r := by
  rw [← result_mapEvents Access.forget, forget_allocBounce, run_allocBounce]

/-- The host's call succeeds, and the first read of the pointer is not rejected. -/
def Accepted (e : Enclave) (size : Nat) (r : AllocReply) : Prop :=
  r.ret = 0 ∧ sgxIsCompletelyWithinEnclave e r.memChecked size = false

instance (e : Enclave) (size : Nat) (r : AllocReply) : Decidable (Accepted e size r) :=
  inferInstanceAs (Decidable (_ ∧ _))

/-- The range wraps, or begins before the end of the enclave and ends behind its beginning. -/
def Crosses (e : Enclave) (addr size : Nat) : Prop :=
  uintptrMax < addr + size ∨ e.base < addr + size ∧ addr < e.top

instance (e : Enclave) (addr size : Nat) : Decidable (Crosses e addr size) :=
  inferInstanceAs (Decidable (_ ∨ _))

theorem completelyOutside_iff_not_crosses {addr : Nat} :
    CompletelyOutside e addr size ↔ ¬ Crosses e addr size := by
  rw [CompletelyOutside, Crosses]
  omega

theorem result_ocallAllocUntrusted (size ustack : Nat) (r : AllocReply) :
    ((ocallAllocUntrusted e size r).run ustack).result = allocOutcome e size r := by
  rw [← result_mapEvents Access.forget, forget_ocallAllocUntrusted, run_ocallAllocUntrusted]

theorem result_acceptMem (oldUstack size ustack : Nat) (r : AllocReply) :
    ((acceptMem e oldUstack size r).run ustack).result = allocOutcome e size r := by
  rw [acceptMem, allocOutcome]
  split
  · split
    · rfl
    · rfl
  · rfl

theorem result_ocallMmapUntrusted (fd : Int) (offset size prot ustack : Nat) (r : AllocReply) :
    ((ocallMmapUntrusted e fd offset size prot r).run ustack).result = allocOutcome e size r := by
  rw [ocallMmapUntrusted, run_bind, run_bind, run_bind, run_bind, result_acceptMem]

theorem allocOutcome_eq_zero_iff (size : Nat) (r : AllocReply) :
    (allocOutcome e size r).1 = 0 ↔ Accepted e size r := by
  rw [allocOutcome, Accepted]
  by_cases ok : r.ret = 0
  · by_cases inside : sgxIsCompletelyWithinEnclave e r.memChecked size = true
    · simp [ok, inside]
    · simp [ok, inside]
  · simp [ok]

variable {r : AllocReply}

theorem allocOutcome_of_accepted (h : Accepted e size r) : allocOutcome e size r = (0, r.mem) := by
  rw [allocOutcome, if_pos h.1, h.2]
  rfl

/-- Both calls hand on the second pointer once the first is accepted. -/
theorem allocOutcome_outside_iff (size : Nat) (r : AllocReply) :
    ((allocOutcome e size r).1 = 0 → CompletelyOutside e (allocOutcome e size r).2 size) ↔
      (Accepted e size r → ¬ Crosses e r.mem size) := by
  rw [allocOutcome_eq_zero_iff]
  refine forall_congr' fun accepted => ?_
  rw [allocOutcome_of_accepted accepted, completelyOutside_iff_not_crosses]

/-- What is left of the buffer once the call for it has not failed. -/
theorem bounce_cases (limit count : Nat) (r : AllocReply) :
    (bounceOutcome e limit count r).1 < 0 ∨ (bounceOutcome e limit count r).2 = 0 ∨
      count > limit ∧ Accepted e (allocAlignup count) r ∧
        bounceOutcome e limit count r = (0, r.mem) := by
  rw [bounceOutcome]
  by_cases large : count > limit
  · rw [if_pos large]
    by_cases accepted : Accepted e (allocAlignup count) r
    · exact .inr (.inr ⟨large, accepted, allocOutcome_of_accepted accepted⟩)
    · rw [allocOutcome]
      split
      · next ok =>
        have inside : sgxIsCompletelyWithinEnclave e r.memChecked (allocAlignup count) = true :=
          eq_true_of_ne_false fun outside => accepted ⟨ok, outside⟩
        rw [if_pos inside]
        exact .inl (by decide)
      · exact .inr (.inl rfl)
  · rw [if_neg large]
    exact .inr (.inl rfl)

/-! ## Transfers -/

/-- The buffer for `count` bytes, when one is asked for and the host's is taken. -/
def BufferOutside (e : Enclave) (limit count : Nat) (r : AllocReply) : Prop :=
  count > limit → Accepted e (allocAlignup count) r → r.mem = 0 ∨ e.Outside r.mem count

theorem bufferOutside_iff (limit count : Nat) (r : AllocReply) : BufferOutside e limit count r ↔
      ((bounceOutcome e limit count r).1 < 0 ∨ (bounceOutcome e limit count r).2 = 0 ∨
        e.Outside (bounceOutcome e limit count r).2 count) := by
  constructor
  · intro h
    rcases bounce_cases (e := e) limit count r with failed | null | ⟨large, accepted, out⟩
    · exact .inl failed
    · exact .inr (.inl null)
    · rw [out]
      exact .inr (h large accepted)
  · intro h large accepted
    rw [bounceOutcome, if_pos large, allocOutcome_of_accepted accepted] at h
    exact h.resolve_left (Int.lt_irrefl 0)

/-- The copy to the buffer is the only one that may do harm. -/
theorem allHostOutside_copyOutBounce (obuf buf count ustack : Nat) :
    AllHostOutside e ((copyOutBounce e obuf buf count).run ustack).events ↔
      obuf = 0 ∨ e.Outside obuf count := by
  rw [copyOutBounce]
  by_cases null : obuf = 0
  · rw [if_neg (not_not_intro null)]
    exact iff_of_true (harmless_copyToUstack buf count ustack) (.inl null)
  · rw [if_pos null, or_iff_right null]
    exact allHostOutside_singleton

variable {count : Nat}

/-- A transfer does no harm if its buffer, once there, does none. -/
theorem allHostOutside_withBounce {limit : Nat} {rest : Nat → Nat → Framed Int}
    (h : ∀ old obuf ustack, AllHostOutside e ((rest old obuf).run ustack).events ↔
      obuf = 0 ∨ e.Outside obuf count) (ustack : Nat) :
    AllHostOutside e ((withBounce e limit count r rest).run ustack).events ↔
      BufferOutside e limit count r := by
  rw [withBounce, allHostOutside_bind harmless_prepare,
    allHostOutside_bind (harmless_allocBounce limit count r), result_allocBounce, bufferOutside_iff]
  by_cases failed : (bounceOutcome e limit count r).1 < 0
  · rw [if_pos failed]
    exact iff_of_true allHostOutside_nil (.inl failed)
  · rw [if_neg failed, or_iff_right failed, h]

/-- The copy is followed by nothing that does harm. -/
theorem allHostOutside_copyOut_bind {obuf buf : Nat} {f : Nat → Framed α}
    (quiet : ∀ msBuf, Harmless e (f msBuf)) (ustack : Nat) :
    AllHostOutside e ((copyOutBounce e obuf buf count >>= f).run ustack).events ↔
      obuf = 0 ∨ e.Outside obuf count := by
  rw [run_bind, allHostOutside_append, allHostOutside_copyOutBounce]
  exact and_iff_left (quiet _ _)

theorem harmless_leave (old obuf count : Nat) (unmap : Int) (a : α) :
    Harmless e (do sgxResetUstack old; unmapBounce e obuf count unmap; pure a) :=
  harmless_bind (harmless_reset old) fun _ => harmless_bind (harmless_unmapBounce _ _ _) fun _ =>
    harmless_pure a

theorem ocallWrite_hostOutside_iff (fd : Int) (buf count ustack : Nat) (r : WriteReply) :
    AllHostOutside e ((ocallWrite e fd buf count r).run ustack).events ↔
      BufferOutside e maxUntrustedStackBuf count r.alloc := by
  refine allHostOutside_withBounce (fun old obuf ustack => ?_) ustack
  rw [allHostOutside_bind (harmless_alloc 24 8)]
  refine allHostOutside_copyOut_bind (fun msBuf => ?_) _
  refine harmless_bind (harmless_emit _ trivial) fun _ => ?_
  exact harmless_bind (harmless_emit _ trivial) fun _ => harmless_leave _ _ _ _ _

theorem ocallPwrite64_hostOutside_iff (fd : Int) (buf count offset ustack : Nat) (r : WriteReply) :
    AllHostOutside e ((ocallPwrite64 e fd buf count offset r).run ustack).events ↔
      BufferOutside e 4096 count r.alloc := by
  refine allHostOutside_withBounce (fun old obuf ustack => ?_) ustack
  rw [allHostOutside_bind (harmless_alloc 24 8)]
  refine allHostOutside_copyOut_bind (fun msBuf => ?_) _
  refine harmless_bind (harmless_emit _ trivial) fun _ => ?_
  exact harmless_bind (harmless_emit _ trivial) fun _ => harmless_leave _ _ _ _ _

theorem harmless_readBeforeOut (fd : Int) (buf count ms obuf : Nat) (r : TransferReply) :
    Harmless e (readBeforeOut e fd buf count ms obuf r) := by
  refine harmless_ite (fun _ => harmless_pure _) fun _ => ?_
  refine harmless_bind (harmless_emit _ trivial) fun _ => ?_
  refine harmless_bind (harmless_ite (fun _ => harmless_pure _) fun _ => harmless_alloc _ _) ?_
  refine fun _ => harmless_bind (harmless_emit _ trivial) fun _ => ?_
  refine harmless_ite (fun _ => ?_) fun _ => harmless_pure _
  refine harmless_ite (fun _ => harmless_pure _) fun _ => ?_
  exact harmless_bind (harmless_copyToEnclave _ _ _ _) fun _ => harmless_pure _

/-- What comes in is checked where it is read for the last time. -/
theorem harmless_ocallRead (fd : Int) (buf count : Nat) (r : TransferReply) :
    Harmless e (ocallRead e fd buf count r) := by
  refine harmless_bind harmless_prepare fun old => ?_
  refine harmless_bind (harmless_allocBounce _ _ _) fun bounce => ?_
  refine harmless_ite (fun _ => harmless_pure _) fun _ => ?_
  refine harmless_bind (harmless_alloc _ _) fun ms => ?_
  refine harmless_bind (harmless_readBeforeOut _ _ _ _ _ _) fun retval => ?_
  exact harmless_leave _ _ _ _ _

/-! ## A call that takes a range from the host -/

inductive HostRange where
  | alloc (size : UInt64) (r : AllocReply)
  | mmap (fd : Int) (offset size : UInt64) (prot : UInt16) (r : AllocReply)
  | read (fd : Int) (buf : UInt64) (count : UInt32) (r : TransferReply)
  | write (fd : Int) (buf : UInt64) (count : UInt32) (r : WriteReply)
  | pwrite64 (fd : Int) (buf count offset : UInt64) (r : WriteReply)

namespace HostRange

/-- A range that is handed on is completely outside; copies do not touch the enclave at the
    host's side. -/
def Safe (e : Enclave) (ustack : Nat) : HostRange → Prop
  | alloc size r =>
    ((ocallAllocUntrusted e size.toNat r).run ustack).result.1 = 0 →
      CompletelyOutside e ((ocallAllocUntrusted e size.toNat r).run ustack).result.2 size.toNat
  | mmap fd offset size prot r =>
    ((ocallMmapUntrusted e fd offset.toNat size.toNat prot.toNat r).run ustack).result.1 = 0 →
      CompletelyOutside e
        ((ocallMmapUntrusted e fd offset.toNat size.toNat prot.toNat r).run ustack).result.2
        size.toNat
  | read fd buf count r =>
    AllHostOutside e ((ocallRead e fd buf.toNat count.toNat r).run ustack).events
  | write fd buf count r =>
    AllHostOutside e ((ocallWrite e fd buf.toNat count.toNat r).run ustack).events
  | pwrite64 fd buf count offset r =>
    AllHostOutside e ((ocallPwrite64 e fd buf.toNat count.toNat offset.toNat r).run ustack).events

/-- What the host may answer. -/
def Answered (e : Enclave) : HostRange → Prop
  | alloc size r | mmap _ _ size _ r => Accepted e size.toNat r → ¬ Crosses e r.mem size.toNat
  | read .. => True
  | write _ _ count r => BufferOutside e maxUntrustedStackBuf count.toNat r.alloc
  | pwrite64 _ _ count _ r => BufferOutside e 4096 count.toNat r.alloc

end HostRange

theorem hostRange_safe_iff (e : Enclave) (ustack : Nat) (call : HostRange) :
    call.Safe e ustack ↔ call.Answered e := by
  cases call with
  | alloc size r =>
    rw [HostRange.Safe, HostRange.Answered, result_ocallAllocUntrusted, allocOutcome_outside_iff]
  | mmap fd offset size prot r =>
    rw [HostRange.Safe, HostRange.Answered, result_ocallMmapUntrusted, allocOutcome_outside_iff]
  | read fd buf count r => exact iff_of_true (harmless_ocallRead _ _ _ _ ustack) trivial
  | write fd buf count r => exact ocallWrite_hostOutside_iff ..
  | pwrite64 fd buf count offset r => exact ocallPwrite64_hostOutside_iff ..

/-- An enclave of 16 MiB, and a range of the host that begins eight bytes below it. -/
def below16M : Enclave := { base := 0x1000000, top := 0x2000000, ustackTop := 0x800000 }

def straddling : AllocReply := { ret := 0, memChecked := 0xfffff8, mem := 0xfffff8 }

/-- Such a range is handed on, and the bytes of a large write go into the enclave. -/
theorem straddling_range_taken :
    ¬ (HostRange.alloc 4096 straddling).Safe below16M 0x800000 ∧
    ¬ (HostRange.write 1 0x1800000 600000 { alloc := straddling, ret := 0, unmap := 0 }).Safe
      below16M 0x800000 := by
  have inside (size : Nat) : sgxIsCompletelyWithinEnclave below16M straddling.memChecked size =
      false := by
    rw [sgxIsCompletelyWithinEnclave]
    split
    · rfl
    · exact Bool.and_eq_false_iff.mpr (.inl (by decide))
  constructor
  · rw [HostRange.Safe, result_ocallAllocUntrusted, allocOutcome_outside_iff]
    intro safe
    exact safe ⟨rfl, inside 4096⟩ (by decide)
  · rw [HostRange.Safe, ocallWrite_hostOutside_iff]
    intro safe
    rcases safe (by decide) ⟨rfl, inside _⟩ with null | outside
    · exact absurd null (by decide)
    · exact outside 8 (by decide) (by decide)

end SandboxTEE.Xcall.Frames
