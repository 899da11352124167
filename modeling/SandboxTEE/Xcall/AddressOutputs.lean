import SandboxTEE.Xcall.FrameDiscipline

/-! # The address outputs of the socket wrappers (`ocall_socket_t.c`)

`ocall_sock_listen`, `ocall_sock_accept`, `ocall_sock_connect` and `ocall_sock_recv` read
`ms->ms_addrlen`, which the host can write, three times: in the check, for the copy, and for the
caller's length.  The copy may be refused, and the third value is never checked.  What the caller
is left with is in order exactly when the third value is (`addressOutputs_iff`).
-/

namespace SandboxTEE.Xcall.Frames

open SandboxTEE.Lib (Traced)
open SandboxTEE.Lib.Traced (emit run_bind)

/-! ## What leaves the wrapper -/

/-- The copies from the host and the stores to the caller's variables. -/
def Access.isOutput : Access → Bool
  | copyIn .. | store .. => true
  | enter | alloc .. | leave | ms .. | copyOut .. | ocall .. => false

def outputs (events : List Access) : List Access := events.filter Access.isOutput

variable {α β : Type} {e : Enclave}

/-- A part of a wrapper without outputs. -/
def Silent (m : Framed α) : Prop := ∀ ustack, outputs (m.run ustack).events = []

/-- A wrapper that returns `ret` with these outputs, wherever the pointer stands. -/
def Ends (m : Framed α) (ret : α) (outs : List Access) : Prop :=
  ∀ ustack, (m.run ustack).result = ret ∧ outputs (m.run ustack).events = outs

theorem outputs_append (first second : List Access) :
    outputs (first ++ second) = outputs first ++ outputs second := List.filter_append ..

theorem silent_pure (a : α) : Silent (pure a : Framed α) := fun _ => rfl

variable {f : α → Framed β} {m : Framed α}

theorem silent_bind (first : Silent m) (rest : ∀ a, Silent (f a)) : Silent (m >>= f) := by
  intro ustack
  rw [run_bind, outputs_append, first, rest, List.append_nil]

variable {a : Access}

theorem silent_emit (no : a.isOutput = false) : Silent (emit a) := fun _ =>
  List.filter_cons_of_neg (by simp [no])

theorem silent_ite {p : Prop} [Decidable p] {m' : Framed α} (h : Silent m) (h' : Silent m') :
    Silent (if p then m else m') := by
  split
  · exact h
  · exact h'

theorem silent_sgxPrepareUstack : Silent (sgxPrepareUstack e) := fun _ => rfl

theorem silent_sgxResetUstack (old : Nat) : Silent (sgxResetUstack old) := fun _ => rfl

theorem silent_sgxAllocOnUstackAligned (size alignment : Nat) :
    Silent (sgxAllocOnUstackAligned e size alignment) := by
  intro ustack
  rw [Traced.run, sgxAllocOnUstackAligned]
  split
  · rfl
  · rfl

theorem silent_sgxCopyToUstack (ptr size : Nat) : Silent (sgxCopyToUstack e ptr size) := by
  refine silent_ite (silent_pure _) (silent_bind (silent_sgxAllocOnUstackAligned _ _) fun uptr => ?_)
  exact silent_ite (silent_bind (silent_emit rfl) fun _ => silent_pure _) (silent_pure _)

variable {outs : List Access}

variable {ret : β}

theorem Silent.then (first : Silent m) (rest : ∀ a, Ends (f a) ret outs) :
    Ends (m >>= f) ret outs := by
  intro ustack
  rw [run_bind, outputs_append, first, List.nil_append]
  exact rest _ _

theorem Ends.bind {a : α} {outs' : List Access} (first : Ends m a outs)
    (rest : Ends (f a) ret outs') : Ends (m >>= f) ret (outs ++ outs') := by
  intro ustack
  rw [run_bind, outputs_append, (first ustack).2, (first ustack).1]
  exact ⟨(rest _).1, by rw [(rest _).2]⟩

theorem ends_pure (a : α) : Ends (pure a : Framed α) a [] := fun _ => ⟨rfl, rfl⟩

theorem ends_emit (yes : a.isOutput = true) : Ends (emit a) () [a] := fun _ =>
  ⟨rfl, List.filter_cons_of_pos yes⟩

/-! ## The copies -/

/-- `sgx_copy_to_enclave` takes the copy. -/
def Accepts (e : Enclave) (dst limit src size : Nat) : Prop :=
  size ≤ limit ∧ sgxIsCompletelyOutsideEnclave e src size = true ∧
    sgxIsCompletelyWithinEnclave e dst size = true

instance (e : Enclave) (dst limit src size : Nat) : Decidable (Accepts e dst limit src size) :=
  inferInstanceAs (Decidable (_ ∧ _))

/-- How many bytes it copies. -/
def copied (e : Enclave) (dst limit src size : Nat) : Nat :=
  if Accepts e dst limit src size then size else 0

def copyOutput (e : Enclave) (dst limit src size : Nat) : List Access :=
  if Accepts e dst limit src size then [.copyIn dst src size] else []

theorem ends_sgxCopyToEnclave (dst limit src size : Nat) :
    Ends (sgxCopyToEnclave e dst limit src size) (decide (Accepts e dst limit src size))
      (copyOutput e dst limit src size) := by
  by_cases accepts : Accepts e dst limit src size
  · have ⟨h₁, h₂, h₃⟩ := accepts
    rw [copyOutput, if_pos accepts, decide_eq_true accepts, sgxCopyToEnclave,
      if_neg (by simp [h₁, h₂, h₃])]
    exact (ends_emit rfl).bind (ends_pure _)
  · have refused : size > limit ∨ sgxIsCompletelyOutsideEnclave e src size = false ∨
        sgxIsCompletelyWithinEnclave e dst size = false := by
      by_contra none
      simp only [not_or, Nat.not_lt, Bool.not_eq_false] at none
      exact accepts none
    rw [copyOutput, if_neg accepts, decide_eq_false accepts, sgxCopyToEnclave, if_pos refused]
    exact ends_pure _

/-- The outputs of an address and its length. -/
def peerOutputs (e : Enclave) (addr : Nat) (r : PeerReply) : Option OutParam → List Access
  | some p =>
    if addr ≠ 0 then copyOutput e addr p.value r.addr r.addrlen ++ [.store p.ptr 4] else []
  | none => []

theorem ends_copyPeer (addr : Nat) (r : PeerReply) (addrlen : Option OutParam) :
    Ends (copyPeer e addr r addrlen) () (peerOutputs e addr r addrlen) := by
  cases addrlen with
  | none => exact ends_pure ()
  | some p =>
    rw [copyPeer, peerOutputs]
    split
    · exact (ends_sgxCopyToEnclave _ _ _ _).bind (ends_emit rfl)
    · exact ends_pure ()

theorem ends_acceptPeer (old : Nat) (rejected : Prop) [Decidable rejected] {copy : Framed Unit}
    (h : Ends copy () outs) (ret : Int) :
    Ends (acceptPeer old rejected copy ret) (if ret ≥ 0 ∧ rejected then -1 else ret)
      (if ret ≥ 0 ∧ ¬ rejected then outs else []) := by
  unfold acceptPeer
  have leave : ∀ n : Int, Ends (do sgxResetUstack old; pure n) n [] := fun n =>
    (silent_sgxResetUstack old).then fun _ => ends_pure n
  by_cases ok : ret ≥ 0
  · by_cases rej : rejected
    · simpa [ok, rej] using leave (-1)
    · simpa [ok, rej] using Ends.bind (f := fun _ => _) h (leave ret)
  · simpa [ok] using leave ret

/-! ## The four wrappers -/

/-- What the host supplies: `published` is the third value of `ms->ms_addrlen`. -/
structure PeerReads extends PeerReply where
  published : Nat

inductive AddressCall where
  | sockListen (domain type protocol : Int) (addr : Nat) (addrlen : UintParam)
  | sockAccept (sockfd : Int) (addr : Nat) (addrlen : Option UintParam)
  | sockConnect (domain type protocol : Int) (addr : Nat) (addrlen : UInt32) (bindAddr : Nat)
      (bindAddrlen : Option UintParam)
  | sockRecv (sockfd : Int) (buf : Nat) (count : UInt32) (addr : Nat) (addrlen : Option UintParam)

namespace AddressCall

def call (r : PeerReply) : AddressCall → Call
  | sockListen domain type protocol addr addrlen => .sockListen domain type protocol addr addrlen r
  | sockAccept sockfd addr addrlen => .sockAccept sockfd addr addrlen r
  | sockConnect domain type protocol addr addrlen bindAddr bindAddrlen =>
    .sockConnect domain type protocol addr addrlen bindAddr bindAddrlen r
  | sockRecv sockfd buf count addr addrlen => .sockRecv sockfd buf count addr addrlen r

/-- The buffer for an address that the host gives. -/
def peerAddr : AddressCall → Nat
  | sockListen _ _ _ addr _ | sockAccept _ addr _ | sockRecv _ _ _ addr _ => addr
  | sockConnect _ _ _ _ _ bindAddr _ => bindAddr

/-- The variable with its length. -/
def peerAddrlen : AddressCall → Option UintParam
  | sockListen _ _ _ _ addrlen => some addrlen
  | sockAccept _ _ addrlen | sockRecv _ _ _ _ addrlen => addrlen
  | sockConnect _ _ _ _ _ _ bindAddrlen => bindAddrlen

/-- The buffer for data, which `ocall_sock_recv` has, and its length. -/
def dataBuf : AddressCall → Nat × Nat
  | sockRecv _ buf count _ _ => (buf, count.toNat)
  | sockListen .. | sockAccept .. | sockConnect .. => (0, 0)

/-- The check that makes the wrapper return -1. -/
def rejected (e : Enclave) (r : PeerReply) : AddressCall → Prop
  | sockListen _ _ _ _ addrlen =>
    sgxIsCompletelyWithinEnclave e r.addrChecked addrlen.value = true ∨
      r.addrlenChecked > addrlen.value
  | sockAccept _ _ addrlen | sockRecv _ _ _ _ addrlen => r.rejected e (lenOf (outParam addrlen))
  | sockConnect _ _ _ _ _ _ bindAddrlen => r.rejected e (lenOf (outParam bindAddrlen))

instance (e : Enclave) (r : PeerReply) : (c : AddressCall) → Decidable (c.rejected e r)
  | sockListen _ _ _ _ addrlen =>
    inferInstanceAs (Decidable (sgxIsCompletelyWithinEnclave e r.addrChecked addrlen.value = true ∨
      r.addrlenChecked > addrlen.value))
  | sockAccept _ _ addrlen | sockRecv _ _ _ _ addrlen =>
    inferInstanceAs (Decidable (r.rejected e (lenOf (outParam addrlen))))
  | sockConnect _ _ _ _ _ _ bindAddrlen =>
    inferInstanceAs (Decidable (r.rejected e (lenOf (outParam bindAddrlen))))

/-- The outputs of a successful call. -/
def delivery (e : Enclave) (r : PeerReply) (c : AddressCall) : List Access :=
  (match c with
    | sockRecv _ buf count _ _ => copyOutput e buf count.toNat r.buf r.ret.toNat
    | _ => []) ++ peerOutputs e c.peerAddr r (outParam c.peerAddrlen)

theorem run_ends (e : Enclave) (r : PeerReply) (c : AddressCall) :
    Ends ((c.call r).run e) (if r.ret ≥ 0 ∧ c.rejected e r then -1 else r.ret)
      (if r.ret ≥ 0 ∧ ¬ c.rejected e r then c.delivery e r else []) := by
  cases c with
  | sockListen domain type protocol addr addrlen =>
    refine silent_sgxPrepareUstack.then fun old =>
      (silent_sgxAllocOnUstackAligned _ _).then fun ms =>
      (silent_sgxCopyToUstack _ _).then fun uaddr => (silent_emit rfl).then fun _ =>
      (silent_emit rfl).then fun _ => ?_
    exact ends_acceptPeer old ((sockListen domain type protocol addr addrlen).rejected e r)
      (ends_copyPeer _ _ _) _
  | sockAccept sockfd addr addrlen =>
    refine silent_sgxPrepareUstack.then fun old =>
      (silent_sgxAllocOnUstackAligned _ _).then fun ms => (silent_emit rfl).then fun _ =>
      (silent_sgxCopyToUstack _ _).then fun _ => (silent_emit rfl).then fun _ => ?_
    exact ends_acceptPeer old ((sockAccept sockfd addr addrlen).rejected e r)
      (ends_copyPeer _ _ _) _
  | sockConnect domain type protocol addr addrlen bindAddr bindAddrlen =>
    refine silent_sgxPrepareUstack.then fun old =>
      (silent_sgxAllocOnUstackAligned _ _).then fun ms =>
      (silent_sgxCopyToUstack _ _).then fun uaddr =>
      (silent_ite (silent_sgxCopyToUstack _ _) (silent_pure _)).then fun ubind =>
      (silent_emit rfl).then fun _ => (silent_emit rfl).then fun _ => ?_
    exact ends_acceptPeer old ((sockConnect domain type protocol addr addrlen bindAddr bindAddrlen).rejected e r)
      (ends_copyPeer _ _ _) _
  | sockRecv sockfd buf count addr addrlen =>
    refine silent_sgxPrepareUstack.then fun old =>
      (silent_sgxAllocOnUstackAligned _ _).then fun ms => (silent_emit rfl).then fun _ =>
      (silent_sgxAllocOnUstackAligned _ _).then fun _ =>
      (silent_ite (silent_sgxAllocOnUstackAligned _ _) (silent_pure _)).then fun _ =>
      (silent_emit rfl).then fun _ => ?_
    exact ends_acceptPeer old ((sockRecv sockfd buf count addr addrlen).rejected e r)
      (Ends.bind (f := fun _ => _) (ends_sgxCopyToEnclave _ _ _ _) (ends_copyPeer _ _ _)) _

end AddressCall

/-! ## What the caller is left with -/

def Access.storesTo (ptr : Nat) : Access → Bool
  | store dst _ => dst == ptr
  | _ => false

/-- The caller's variable behind the call: the only store to it is that of the third value. -/
def addrlenAfter (p : OutParam) (published : Nat) (events : List Access) : Nat :=
  if events.any (Access.storesTo p.ptr) then published else p.value

/-- The byte at `a` has been copied from outside. -/
def CopiedFromHost (e : Enclave) (events : List Access) (a : Nat) : Prop :=
  ∃ dst src size, Access.copyIn dst src size ∈ events ∧ dst ≤ a ∧ a < dst + size ∧
    CompletelyOutside e src size

theorem any_storesTo (ptr : Nat) (events : List Access) :
    events.any (Access.storesTo ptr) = (outputs events).any (Access.storesTo ptr) := by
  rw [outputs, List.any_filter]
  congr 1
  funext a
  cases a <;> rfl

theorem copiedFromHost_outputs (events : List Access) (a : Nat) :
    CopiedFromHost e events a ↔ CopiedFromHost e (outputs events) a := by
  have same : ∀ dst src size, Access.copyIn dst src size ∈ events ↔
      Access.copyIn dst src size ∈ outputs events := fun dst src size => by
    rw [outputs, List.mem_filter]
    exact (and_iff_left rfl).symm
  simp only [CopiedFromHost, same]

theorem copiedFromHost_append (first second : List Access) (a : Nat) :
    CopiedFromHost e (first ++ second) a ↔
      CopiedFromHost e first a ∨ CopiedFromHost e second a := by
  simp only [CopiedFromHost, List.mem_append, or_and_right, exists_or]

theorem copied_le (e : Enclave) (dst limit src size : Nat) : copied e dst limit src size ≤ limit := by
  unfold copied
  split
  · next accepts => exact accepts.1
  · exact Nat.zero_le _

/-- A copy accounts for the bytes that were copied. -/
theorem copiedFromHost_copyOutput {dst limit src size : Nat} (bound : limit < 2 ^ 64) (a : Nat) :
    CopiedFromHost e (copyOutput e dst limit src size) a ↔
      dst ≤ a ∧ a < dst + copied e dst limit src size := by
  by_cases accepts : Accepts e dst limit src size
  · rw [copyOutput, copied, if_pos accepts, if_pos accepts]
    have outside := (check_iff_completelyOutside (by have := accepts.1; omega)).mp accepts.2.1
    constructor
    · rintro ⟨dst', src', size', mem, above, below, -⟩
      cases List.mem_singleton.mp mem
      exact ⟨above, below⟩
    · rintro ⟨above, below⟩
      exact ⟨dst, src, size, List.mem_singleton_self _, above, below, outside⟩
  · rw [copyOutput, copied, if_neg accepts, if_neg accepts]
    constructor
    · rintro ⟨_, _, _, mem, -⟩
      cases mem
    · rintro ⟨above, below⟩
      omega

theorem not_copiedFromHost_store (dst size a : Nat) : ¬ CopiedFromHost e [.store dst size] a := by
  rintro ⟨_, _, _, mem, -⟩
  cases List.mem_singleton.mp mem

namespace AddressCall

/-- A call that succeeds leaves the caller with a length that its buffer has room for, and with
    that many bytes of the host in the buffer. -/
def Delivers (e : Enclave) (ustack : Nat) (h : PeerReads) (c : AddressCall) : Prop :=
  0 ≤ (((c.call h.toPeerReply).run e).run ustack).result →
  c.peerAddr ≠ 0 → ∀ p, c.peerAddrlen = some p →
    addrlenAfter p.toOutParam h.published (((c.call h.toPeerReply).run e).run ustack).events ≤
      p.value ∧
    ∀ i < addrlenAfter p.toOutParam h.published
      (((c.call h.toPeerReply).run e).run ustack).events,
      CopiedFromHost e (((c.call h.toPeerReply).run e).run ustack).events (c.peerAddr + i)

/-- The third value is one of a length that was copied: in a call that is not refused, it is at
    most the caller's length, and the bytes it stands for are among those that the second value
    made the wrapper copy, or among the data where the two buffers overlap. -/
def LengthInOrder (e : Enclave) (h : PeerReads) (c : AddressCall) : Prop :=
  0 ≤ h.ret → ¬ c.rejected e h.toPeerReply → c.peerAddr ≠ 0 → ∀ p, c.peerAddrlen = some p →
    h.published ≤ p.value ∧
    ∀ i < h.published, i < copied e c.peerAddr p.value h.addr h.addrlen ∨
      (c.dataBuf.1 ≤ c.peerAddr + i ∧
        c.peerAddr + i < c.dataBuf.1 + copied e c.dataBuf.1 c.dataBuf.2 h.buf h.ret.toNat)

variable {p : UintParam} {c : AddressCall}

/-- The copy of the data, which only `ocall_sock_recv` makes. -/
theorem delivery_eq (e : Enclave) (r : PeerReply) (given : c.peerAddr ≠ 0)
    (addrlen : c.peerAddrlen = some p) :
    ∃ data, c.delivery e r = data ++ (copyOutput e c.peerAddr p.value r.addr r.addrlen ++
        [.store p.ptr 4]) ∧ ∀ a, CopiedFromHost e data a ↔
        c.dataBuf.1 ≤ a ∧ a < c.dataBuf.1 + copied e c.dataBuf.1 c.dataBuf.2 r.buf r.ret.toNat := by
  have peer : peerOutputs e c.peerAddr r (outParam c.peerAddrlen) =
      copyOutput e c.peerAddr p.value r.addr r.addrlen ++ [.store p.ptr 4] := by
    rw [addrlen]
    exact if_pos given
  have nothing : ∀ a, CopiedFromHost e [] a ↔ 0 ≤ a ∧ a < 0 + copied e 0 0 r.buf r.ret.toNat := by
    intro a
    have := copied_le e 0 0 r.buf r.ret.toNat
    constructor
    · rintro ⟨_, _, _, mem, -⟩
      cases mem
    · rintro ⟨-, below⟩
      omega
  unfold delivery
  rw [peer]
  cases c with
  | sockListen _ _ _ addr addrlen => exact ⟨[], rfl, nothing⟩
  | sockAccept _ addr addrlen => exact ⟨[], rfl, nothing⟩
  | sockConnect _ _ _ _ _ bindAddr bindAddrlen => exact ⟨[], rfl, nothing⟩
  | sockRecv _ buf count addr addrlen =>
    refine ⟨_, rfl, fun a => copiedFromHost_copyOutput ?_ a⟩
    exact Nat.lt_of_lt_of_le count.toNat_lt (by decide)

/-- A call that is not refused publishes the third value, and has copied what the second one
    and the data stand for. -/
theorem accepted_outcome (e : Enclave) (ustack : Nat) {h : PeerReads} (ok : 0 ≤ h.ret)
    (accepted : ¬ c.rejected e h.toPeerReply) (given : c.peerAddr ≠ 0)
    (addrlen : c.peerAddrlen = some p) : addrlenAfter p.toOutParam h.published
        (((c.call h.toPeerReply).run e).run ustack).events = h.published ∧
      ∀ a, CopiedFromHost e (((c.call h.toPeerReply).run e).run ustack).events a ↔
        (c.peerAddr ≤ a ∧ a < c.peerAddr + copied e c.peerAddr p.value h.addr h.addrlen) ∨
        (c.dataBuf.1 ≤ a ∧
          a < c.dataBuf.1 + copied e c.dataBuf.1 c.dataBuf.2 h.buf h.ret.toNat) := by
  have outs := (c.run_ends e h.toPeerReply ustack).2
  rw [if_pos ⟨ok, accepted⟩] at outs
  obtain ⟨data, delivered, fromData⟩ := delivery_eq e h.toPeerReply given addrlen
  rw [delivered] at outs
  refine ⟨if_pos ?_, fun a => ?_⟩
  · rw [any_storesTo, outs]
    simp [Access.storesTo]
  · rw [copiedFromHost_outputs, outs, copiedFromHost_append, copiedFromHost_append, fromData,
      copiedFromHost_copyOutput (Nat.lt_trans p.bound (by decide)),
      or_iff_left (not_copiedFromHost_store _ _ _), or_comm]

end AddressCall

/-- For every enclave, stack pointer, call and host: a successful call delivers an address that
    the caller can use if and only if the third value of `ms_addrlen` is in order. -/
theorem addressOutputs_iff (e : Enclave) (ustack : Nat) (h : PeerReads) (c : AddressCall) :
    c.Delivers e ustack h ↔ c.LengthInOrder e h := by
  have result := (c.run_ends e h.toPeerReply ustack).1
  unfold AddressCall.Delivers AddressCall.LengthInOrder
  rw [result]
  by_cases ok : 0 ≤ h.ret
  · by_cases rejected : c.rejected e h.toPeerReply
    · rw [if_pos ⟨ok, rejected⟩]
      exact iff_of_true (fun returned => absurd returned (by decide))
        fun _ accepted => absurd rejected accepted
    · rw [if_neg fun h => rejected h.2]
      constructor
      · intro delivers _ _ given p addrlen
        obtain ⟨after, copied⟩ := AddressCall.accepted_outcome e ustack ok rejected given addrlen
        have := delivers ok given p addrlen
        rw [after] at this
        refine ⟨this.1, fun i hi => ?_⟩
        cases (copied _).mp (this.2 i hi) with
        | inl peer => exact Or.inl (by omega)
        | inr data => exact Or.inr data
      · intro inOrder _ given p addrlen
        obtain ⟨after, copied⟩ := AddressCall.accepted_outcome e ustack ok rejected given addrlen
        have := inOrder ok rejected given p addrlen
        rw [after]
        refine ⟨this.1, fun i hi => (copied _).mpr ?_⟩
        cases this.2 i hi with
        | inl peer => exact Or.inl (by omega)
        | inr data => exact Or.inr data
  · rw [if_neg fun h => ok h.1]
    exact iff_of_true (fun returned => absurd returned ok) fun returned => absurd returned ok

/-! ## A length that was never checked -/

/-- An enclave, and a host that answers 16, 16 and then 4096 for the length. -/
def somewhere : Enclave := ⟨0x100000000, 0x200000000, 0x7fff0000⟩

def changingHost : PeerReads := ⟨⟨5, 0, 0x7ffe0000, 16, 0x7ffe0000, 16⟩, 4096⟩

def acceptCall : AddressCall := .sockAccept 3 0x100001000 (some ⟨⟨0x100002000, 16, by decide⟩, by decide⟩)

theorem acceptCall_length_unchecked :
    ¬ acceptCall.Delivers somewhere 0x7fff0000 changingHost := by
  have accepted : ¬ acceptCall.rejected somewhere changingHost.toPeerReply := by
    rintro ⟨-, inside | long⟩
    · rw [sgxIsCompletelyWithinEnclave] at inside
      exact absurd inside (by decide)
    · exact absurd long (by decide)
  intro delivers
  have outcome := AddressCall.accepted_outcome somewhere 0x7fff0000 (h := changingHost)
    (c := acceptCall) (by decide) accepted (by decide) rfl
  have result := (acceptCall.run_ends somewhere changingHost.toPeerReply 0x7fff0000).1
  rw [if_neg fun h => accepted h.2] at result
  have := delivers (by rw [result]; decide) (by decide) _ rfl
  rw [outcome.1] at this
  exact absurd this.1 (by decide)

end SandboxTEE.Xcall.Frames
