import Mathlib.Data.Nat.ModEq
import SandboxTEE.Lib.FrameStack
import SandboxTEE.Xcall.Framework

/-! # The frames of the untrusted stack (`xcall/enclave_framework.c`)

The framework again, with a finer trace: a wrapper opens its frame by `sgx_prepare_ustack` and
closes it by `sgx_reset_ustack`, and what it takes from the untrusted stack in between is an event
as well.  What is left out of this trace is the trace of the plain framework (`forget`).
-/

namespace SandboxTEE.Xcall.Frames

open SandboxTEE.Lib (Traced FrameStep)
open SandboxTEE.Lib.Traced (emit mapEvents mapEvents_bind mapEvents_emit mapEvents_emit_nil)

/-! ## Numbers of the calls (`ocall_types.h`) -/

inductive OcallNr where
  | ocallAllocUntrusted | ocallMmapUntrusted | ocallUnmapUntrusted | ocallMprotect
  | ocallOpen | ocallClose | ocallRead | ocallWrite
  | ocallStat | ocallLstat | ocallFstat | ocallStat64 | ocallLstat64 | ocallFstat64
  | ocallFsetnonblock | ocallFchmod | ocallFchdir | ocallFsync | ocallFdatasync
  | ocallFtruncate | ocallLseek64 | ocallPread64 | ocallPwrite64 | ocallDup
  | ocallMkdir | ocallRmdir | ocallChdir | ocallGetcwd | ocallLink | ocallUnlink
  | ocallTruncate | ocallRename | ocallChmod | ocallAccess | ocallFcntl | ocallGetdents
  | ocallSocketpair | ocallSockListen | ocallSockAccept | ocallSockConnect | ocallSockRecv
  | ocallSockSend | ocallSockRecvFd | ocallSockSendFd | ocallSockSetopt | ocallSockShutdown
  | ocallGettimeofday | ocallClockGetres | ocallClockGettime | ocallSleep | ocallNsleep
  | ocallExit | ocallCpuid | ocallGetpid | ocallFionread | ocallFutex | ocallPrintString
  | ocallDebugp
  | ocallSgxInitQuote | ocallRemoteAttestation

/-! ## The framework -/

/-- `ms` is the store of an argument structure with its fields, `copyOut` takes bytes out to the
    host, and `store` is any other write. -/
inductive Access where
  | enter
  | alloc (addr size : Nat)
  | leave
  | ms (dst size : Nat) (fields : List Int)
  | store (dst size : Nat)
  | copyIn (dst src size : Nat)
  | copyOut (dst src size : Nat)
  | ocall (nr : OcallNr) (ms : Nat)

abbrev Framed := Traced Nat Access

def sgxPrepareUstack (e : Enclave) : Framed Nat := fun oldUstack =>
  { result := oldUstack, state := prepared e oldUstack, events := [.enter] }

def sgxAllocOnUstackAligned (e : Enclave) (size alignment : Nat) : Framed Nat := fun ustack =>
  if sgxIsCompletelyOutsideEnclave e (ustackBelow ustack size alignment) size = false then
    { result := 0, state := ustack, events := [] }
  else
    { result := ustackBelow ustack size alignment, state := ustackBelow ustack size alignment
      events := [.alloc (ustackBelow ustack size alignment) size] }

def sgxAllocOnUstack (e : Enclave) (size : Nat) : Framed Nat := sgxAllocOnUstackAligned e size 1

def sgxCopyToUstack (e : Enclave) (ptr size : Nat) : Framed Nat :=
  if sgxIsCompletelyWithinEnclave e ptr size = false then pure 0
  else do
    let uptr ← sgxAllocOnUstack e size
    if uptr ≠ 0 then do
      emit (.copyOut uptr ptr size)
      pure uptr
    else pure uptr

def sgxResetUstack (oldUstack : Nat) : Framed Unit := fun _ =>
  { result := (), state := oldUstack, events := [.leave] }

def sgxCopyToEnclave (e : Enclave) (ptr maxsize uptr usize : Nat) : Framed Bool :=
  if usize > maxsize ∨ sgxIsCompletelyOutsideEnclave e uptr usize = false ∨
      sgxIsCompletelyWithinEnclave e ptr usize = false then pure false
  else do
    emit (.copyIn ptr uptr usize)
    pure true

/-! ## The plain framework -/

/-- What a plain trace shows of an access. -/
def Access.forget : Access → List Event
  | ms dst size _ | store dst size | copyOut dst _ size => [.store dst size]
  | copyIn dst src size => [.copyIn dst src size]
  | enter | alloc .. | leave | ocall .. => []

variable {α β : Type} {e : Enclave}

@[simp] theorem forget_ms (dst size : Nat) (fields : List Int) :
    (emit (.ms dst size fields) : Framed Unit).mapEvents Access.forget = emit (.store dst size) :=
  mapEvents_emit _ rfl

@[simp] theorem forget_store (dst size : Nat) :
    (emit (.store dst size) : Framed Unit).mapEvents Access.forget = emit (.store dst size) :=
  mapEvents_emit _ rfl

@[simp] theorem forget_copyOut (dst src size : Nat) :
    (emit (.copyOut dst src size) : Framed Unit).mapEvents Access.forget = emit (.store dst size) :=
  mapEvents_emit _ rfl

@[simp] theorem forget_copyIn (dst src size : Nat) :
    (emit (.copyIn dst src size) : Framed Unit).mapEvents Access.forget =
      emit (.copyIn dst src size) :=
  mapEvents_emit _ rfl

@[simp] theorem forget_ocall (nr : OcallNr) (ms : Nat) :
    (emit (.ocall nr ms) : Framed Unit).mapEvents Access.forget = pure () :=
  mapEvents_emit_nil _ rfl

@[simp] theorem forget_sgxPrepareUstack :
    (sgxPrepareUstack e).mapEvents Access.forget = Xcall.sgxPrepareUstack e := rfl

@[simp] theorem forget_sgxResetUstack (old : Nat) :
    (sgxResetUstack old).mapEvents Access.forget = Xcall.sgxResetUstack old := rfl

@[simp] theorem forget_sgxAllocOnUstackAligned (size alignment : Nat) :
    (sgxAllocOnUstackAligned e size alignment).mapEvents Access.forget =
      Xcall.sgxAllocOnUstackAligned e size alignment := by
  funext ustack
  rw [mapEvents, sgxAllocOnUstackAligned, Xcall.sgxAllocOnUstackAligned, allocated]
  split
  · rfl
  · rfl

@[simp] theorem forget_sgxAllocOnUstack (size : Nat) :
    (sgxAllocOnUstack e size).mapEvents Access.forget = Xcall.sgxAllocOnUstack e size :=
  forget_sgxAllocOnUstackAligned size 1

@[simp] theorem forget_sgxCopyToEnclave (ptr maxsize uptr usize : Nat) :
    (sgxCopyToEnclave e ptr maxsize uptr usize).mapEvents Access.forget =
      Xcall.sgxCopyToEnclave e ptr maxsize uptr usize := by
  rw [sgxCopyToEnclave, Xcall.sgxCopyToEnclave]
  split
  · rfl
  · rfl

@[simp] theorem forget_sgxCopyToUstack (ptr size : Nat) :
    (sgxCopyToUstack e ptr size).mapEvents Access.forget = Xcall.sgxCopyToUstack e ptr size := by
  rw [sgxCopyToUstack, Xcall.sgxCopyToUstack]
  split
  · rfl
  · rw [mapEvents_bind, forget_sgxAllocOnUstack]
    congr 1
    funext uptr
    split
    · rfl
    · rfl

/-! ## Frames that are in order -/

/-- A block of the untrusted stack. -/
structure Block where
  addr : Nat
  size : Nat

/-- No byte of the range is the enclave's, and it does not wrap. -/
def CompletelyOutside (e : Enclave) (addr size : Nat) : Prop :=
  addr + size ≤ uintptrMax ∧ (addr + size ≤ e.base ∨ e.top ≤ addr)

instance (e : Enclave) (addr size : Nat) : Decidable (CompletelyOutside e addr size) :=
  inferInstanceAs (Decidable (_ ∧ _))

def Block.Apart (b c : Block) : Prop := b.addr + b.size ≤ c.addr ∨ c.addr + c.size ≤ b.addr

instance : DecidableRel Block.Apart := fun _ _ => inferInstanceAs (Decidable (_ ∨ _))

/-- What an access does to the frames. -/
def Access.frameStep : Access → Option (FrameStep Block)
  | enter => some .enter
  | alloc addr size => some (.take ⟨addr, size⟩)
  | leave => some .leave
  | _ => none

/-- The open frames behind a trace: none if some block is not completely outside or not apart
    from all that are in use. -/
def framesAfter (e : Enclave) (frames : List (List Block)) (events : List Access) :
    Option (List (List Block)) :=
  FrameStep.replay (fun b => CompletelyOutside e b.addr b.size) Block.Apart frames
    (events.filterMap Access.frameStep)

theorem check_iff_completelyOutside {addr size : Nat} (bound : size < 2 ^ 64) :
    sgxIsCompletelyOutsideEnclave e addr size = true ↔ CompletelyOutside e addr size := by
  rw [sgxIsCompletelyOutsideEnclave, CompletelyOutside, uintptrMax]
  split
  · next wraps => exact iff_of_false Bool.false_ne_true (by omega)
  · next fits =>
    rw [Bool.or_eq_true, decide_eq_true_eq, decide_eq_true_eq]
    omega

theorem framesAfter_append {frames frames' : List (List Block)} {first : List Access}
    (second : List Access) (h : framesAfter e frames first = some frames') :
    framesAfter e frames (first ++ second) = framesAfter e frames' second := by
  rw [framesAfter, List.filterMap_append, FrameStep.replay_append _ _ _ h]
  rfl

end SandboxTEE.Xcall.Frames
