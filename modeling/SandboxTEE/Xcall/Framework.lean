import Mathlib.Algebra.Group.Int.Defs
import Mathlib.Algebra.Group.Nat.Defs
import SandboxTEE.Lib.Traced

/-! # The trusted side of the boundary (`xcall/enclave_framework.c`, `ocall_mem_t.c`)

Addresses are natural numbers below `2 ^ 64`.  The state of a wrapper is the pointer of the
untrusted stack in the thread-local words; what it does to memory is its trace.  The fields of an
`ms` structure are stored one by one; they are taken as one store of the structure.  A failed
allocation on the untrusted stack is NULL, and a store through it is a store at address zero.
-/

namespace SandboxTEE.Xcall

open SandboxTEE.Lib (Traced)
open SandboxTEE.Lib.Traced (emit)

/-- `enclave_base` and `enclave_top`, and the top of the untrusted stack, which the thread keeps
    from the last ecall. -/
structure Enclave where
  base : Nat
  top : Nat
  ustackTop : Nat

/-- `copyIn` takes bytes of the host in, `store` are all other writes. -/
inductive Event where
  | store (dst size : Nat)
  | copyIn (dst src size : Nat)

abbrev Wrapper := Traced Nat Event

def redZoneSize : Nat := 128

/-- `UINTPTR_MAX` -/
def uintptrMax : Nat := 2 ^ 64 - 1

@[irreducible] def sgxIsCompletelyWithinEnclave (e : Enclave) (addr size : Nat) : Bool :=
  if addr > uintptrMax - size then false else e.base ≤ addr && addr + size ≤ e.top

@[irreducible] def sgxIsCompletelyOutsideEnclave (e : Enclave) (addr size : Nat) : Bool :=
  if addr > uintptrMax - size then false else e.base ≥ addr + size || e.top ≤ addr

/-- `(uint64_t) a - b` -/
@[irreducible] def subWrap (a b : Nat) : Nat := (a + 2 ^ 64 - b % 2 ^ 64) % 2 ^ 64

/-- The old pointer is returned.  Below the top the red zone is left out. -/
def sgxPrepareUstack (e : Enclave) : Wrapper Nat := fun oldUstack =>
  { result := oldUstack
    state := if oldUstack ≠ e.ustackTop then subWrap oldUstack redZoneSize else oldUstack
    events := [] }

/-- `size` bytes below the pointer, aligned downwards. -/
def ustackBelow (ustack size alignment : Nat) : Nat :=
  subWrap ustack size - (subWrap ustack size &&& (alignment - 1))

/-- NULL when the bytes are not outside. -/
def allocated (e : Enclave) (ustack size alignment : Nat) : Nat :=
  if sgxIsCompletelyOutsideEnclave e (ustackBelow ustack size alignment) size = false then 0
  else ustackBelow ustack size alignment

def sgxAllocOnUstackAligned (e : Enclave) (size alignment : Nat) : Wrapper Nat := fun ustack =>
  { result := allocated e ustack size alignment
    state :=
      if sgxIsCompletelyOutsideEnclave e (ustackBelow ustack size alignment) size = false then
        ustack
      else ustackBelow ustack size alignment
    events := [] }

def sgxAllocOnUstack (e : Enclave) (size : Nat) : Wrapper Nat := sgxAllocOnUstackAligned e size 1

def sgxCopyToUstack (e : Enclave) (ptr size : Nat) : Wrapper Nat :=
  if sgxIsCompletelyWithinEnclave e ptr size = false then pure 0
  else do
    let uptr ← sgxAllocOnUstack e size
    if uptr ≠ 0 then do
      emit (.store uptr size)
      pure uptr
    else pure uptr

def sgxResetUstack (oldUstack : Nat) : Wrapper Unit := fun _ =>
  { result := (), state := oldUstack, events := [] }

def sgxCopyToEnclave (e : Enclave) (ptr maxsize uptr usize : Nat) : Wrapper Bool :=
  if usize > maxsize ∨ sgxIsCompletelyOutsideEnclave e uptr usize = false ∨
      sgxIsCompletelyWithinEnclave e ptr usize = false then pure false
  else do
    emit (.copyIn ptr uptr usize)
    pure true

/-! ## Memory of the host -/

/-- `sizeof(ms_ocall_alloc_untrusted_t)`, and of its counterpart -/
def msMemSize : Nat := 16

/-- The two reads of `ms->ms_mem` may differ. -/
structure AllocReply where
  ret : Int
  memChecked : Nat
  mem : Nat

/-- The return value, and what is left in `*mem`, NULL before. -/
def ocallAllocUntrusted (e : Enclave) (size : Nat) (r : AllocReply) : Wrapper (Int × Nat) := do
  let oldUstack ← sgxPrepareUstack e
  let ms ← sgxAllocOnUstackAligned e msMemSize 8
  emit (.store ms msMemSize)
  if r.ret = 0 then
    if sgxIsCompletelyWithinEnclave e r.memChecked size then do
      sgxResetUstack oldUstack
      pure (-1, 0)
    else do
      sgxResetUstack oldUstack
      pure (0, r.mem)
  else do
    sgxResetUstack oldUstack
    pure (r.ret, 0)

def ocallUnmapUntrusted (e : Enclave) (mem size : Nat) (ret : Int) : Wrapper Int := do
  let oldUstack ← sgxPrepareUstack e
  if sgxIsCompletelyWithinEnclave e mem size then do
    sgxResetUstack oldUstack
    pure (-1)
  else do
    let ms ← sgxAllocOnUstackAligned e msMemSize 8
    emit (.store ms msMemSize)
    sgxResetUstack oldUstack
    pure ret

/-! ## What is safe -/

/-- No byte of the range is the enclave's. -/
def Enclave.Outside (e : Enclave) (addr size : Nat) : Prop :=
  ∀ i < size, ¬ (e.base ≤ (addr + i) % 2 ^ 64 ∧ (addr + i) % 2 ^ 64 < e.top)

instance (e : Enclave) (addr size : Nat) : Decidable (e.Outside addr size) :=
  inferInstanceAs (Decidable (∀ i < size, ¬ _))

/-- Memory that a caller hands to a wrapper; NULL is no memory. -/
structure Region where
  addr : Nat
  size : Nat
  null : addr = 0 → size = 0

def Region.Covers (b : Region) (addr size : Nat) : Prop :=
  b.addr ≤ addr ∧ addr + size ≤ b.addr + b.size

instance (b : Region) (addr size : Nat) : Decidable (b.Covers addr size) :=
  inferInstanceAs (Decidable (_ ∧ _))

/-- What stands at a pointer that may be NULL. -/
def Region.ofPtr (addr size : Nat) : Region where
  addr := addr
  size := if addr = 0 then 0 else size
  null h := if_pos h

/-- In the enclave only the caller's memory is written, and only with bytes from outside. -/
def Event.Safe (e : Enclave) (buffers : List Region) : Event → Prop
  | .store dst size => e.Outside dst size ∨ ∃ b ∈ buffers, b.Covers dst size
  | .copyIn dst src size => (∃ b ∈ buffers, b.Covers dst size) ∧ e.Outside src size

instance (e : Enclave) (buffers : List Region) : (ev : Event) → Decidable (ev.Safe e buffers)
  | .store .. => inferInstanceAs (Decidable (_ ∨ _))
  | .copyIn .. => inferInstanceAs (Decidable (_ ∧ _))

/-- Every event is safe. -/
def AllSafe (e : Enclave) (buffers : List Region) (events : List Event) : Prop :=
  ∀ ev ∈ events, ev.Safe e buffers

instance (e : Enclave) (buffers : List Region) (events : List Event) :
    Decidable (AllSafe e buffers events) := inferInstanceAs (Decidable (∀ ev ∈ events, _))

variable {e : Enclave} {buffers : List Region}

@[simp] theorem allSafe_nil : AllSafe e buffers [] := fun _ mem => nomatch mem

@[simp] theorem allSafe_cons {ev : Event} {events : List Event} :
    AllSafe e buffers (ev :: events) ↔ ev.Safe e buffers ∧ AllSafe e buffers events :=
  List.forall_mem_cons

@[simp] theorem allSafe_append {events events' : List Event} :
    AllSafe e buffers (events ++ events') ↔ AllSafe e buffers events ∧ AllSafe e buffers events' :=
  List.forall_mem_append

theorem outside_of_check {addr size : Nat}
    (check : sgxIsCompletelyOutsideEnclave e addr size = true) : e.Outside addr size := by
  rw [sgxIsCompletelyOutsideEnclave, uintptrMax] at check
  by_cases wraps : addr > 2 ^ 64 - 1 - size
  · rw [if_pos wraps] at check
    nomatch check
  · rw [if_neg wraps, Bool.or_eq_true, decide_eq_true_eq, decide_eq_true_eq] at check
    intro i inside
    have := Nat.mod_le (addr + i) (2 ^ 64)
    rcases check with below | above
    · omega
    · by_cases fits : addr + i < 2 ^ 64
      · rw [Nat.mod_eq_of_lt fits]
        omega
      · omega

/-! ## The untrusted stack -/

/-- The pointer after `sgx_prepare_ustack`. -/
def prepared (e : Enclave) (ustack : Nat) : Nat :=
  if ustack ≠ e.ustackTop then subWrap ustack redZoneSize else ustack

/-- Where a wrapper that is called with this pointer puts its `ms` structure. -/
def msAt (e : Enclave) (ustack size : Nat) : Nat := allocated e (prepared e ustack) size 8

def MsOutside (e : Enclave) (ustack size : Nat) : Prop := e.Outside (msAt e ustack size) size

instance (e : Enclave) (ustack size : Nat) : Decidable (MsOutside e ustack size) :=
  inferInstanceAs (Decidable (e.Outside _ _))

theorem run_sgxPrepareUstack (e : Enclave) (ustack : Nat) : (sgxPrepareUstack e).run ustack =
    { result := ustack, state := prepared e ustack, events := [] } := rfl

theorem run_sgxResetUstack (old ustack : Nat) : (sgxResetUstack old).run ustack =
    { result := (), state := old, events := [] } := rfl

theorem run_sgxAllocOnUstackAligned (e : Enclave) (size alignment ustack : Nat) : ∃ ustack',
    (sgxAllocOnUstackAligned e size alignment).run ustack =
      { result := allocated e ustack size alignment, state := ustack', events := [] } :=
  ⟨_, rfl⟩

/-- The `ms` structure of a wrapper. -/
theorem run_allocMs (e : Enclave) (size ustack : Nat) : ∃ ustack',
    (sgxAllocOnUstackAligned e size 8).run (prepared e ustack) =
      { result := msAt e ustack size, state := ustack', events := [] } :=
  run_sgxAllocOnUstackAligned e size 8 (prepared e ustack)

theorem allocated_outside {ustack size alignment : Nat}
    (h : allocated e ustack size alignment ≠ 0) :
    e.Outside (allocated e ustack size alignment) size := by
  rw [allocated] at h ⊢
  by_cases check : sgxIsCompletelyOutsideEnclave e (ustackBelow ustack size alignment) size = false
  · exact absurd (if_pos check) h
  · rw [if_neg check]
    exact outside_of_check (eq_true_of_ne_false check)

/-- A store to an `ms` structure does not reach the caller's memory by chance: NULL is no
    memory of a caller. -/
theorem safe_storeMs_iff {ustack size : Nat} (pos : 0 < size) :
    (Event.store (msAt e ustack size) size).Safe e buffers ↔ MsOutside e ustack size := by
  refine ⟨fun safe => ?_, Or.inl⟩
  rcases safe with outside | ⟨b, -, lower, upper⟩
  · exact outside
  · by_cases null : msAt e ustack size = 0
    · rw [null] at lower upper
      have := b.null (Nat.le_zero.mp lower)
      omega
    · exact allocated_outside null

end SandboxTEE.Xcall
