import Mathlib.Algebra.Group.Int.Defs
import Mathlib.Data.Finset.Basic
import SandboxTEE.Lib.LowBits
import SandboxTEE.Lib.Run

/-! # Stacks of threads (`nc_thread.c`)

The memory blocks that `pthread_create` takes stacks from, and that `pthread_exit` puts into the
queue `__nc_thread_stack_blocks` while the thread still runs on them; `thread_exit` clears
`is_used` later.  `malloc` returns a block that overlaps none of these that are allocated.

* `required_size` is an `int`: of a stack of almost `2^31` bytes or more it is negative or too small,
  and a cached block of any size is then large enough for it (`Roomy`).
-/

namespace SandboxTEE.Pthread.ThreadStack

open SandboxTEE.Lib

/-- An address of the sandbox. -/
abbrev Addr := BitVec 32

def kStackAlignment : BitVec 32 := 32

def ncKMaxCachedMemoryBlocks : Int := 50

def pthreadStackMin : Nat := 1024

def pthreadStackDefault : BitVec 32 := 512 * 1024

/-- `sizeof(nc_thread_memory_block_t)`. -/
def headerSize : Nat := 32

def align (offset alignment : BitVec 32) : BitVec 32 := (offset + alignment - 1) &&& ~~~(alignment - 1)

/-- `pthread_attr_t`, as `pthread_attr_init` and `pthread_attr_setstacksize` make it. -/
structure PthreadAttr where
  stacksize : BitVec 32
  min : pthreadStackMin ≤ stacksize.toNat

def pthreadAttrInit : PthreadAttr := ⟨pthreadStackDefault, by decide⟩

def pthreadAttrSetstacksize (stacksize : BitVec 32) : PthreadAttr :=
  if h : pthreadStackMin < stacksize.toNat then ⟨stacksize, h.le⟩
  else ⟨BitVec.ofNat 32 pthreadStackMin, by decide⟩

/-- The size of the stack that is asked for. -/
def stacksizeOf (attr : Option PthreadAttr) : BitVec 32 :=
  (attr.map PthreadAttr.stacksize).getD pthreadStackDefault

/-- `nc_thread_memory_block_t`, and what `malloc` was asked for. -/
structure Block where
  isUsed : Bool
  size : Int
  bytes : Nat

structure Stack where
  stackNode : Addr
  threadStack : Addr
  stacksize : BitVec 32
deriving DecidableEq

inductive Life where
  | unborn
  /-- `pthread_create` has a stack, `thread_create` is to come. -/
  | starting (stack : Stack)
  | running (stack : Stack)
  /-- `pthread_exit` has put the block into the queue, `thread_exit` is to come. -/
  | leaving (stack : Stack)
  | gone
deriving DecidableEq

/-- The stack of a thread that has not yet executed `thread_exit`. -/
def Life.stack : Life → Option Stack
  | .starting stack | .running stack | .leaving stack => some stack
  | .unborn | .gone => none

structure State (ι : Type) where
  /-- The nodes that are allocated. -/
  nodes : Finset Addr
  block : Addr → Block
  /-- `__nc_thread_stack_blocks`. -/
  queue : List Addr
  /-- `__nc_thread_stack_blocks_count`. -/
  count : Int
  life : ι → Life

/-- No thread but the initial one, which runs on another stack. -/
def State.init {ι : Type} : State ι := ⟨∅, fun _ => ⟨false, 0, 0⟩, [], 0, fun _ => .unborn⟩

variable {ι : Type}

/-! ## The source functions -/

/-- The argument of `nc_allocate_memory_block_mu`, converted to `int`. -/
def requiredSize (stacksize : BitVec 32) : Int := (stacksize + kStackAlignment - 1).toInt

/-- `MEMORY_BLOCK_ALLOCATION_SIZE`, a `size_t`. -/
def memoryBlockAllocationSize (requiredSize : Int) : Nat :=
  (BitVec.ofInt 32 (headerSize + requiredSize)).toNat

/-- The first block of the queue, if it can be used. -/
def State.cached (s : State ι) (requiredSize : Int) : Option Addr :=
  s.queue.head?.filter fun node =>
    !(s.block node).isUsed && decide (requiredSize ≤ (s.block node).size)

/-- The loop that releases blocks. -/
def trim : List Addr → State ι → State ι
  | [], s => s
  | node :: rest, s =>
    if ncKMaxCachedMemoryBlocks < s.count ∧ (s.block node).isUsed = false then
      trim rest { s with queue := rest, count := s.count - 1, nodes := s.nodes.erase node }
    else s

/-- `is_used` is set. -/
def State.mark (s : State ι) (node : Addr) (isUsed : Bool) : State ι :=
  { s with block := Function.update s.block node { s.block node with isUsed := isUsed } }

def ncAllocateMemoryBlockMu (s : State ι) (requiredSize : Int) (mallocs : Option Addr) :
    State ι × Option Addr :=
  match s.cached requiredSize with
  | some node =>
    let s := { s with queue := s.queue.tail, count := s.count - 1 }
    (s.mark node true, some node)
  | none =>
    let s := trim s.queue s
    match mallocs with
    | some node =>
      let block := ⟨true, requiredSize, memoryBlockAllocationSize requiredSize⟩
      ({ s with nodes := insert node s.nodes, block := Function.update s.block node block },
        some node)
    | none => (s, none)

def ncFreeMemoryBlockMu (s : State ι) (node : Addr) : State ι :=
  { s with queue := s.queue ++ [node], count := s.count + 1 }

def ncMemoryBlockToPayload (node : Addr) : Addr := node + BitVec.ofNat 32 headerSize

section Runs

variable [DecidableEq ι]

def State.now (s : State ι) (t : ι) (life : Life) : State ι :=
  { s with life := Function.update s.life t life }

/-- The stack that `pthread_create` finds for the thread `t`; without one it returns `EAGAIN`. -/
def pthreadCreate (s : State ι) (t : ι) (attr : Option PthreadAttr) (mallocs : Option Addr) :
    State ι :=
  let stacksize := stacksizeOf attr
  let (s, node) := ncAllocateMemoryBlockMu s (requiredSize stacksize) mallocs
  match node with
  | some node =>
    s.now t (.starting ⟨node, align (ncMemoryBlockToPayload node) kStackAlignment, stacksize⟩)
  | none => s.now t .gone

/-! ## Runs -/

inductive Event (ι : Type) where
  | create (t : ι) (attr : Option PthreadAttr) (mallocs : Option Addr)
  /-- `thread_create` starts the thread or fails. -/
  | start (t : ι) (ok : Bool)
  | exit (t : ι)
  | threadExit (t : ι)

/-- What `malloc` may return: a block of the sandbox's memory, of which the first 64 KiB are never
    mapped. -/
def Mallocs (s : State ι) (bytes : Nat) (mallocs : Option Addr) : Prop :=
  ∀ node ∈ mallocs, 0x10000 ≤ node.toNat ∧ node.toNat + bytes ≤ 2 ^ 32 ∧ node ∉ s.nodes ∧
    ∀ other ∈ s.nodes, node.toNat + bytes ≤ other.toNat ∨
      other.toNat + (s.block other).bytes ≤ node.toNat

-- not by a search through all addresses
instance (s : State ι) (bytes : Nat) (mallocs : Option Addr) : Decidable (Mallocs s bytes mallocs) :=
  @Option.decidableForallMem _ _
    (fun _ => @instDecidableAnd _ _ _ (@instDecidableAnd _ _ _ (@instDecidableAnd _ _ _
      Finset.decidableDforallFinset))) mallocs

def step (s : State ι) : Event ι → Option (State ι)
  | .create t attr mallocs =>
    let required := requiredSize (stacksizeOf attr)
    if s.life t = .unborn ∧ ((s.cached required).isSome ∨
        Mallocs (trim s.queue s) (memoryBlockAllocationSize required) mallocs) then
      some (pthreadCreate s t attr mallocs)
    else none
  | .start t ok =>
    match s.life t with
    | .starting stack =>
      some (if ok then s.now t (.running stack)
        else (ncFreeMemoryBlockMu (s.mark stack.stackNode false) stack.stackNode).now t .gone)
    | _ => none
  | .exit t =>
    match s.life t with
    | .running stack => some ((ncFreeMemoryBlockMu s stack.stackNode).now t (.leaving stack))
    | _ => none
  | .threadExit t =>
    match s.life t with
    | .leaving stack => some ((s.mark stack.stackNode false).now t .gone)
    | _ => none

end Runs

/-! ## Sizes -/

/-- The size as `size_t`. -/
def unsigned (size : Int) : Nat := (BitVec.ofInt 32 size).toNat

theorem unsigned_eq {size : Int} (lower : -2 ^ 31 ≤ size) (upper : size < 2 ^ 31) :
    (unsigned size : Int) = if size < 0 then size + 2 ^ 32 else size := by
  rw [unsigned, BitVec.toNat_ofInt]
  omega

theorem toNat_padded {n : BitVec 32} (small : n.toNat + 31 < 2 ^ 32) :
    (n + kStackAlignment - 1).toNat = n.toNat + 31 := by
  have alignment : kStackAlignment.toNat = 32 := rfl
  have one : (1 : BitVec 32).toNat = 1 := rfl
  rw [BitVec.toNat_sub, BitVec.toNat_add]
  omega

variable {stacksize : BitVec 32}

theorem unsigned_requiredSize (small : stacksize.toNat + 31 < 2 ^ 32) :
    unsigned (requiredSize stacksize) = stacksize.toNat + 31 := by
  rw [unsigned, requiredSize, BitVec.ofInt_toInt, toNat_padded small]

theorem requiredSize_range (stacksize : BitVec 32) :
    -2 ^ 31 ≤ requiredSize stacksize ∧ requiredSize stacksize < 2 ^ 31 :=
  ⟨BitVec.le_toInt _, BitVec.toInt_lt⟩

/-- `malloc` is asked for room for the header, the stack and its alignment. -/
theorem memoryBlockAllocationSize_eq (size : Int) (small : unsigned size + 32 < 2 ^ 32) :
    memoryBlockAllocationSize size = headerSize + unsigned size := by
  have sum : (headerSize + size : Int) = 32 + size := rfl
  unfold unsigned at small ⊢
  rw [memoryBlockAllocationSize, sum, headerSize]
  simp only [BitVec.toNat_ofInt] at small ⊢
  omega

/-- Aligning moves an address up by less than the alignment. -/
theorem align_range (payload : Addr) (below : payload.toNat + 31 < 2 ^ 32) :
    payload.toNat ≤ (align payload kStackAlignment).toNat ∧
      (align payload kStackAlignment).toNat ≤ payload.toNat + 31 := by
  have parts := toNat_and_not (payload + kStackAlignment - 1) (kStackAlignment - 1)
  have cleared : ((payload + kStackAlignment - 1) &&& (kStackAlignment - 1)).toNat ≤ 31 := by
    rw [BitVec.toNat_and]
    exact Nat.and_le_right
  rw [toNat_padded below] at parts
  unfold align
  omega

/-! ## The invariant -/

/-- The stack lies in the payload of its block. -/
def Stack.Inside (stack : Stack) (block : Block) : Prop :=
  stack.stackNode.toNat + headerSize ≤ stack.threadStack.toNat ∧
    stack.threadStack.toNat + stack.stacksize.toNat ≤ stack.stackNode.toNat + block.bytes

/-- A block that is as large as its header says, all of it in the sandbox. -/
structure Block.Whole (block : Block) (node : Addr) : Prop where
  lower : -2 ^ 31 ≤ block.size
  upper : block.size < 2 ^ 31
  bytes : block.bytes = headerSize + unsigned block.size
  within : node.toNat + block.bytes ≤ 2 ^ 32

structure Inv (s : State ι) : Prop where
  whole : ∀ node ∈ s.nodes, (s.block node).Whole node
  apart : ∀ node ∈ s.nodes, ∀ other ∈ s.nodes, node ≠ other →
    node.toNat + (s.block node).bytes ≤ other.toNat ∨
      other.toNat + (s.block other).bytes ≤ node.toNat
  queued : ∀ node ∈ s.queue, node ∈ s.nodes
  nodup : s.queue.Nodup
  count : s.count = s.queue.length
  held : ∀ t stack, (s.life t).stack = some stack → stack.stackNode ∈ s.nodes ∧
    (s.block stack.stackNode).isUsed = true ∧ stack.Inside (s.block stack.stackNode)
  alone : ∀ t u stack stack', (s.life t).stack = some stack → (s.life u).stack = some stack' →
    stack.stackNode = stack'.stackNode → t = u
  unqueued : ∀ t stack, s.life t = .starting stack ∨ s.life t = .running stack →
    stack.stackNode ∉ s.queue

theorem Inv.init : Inv (State.init : State ι) := by
  refine ⟨?_, ?_, ?_, List.nodup_nil, rfl, ?_, ?_, ?_⟩
  · intro node among
    cases among
  · intro node among
    cases among
  · intro node among
    cases among
  · intro t stack holds
    cases holds
  · intro t u stack stack' holds
    cases holds
  · intro t stack holds
    cases holds with
    | inl starting => cases starting
    | inr running => cases running

theorem Inv.mark {s : State ι} {node : Addr} {isUsed : Bool} (inv : Inv s)
    (used : ∀ t stack, (s.life t).stack = some stack → stack.stackNode = node → isUsed = true) :
    Inv (s.mark node isUsed) := by
  have bytes : ∀ other, ((s.mark node isUsed).block other).bytes = (s.block other).bytes := by
    intro other
    by_cases same : other = node <;> simp [State.mark, same]
  refine ⟨?_, ?_, inv.queued, inv.nodup, inv.count, ?_, inv.alone, inv.unqueued⟩
  · intro other among
    have whole := inv.whole other among
    by_cases same : other = node
    · rw [same] at whole ⊢
      simp only [State.mark, Function.update_self]
      exact ⟨whole.lower, whole.upper, whole.bytes, whole.within⟩
    · simpa [State.mark, same] using whole
  · intro a among b among' differ
    rw [bytes a, bytes b]
    exact inv.apart a among b among' differ
  · intro t stack holds
    obtain ⟨among, inUse, inside⟩ := inv.held t stack holds
    refine ⟨among, ?_, ?_⟩
    · by_cases same : stack.stackNode = node
      · simpa [State.mark, same] using used t stack holds same
      · simpa [State.mark, same] using inUse
    · unfold Stack.Inside
      rw [bytes]
      exact inside

variable {node : Addr} {s : State ι}

theorem Inv.dequeue {rest : List Addr} (inv : Inv s) (front : s.queue = node :: rest) :
    Inv { s with queue := rest, count := s.count - 1 } := by
  have within : ∀ other ∈ rest, other ∈ s.queue := by
    intro other among
    rw [front]
    exact List.mem_cons_of_mem _ among
  refine ⟨inv.whole, inv.apart, ?_, ?_, ?_, inv.held, inv.alone, ?_⟩
  · intro other among
    exact inv.queued other (within other among)
  · have nodup := inv.nodup
    rw [front] at nodup
    exact (List.nodup_cons.mp nodup).2
  · have count := inv.count
    rw [front, List.length_cons] at count
    simp only [count]
    omega
  · intro t stack holds among
    exact inv.unqueued t stack holds (within _ among)

theorem Inv.free (inv : Inv s) (unqueued : node ∉ s.queue)
    (unused : (s.block node).isUsed = false) : Inv { s with nodes := s.nodes.erase node } := by
  refine ⟨?_, ?_, ?_, inv.nodup, inv.count, ?_, inv.alone, inv.unqueued⟩
  · intro other among
    exact inv.whole other (Finset.mem_of_mem_erase among)
  · intro a among b among'
    exact inv.apart a (Finset.mem_of_mem_erase among) b (Finset.mem_of_mem_erase among')
  · intro other among
    refine Finset.mem_erase.mpr ⟨?_, inv.queued other among⟩
    rintro rfl
    exact unqueued among
  · intro t stack holds
    obtain ⟨among, inUse, inside⟩ := inv.held t stack holds
    refine ⟨Finset.mem_erase.mpr ⟨?_, among⟩, inUse, inside⟩
    rintro same
    rw [same, unused] at inUse
    cases inUse

theorem Inv.trim {queue : List Addr} (inv : Inv s) (isQueue : s.queue = queue) :
    Inv (trim queue s) := by
  induction queue generalizing s with
  | nil => exact inv
  | cons node rest ih =>
    unfold ThreadStack.trim
    split
    · next release =>
      apply ih _ rfl
      have taken := inv.dequeue isQueue
      refine taken.free ?_ release.2
      have nodup := inv.nodup
      rw [isQueue] at nodup
      exact (List.nodup_cons.mp nodup).1
    · exact inv

theorem trim_life (queue : List Addr) (s : State ι) : (trim queue s).life = s.life := by
  induction queue generalizing s with
  | nil => rfl
  | cons node rest ih =>
    unfold trim
    split
    · rw [ih]
    · rfl

theorem Inv.insert {block : Block} (inv : Inv s) (fresh : node ∉ s.nodes) (whole : block.Whole node)
    (apart : ∀ other ∈ s.nodes, node.toNat + block.bytes ≤ other.toNat ∨
      other.toNat + (s.block other).bytes ≤ node.toNat) :
    Inv { s with nodes := insert node s.nodes, block := Function.update s.block node block } := by
  have old : ∀ other ∈ s.nodes, Function.update s.block node block other = s.block other := by
    intro other among
    apply Function.update_of_ne
    rintro rfl
    exact fresh among
  refine ⟨?_, ?_, ?_, inv.nodup, inv.count, ?_, inv.alone, inv.unqueued⟩
  · intro other among
    cases Finset.mem_insert.mp among with
    | inl same => simpa [same] using whole
    | inr among =>
      simp only [old other among]
      exact inv.whole other among
  · intro a among b among' differ
    cases Finset.mem_insert.mp among with
    | inl new =>
      cases Finset.mem_insert.mp among' with
      | inl new' => exact absurd (new.trans new'.symm) differ
      | inr among' => simpa [new, old b among'] using apart b among'
    | inr among =>
      cases Finset.mem_insert.mp among' with
      | inl new' => simpa [new', old a among] using (apart a among).symm
      | inr among' =>
        simp only [old a among, old b among']
        exact inv.apart a among b among' differ
  · intro other among
    exact Finset.mem_insert_of_mem (inv.queued other among)
  · intro t stack holds
    obtain ⟨among, inUse, inside⟩ := inv.held t stack holds
    simp only [old _ among]
    exact ⟨Finset.mem_insert_of_mem among, inUse, inside⟩

theorem Inv.enqueue (inv : Inv s) (among : node ∈ s.nodes) (fresh : node ∉ s.queue)
    (left : ∀ t stack, s.life t = .starting stack ∨ s.life t = .running stack →
      stack.stackNode ≠ node) : Inv (ncFreeMemoryBlockMu s node) := by
  refine ⟨inv.whole, inv.apart, ?_, ?_, ?_, inv.held, inv.alone, ?_⟩
  · intro other queued
    cases List.mem_append.mp queued with
    | inl old => exact inv.queued other old
    | inr new =>
      rw [List.mem_singleton.mp new]
      exact among
  · exact inv.nodup.append (List.nodup_singleton node) (by simpa using fresh)
  · simp [ncFreeMemoryBlockMu, inv.count]
  · intro t stack holds queued
    cases List.mem_append.mp queued with
    | inl old => exact inv.unqueued t stack holds old
    | inr new => exact left t stack holds (List.mem_singleton.mp new)

/-- A block of the requested size that a new thread may use. -/
structure Found (s : State ι) (node : Addr) (room : Nat) : Prop where
  among : node ∈ s.nodes
  isUsed : (s.block node).isUsed = true
  unqueued : node ∉ s.queue
  unheld : ∀ t stack, (s.life t).stack = some stack → stack.stackNode ≠ node
  room : headerSize + room ≤ (s.block node).bytes

/-- The size that is asked for fits `int`; or there is room for it in 32 bits, and the first block
    of the queue is no block of a smaller size. -/
def Roomy (s : State ι) (stacksize : BitVec 32) : Prop :=
  stacksize.toNat + 63 < 2 ^ 32 ∧ (2 ^ 31 ≤ stacksize.toNat + 31 →
    ∀ node ∈ s.queue.head?, (s.block node).isUsed = true ∨ (s.block node).size < 0)

instance (s : State ι) (stacksize : BitVec 32) : Decidable (Roomy s stacksize) :=
  @instDecidableAnd _ _ _
    (@instDecidableForall _ _ _ (Option.decidableForallMem s.queue.head?))

theorem cached_eq {required : Int} (found : s.cached required = some node) :
    ∃ rest, s.queue = node :: rest ∧ (s.block node).isUsed = false ∧
      required ≤ (s.block node).size := by
  obtain ⟨front, fits⟩ := Option.filter_eq_some_iff.mp found
  simp only [Bool.and_eq_true, Bool.not_eq_true', decide_eq_true_eq] at fits
  obtain ⟨rest, isQueue⟩ := List.head?_eq_some_iff.mp front
  exact ⟨rest, isQueue, fits⟩

/-- A cached block that is large enough as an `int` has room. -/
theorem Roomy.cached (inv : Inv s) (roomy : Roomy s stacksize)
    (found : s.cached (requiredSize stacksize) = some node) :
    headerSize + (stacksize.toNat + 31) ≤ (s.block node).bytes := by
  obtain ⟨rest, front, unused, fits⟩ := cached_eq found
  have whole := inv.whole node (inv.queued node (by simp [front]))
  have size := unsigned_eq whole.lower whole.upper
  have range := requiredSize_range stacksize
  have required := unsigned_eq range.1 range.2
  rw [unsigned_requiredSize (by have := roomy.1; omega)] at required
  have large := roomy.2
  simp only [front, List.head?_cons, Option.mem_some_iff, forall_eq', unused, Bool.false_eq_true,
    false_or] at large
  rw [whole.bytes]
  omega

theorem Inv.allocate {mallocs : Option Addr} (inv : Inv s) (roomy : Roomy s stacksize)
    (malloc : (s.cached (requiredSize stacksize)).isSome ∨
      Mallocs (ThreadStack.trim s.queue s) (memoryBlockAllocationSize (requiredSize stacksize))
        mallocs) : Inv (ncAllocateMemoryBlockMu s (requiredSize stacksize) mallocs).1 ∧
      (ncAllocateMemoryBlockMu s (requiredSize stacksize) mallocs).1.life = s.life ∧
      ∀ node, (ncAllocateMemoryBlockMu s (requiredSize stacksize) mallocs).2 = some node →
        Found (ncAllocateMemoryBlockMu s (requiredSize stacksize) mallocs).1 node
          (stacksize.toNat + 31) := by
  cases found : s.cached (requiredSize stacksize) with
  | some node =>
    have room := roomy.cached inv found
    obtain ⟨rest, front, unused, -⟩ := cached_eq found
    simp only [ncAllocateMemoryBlockMu, found, front, List.tail_cons, Option.some.injEq,
      forall_eq']
    have unheld : ∀ t stack, (s.life t).stack = some stack → stack.stackNode ≠ node := by
      rintro t stack holds rfl
      rw [(inv.held t stack holds).2.1] at unused
      cases unused
    refine ⟨(inv.dequeue front).mark fun _ _ _ _ => rfl, rfl, ?_, ?_, ?_, unheld, ?_⟩
    · exact inv.queued node (by simp [front])
    · simp [State.mark]
    · have nodup := inv.nodup
      rw [front] at nodup
      exact (List.nodup_cons.mp nodup).1
    · simpa [State.mark] using room
  | none =>
    have trimmed := inv.trim (Eq.refl s.queue)
    rw [found] at malloc
    have mallocOk := malloc.resolve_left (by simp)
    simp only [ncAllocateMemoryBlockMu, found]
    cases mallocs with
    | none => exact ⟨trimmed, trim_life .., by simp⟩
    | some node =>
      obtain ⟨-, within, fresh, apart⟩ := mallocOk node rfl
      have required : unsigned (requiredSize stacksize) = stacksize.toNat + 31 :=
        unsigned_requiredSize (by have := roomy.1; omega)
      have bytes := memoryBlockAllocationSize_eq (requiredSize stacksize)
        (by have := roomy.1; omega)
      have range := requiredSize_range stacksize
      simp only [Option.some.injEq, forall_eq']
      refine ⟨trimmed.insert fresh ⟨range.1, range.2, bytes, within⟩ apart, trim_life .., ?_⟩
      refine ⟨Finset.mem_insert_self _ _, by simp, ?_, ?_, ?_⟩
      · intro queued
        exact fresh (trimmed.queued node queued)
      · rintro t stack holds rfl
        exact fresh (trimmed.held t stack holds).1
      · simp [bytes, required]

theorem Found.inside {s : State ι} {node : Addr} {stacksize : BitVec 32} (inv : Inv s)
    (found : Found s node (stacksize.toNat + 31)) (positive : 0 < stacksize.toNat) :
    Stack.Inside ⟨node, align (ncMemoryBlockToPayload node) kStackAlignment, stacksize⟩
      (s.block node) := by
  have within := (inv.whole node found.among).within
  have room := found.room
  have header : (BitVec.ofNat 32 headerSize).toNat = 32 := rfl
  have payload : (ncMemoryBlockToPayload node).toNat = node.toNat + headerSize := by
    rw [ncMemoryBlockToPayload, BitVec.toNat_add, header]
    simp only [headerSize] at *
    omega
  have aligned := align_range (ncMemoryBlockToPayload node) (by omega)
  simp only [Stack.Inside]
  omega

section Steps

variable [DecidableEq ι]

variable {life : Life} {t : ι} {s : State ι}

/-- A thread gets a stack, goes on with it or gives it up. -/
theorem Inv.now (inv : Inv s) (held : ∀ stack, life.stack = some stack → stack.stackNode ∈ s.nodes ∧
      (s.block stack.stackNode).isUsed = true ∧ stack.Inside (s.block stack.stackNode))
    (alone : ∀ stack, life.stack = some stack → ∀ u, u ≠ t → ∀ stack',
      (s.life u).stack = some stack' → stack'.stackNode ≠ stack.stackNode)
    (unqueued : ∀ stack, life = .starting stack ∨ life = .running stack →
      stack.stackNode ∉ s.queue) : Inv (s.now t life) := by
  have here : (s.now t life).life t = life := Function.update_self ..
  have there : ∀ u, u ≠ t → (s.now t life).life u = s.life u := by
    intro u other
    exact Function.update_of_ne other ..
  refine ⟨inv.whole, inv.apart, inv.queued, inv.nodup, inv.count, ?_, ?_, ?_⟩
  · intro u stack holds
    by_cases same : u = t
    · rw [same, here] at holds
      exact held stack holds
    · rw [there u same] at holds
      exact inv.held u stack holds
  · intro u v stack stack' holds holds' same
    by_cases isT : u = t
    · rw [isT, here] at holds
      by_cases isT' : v = t
      · exact isT.trans isT'.symm
      · rw [there v isT'] at holds'
        exact absurd same.symm (alone stack holds v isT' stack' holds')
    · rw [there u isT] at holds
      by_cases isT' : v = t
      · rw [isT', here] at holds'
        exact absurd same (alone stack' holds' u isT stack holds)
      · rw [there v isT'] at holds'
        exact inv.alone u v stack stack' holds holds' same
  · intro u stack holds
    by_cases same : u = t
    · rw [same, here] at holds
      exact unqueued stack holds
    · rw [there u same] at holds
      exact inv.unqueued u stack holds

theorem Inv.gone (inv : Inv s) (t : ι) : Inv (s.now t .gone) := by
  apply inv.now
  · simp [Life.stack]
  · simp [Life.stack]
  · simp

variable {stack : Stack}

theorem Inv.goOn (inv : Inv s) (before : (s.life t).stack = some stack)
    (after : life.stack = some stack) (unqueued : stack.stackNode ∉ s.queue) :
    Inv (s.now t life) := by
  have same : ∀ stack', life.stack = some stack' → stack' = stack := by
    intro stack' holds
    rw [after] at holds
    exact (Option.some.inj holds).symm
  apply inv.now
  · intro stack' holds
    rw [same stack' holds]
    exact inv.held t stack before
  · intro stack' holds u other stack'' holds' equal
    rw [same stack' holds] at equal
    exact other (inv.alone u t stack'' stack holds' before equal)
  · intro stack' place
    have holds : life.stack = some stack' := by
      cases place with
      | inl starting => rw [starting, Life.stack]
      | inr running => rw [running, Life.stack]
    rw [same stack' holds]
    exact unqueued

/-- The stack of `t` is given up by `t` alone. -/
theorem Inv.unheld (inv : Inv s) (before : (s.life t).stack = some stack) (u : ι) (stack' : Stack)
    (holds : ((s.now t .gone).life u).stack = some stack') :
    stack'.stackNode ≠ stack.stackNode := by
  by_cases same : u = t
  · simp [same, State.now, Life.stack] at holds
  · simp only [State.now, Function.update_of_ne same] at holds
    intro equal
    exact same (inv.alone u t stack' stack holds before equal)

theorem stack_of (place : life = .starting stack ∨ life = .running stack) :
    life.stack = some stack := by
  cases place with
  | inl starting => rw [starting, Life.stack]
  | inr running => rw [running, Life.stack]

/-- The sizes that meet the condition, for the calls that take a stack. -/
def Event.Roomy (s : State ι) : Event ι → Prop
  | .create _ attr _ => ThreadStack.Roomy s (stacksizeOf attr)
  | _ => True

instance (s : State ι) : (event : Event ι) → Decidable (event.Roomy s)
  | .create _ attr _ => inferInstanceAs (Decidable (ThreadStack.Roomy s (stacksizeOf attr)))
  | .start .. | .exit _ | .threadExit _ => .isTrue trivial

theorem stacksizeOf_pos (attr : Option PthreadAttr) : 0 < (stacksizeOf attr).toNat := by
  cases attr with
  | none => decide
  | some attr => exact Nat.lt_of_lt_of_le (by decide) attr.min

theorem Inv.step {s' : State ι} {event : Event ι} (inv : Inv s) (roomy : event.Roomy s)
    (stepped : step s event = some s') : Inv s' := by
  cases event with
  | create t attr mallocs =>
    simp only [ThreadStack.step, Option.ite_none_right_eq_some, Option.some.injEq] at stepped
    obtain ⟨⟨unborn, malloc⟩, rfl⟩ := stepped
    obtain ⟨allocated, life, found⟩ := inv.allocate roomy malloc
    rw [pthreadCreate]
    cases taken : (ncAllocateMemoryBlockMu s (requiredSize (stacksizeOf attr)) mallocs).2 with
    | none => simpa only [taken] using allocated.gone t
    | some node =>
      have block := found node taken
      simp only [taken]
      apply allocated.now
      · simp only [Life.stack, Option.some.injEq, forall_eq']
        exact ⟨block.among, block.isUsed, block.inside allocated (stacksizeOf_pos attr)⟩
      · simp only [Life.stack, Option.some.injEq, forall_eq']
        intro u _ stack' holds
        exact block.unheld u stack' holds
      · intro stack place
        have same := stack_of place
        simp only [Life.stack, Option.some.injEq] at same
        rw [← same]
        exact block.unqueued
  | start t ok =>
    cases place : s.life t with
    | starting stack =>
      simp only [ThreadStack.step, place, Option.some.injEq] at stepped
      have before : (s.life t).stack = some stack := by rw [place, Life.stack]
      have unqueued := inv.unqueued t stack (.inl place)
      rw [← stepped]
      cases ok with
      | true => exact inv.goOn before rfl unqueued
      | false =>
        have unheld := inv.unheld before
        have marked : Inv ((s.now t .gone).mark stack.stackNode false) :=
          (inv.gone t).mark fun u stack' holds same => absurd same (unheld u stack' holds)
        exact marked.enqueue (inv.held t stack before).1 unqueued
          fun u stack' place' => unheld u stack' (stack_of place')
    | unborn | running | leaving | gone => simp [ThreadStack.step, place] at stepped
  | exit t =>
    cases place : s.life t with
    | running stack =>
      simp only [ThreadStack.step, place, Option.some.injEq] at stepped
      have before : (s.life t).stack = some stack := by rw [place, Life.stack]
      have unqueued := inv.unqueued t stack (.inr place)
      have left : Inv (s.now t (.leaving stack)) := inv.goOn before rfl unqueued
      rw [← stepped]
      refine left.enqueue (inv.held t stack before).1 unqueued ?_
      intro u stack' place' equal
      by_cases same : u = t
      · simp [same, State.now] at place'
      · simp only [State.now, Function.update_of_ne same] at place'
        exact same (inv.alone u t stack' stack (stack_of place') before equal)
    | unborn | starting | leaving | gone => simp [ThreadStack.step, place] at stepped
  | threadExit t =>
    cases place : s.life t with
    | leaving stack =>
      simp only [ThreadStack.step, place, Option.some.injEq] at stepped
      have before : (s.life t).stack = some stack := by rw [place, Life.stack]
      have unheld := inv.unheld before
      rw [← stepped]
      exact (inv.gone t).mark fun u stack' holds same => absurd same (unheld u stack' holds)
    | unborn | starting | running | gone => simp [ThreadStack.step, place] at stepped

/-- In every run in which no stack is asked for whose size does not fit, each stack lies in its
    block, two threads that have not executed `thread_exit` have blocks that do not overlap, and the
    queue holds each block once and is counted. -/
theorem threadStack_runs (events : List (Event ι)) (s : State ι)
    (run : events.foldlM step State.init = some s)
    (roomy : ∀ pre event, pre ++ [event] <+: events → ∀ before,
      pre.foldlM step State.init = some before → event.Roomy before) :
    (∀ t stack, (s.life t).stack = some stack → stack.Inside (s.block stack.stackNode) ∧
      ∀ u stack', u ≠ t → (s.life u).stack = some stack' →
        stack.stackNode.toNat + (s.block stack.stackNode).bytes ≤ stack'.stackNode.toNat ∨
          stack'.stackNode.toNat + (s.block stack'.stackNode).bytes ≤ stack.stackNode.toNat) ∧
      s.queue.Nodup ∧ s.count = s.queue.length := by
  have inv : Inv s :=
    @foldlM_invariant _ _ step Inv (fun s event => event.Roomy s)
      (fun _ _ _ inv roomy stepped => inv.step roomy stepped) events _ s Inv.init roomy run
  refine ⟨?_, inv.nodup, inv.count⟩
  intro t stack holds
  obtain ⟨among, -, inside⟩ := inv.held t stack holds
  refine ⟨inside, ?_⟩
  intro u stack' other holds'
  apply inv.apart _ among _ (inv.held u stack' holds').1
  intro same
  exact other (inv.alone u t stack' stack holds' holds same.symm)

end Steps

/-- A thread on a stack of the default size exits, and another gets its block. -/
def reusesBlock (t u : Fin 2) : List (Event (Fin 2)) :=
  [.create t none (some 0x20000), .start t true, .exit t, .threadExit t,
    .create u (some (pthreadAttrSetstacksize 4096)) none, .start u true]

theorem threadStack_runs_reusesBlock : ∃ (s : State (Fin 2)) (stack : Stack),
    (reusesBlock 0 1).foldlM step State.init = some s ∧ s.life 1 = .running stack ∧
      stack.Inside (s.block stack.stackNode) := by
  have seen : ((reusesBlock 0 1).foldlM step State.init).map (fun s => s.life 1) =
      some (.running ⟨0x20000, 0x20020, 4096⟩) := by decide +kernel
  obtain ⟨s, run, here⟩ := Option.map_eq_some_iff.mp seen
  have met : meets step (fun s event => event.Roomy s) State.init (reusesBlock 0 1) = true := by
    decide +kernel
  exact ⟨s, _, run, here, ((threadStack_runs (reusesBlock 0 1) s run (cond_of_meets met)).1 1 _
    (by rw [here, Life.stack])).1⟩

/-- The same, with a stack of 2 GiB for the second thread. -/
def reusesSmallBlock (t u : Fin 2) : List (Event (Fin 2)) :=
  [.create t none (some 0x20000), .start t true, .exit t, .threadExit t,
    .create u (some (pthreadAttrSetstacksize 0x80000000)) none, .start u true]

/-- A stack of almost 4 GiB, of which `malloc` is asked for 62 bytes. -/
def wrapsAround (t : Fin 2) : List (Event (Fin 2)) :=
  [.create t (some (pthreadAttrSetstacksize 0xffffffff)) (some 0x20000), .start t true]

theorem threadStack_outside :
    (∃ s stack, (reusesSmallBlock 0 1).foldlM step State.init = some s ∧
      s.life 1 = .running stack ∧ ¬ stack.Inside (s.block stack.stackNode)) ∧
    ∃ s stack, (wrapsAround 1).foldlM step State.init = some s ∧
      s.life 1 = .running stack ∧ ¬ stack.Inside (s.block stack.stackNode) := by
  have small : ((reusesSmallBlock 0 1).foldlM step State.init).map
      (fun s => (s.life 1, (s.block 0x20000).bytes)) =
      some (.running ⟨0x20000, 0x20020, 0x80000000⟩, 524351) := by decide +kernel
  have wraps : ((wrapsAround 1).foldlM step State.init).map
      (fun s => (s.life 1, (s.block 0x20000).bytes)) =
      some (.running ⟨0x20000, 0x20020, 0xffffffff⟩, 62) := by decide +kernel
  constructor
  · obtain ⟨s, run, here⟩ := Option.map_eq_some_iff.mp small
    simp only [Prod.mk.injEq] at here
    refine ⟨s, _, run, here.1, ?_⟩
    simp only [Stack.Inside, here.2]
    decide
  · obtain ⟨s, run, here⟩ := Option.map_eq_some_iff.mp wraps
    simp only [Prod.mk.injEq] at here
    refine ⟨s, _, run, here.1, ?_⟩
    simp only [Stack.Inside, here.2]
    decide

end SandboxTEE.Pthread.ThreadStack
