import SandboxTEE.Lib.Intervals

/-! # The enclave's page manager (`enclave_pages.c`)

`heap_vma_list` from its first entry on, so that `prev` and `next` of the source are the entries in
front of a place and behind it.  Addresses and sizes are numbers below `2 ^ 64`, and every sum and
difference of them wraps.  `init_pages` leaves the heap to be set (its lines are in a comment), so
its bounds are a parameter.
-/

namespace SandboxTEE.Heap

open SandboxTEE.Lib

def pgsz : Nat := 4096

def add64 (a b : Nat) : Nat := (a + b) % 2 ^ 64

def sub64 (a b : Nat) : Nat := (a + (2 ^ 64 - b)) % 2 ^ 64

/-- As a `long int`. -/
def signed64 (a : Nat) : Int := if a < 2 ^ 63 then a else (a : Int) - 2 ^ 64

/-- `heap_base` and `heap_size`: whole pages, not at the null page and in the lower half. -/
structure Pages where
  base : Nat
  size : Nat
  base_aligned : pgsz ∣ base
  size_aligned : pgsz ∣ size
  positive : 0 < base
  small : base + size ≤ 2 ^ 63

abbrev HeapVma := HalfOpen

/-- The counters hold 64 bits. -/
structure PageState where
  heapVmaList : List HeapVma
  allocedPages : Int
  maxAllocedPages : Int
deriving DecidableEq

def PageState.init : PageState := ⟨[], 0, 0⟩

/-- The search for an address: from the top, the first gap that is larger than `size`, with the
    entries above it, the nearest first, and those below it. -/
def searchGap (heapBase size : Nat) : Nat → List HeapVma → List HeapVma →
    Option (Nat × List HeapVma × List HeapVma)
  | availTop, above, [] =>
    if add64 heapBase size ≤ availTop then some (sub64 availTop size, above, []) else none
  | availTop, above, vma :: below =>
    if signed64 size < signed64 (sub64 availTop vma.top) then
      some (sub64 availTop size, above, vma :: below)
    else searchGap heapBase size vma.bottom (vma :: above) below

/-- `while (prev)`: the entries above that overlap the range or touch it are merged into one. -/
def mergePrev (addr top : Nat) : Option HeapVma → List HeapVma → Option HeapVma × List HeapVma
  | vma, [] => (vma, [])
  | vma, prev :: above =>
    if top < prev.bottom then (vma, prev :: above)
    else
      match vma with
      | none => mergePrev addr top (some ⟨addr, if prev.top < top then top else prev.top⟩) above
      | some vma =>
        mergePrev addr top (some ⟨vma.bottom, if vma.top < prev.top then prev.top else vma.top⟩) above

/-- `while (next)`: the same with the entries below. -/
def mergeNext (addr top : Nat) : Option HeapVma → List HeapVma → Option HeapVma × List HeapVma
  | vma, [] => (vma, [])
  | vma, next :: below =>
    if next.top < addr then (vma, next :: below)
    else
      match vma with
      | none =>
        mergeNext addr top (some ⟨next.bottom, if next.top < top then top else next.top⟩) below
      | some vma => mergeNext addr top (some ⟨next.bottom, vma.top⟩) below

/-- `allocated:` with the entries above `addr`, the nearest first, and those below it.  The new entry
    comes from `malloc`, which does not return without one. -/
def allocate (s : PageState) (addr size : Nat) (above below : List HeapVma) : PageState :=
  let top := add64 addr size
  let (vma, above) := mergePrev addr top none above
  let (vma, below) := mergeNext addr top vma below
  { s with
    heapVmaList := above.reverse ++ vma.getD ⟨addr, top⟩ :: below
    allocedPages := (s.allocedPages + size / pgsz).bmod (2 ^ 64) }

def roundUp (size : Nat) : Nat :=
  if size % pgsz ≠ 0 then add64 size (pgsz - 1) / pgsz * pgsz else size

def roundDown (addr : Nat) : Nat := if addr % pgsz ≠ 0 then addr / pgsz * pgsz else addr

/-- The address, 0 for NULL, and the state behind the call.  Without room there is a trap in front of
    the return. -/
def getReservedPages (h : Pages) (s : PageState) (addr size : Nat) : Nat × PageState :=
  let heapTop := add64 h.base h.size
  if size = 0 then (0, s)
  else if heapTop ≤ addr then (0, s)
  else
    let size := roundUp size
    let addr := roundDown addr
    if addr ≠ 0 ∧ h.base ≤ addr ∧ add64 addr size ≤ heapTop then
      let above := s.heapVmaList.takeWhile fun vma => ¬ vma.bottom < addr
      let below := s.heapVmaList.dropWhile fun vma => ¬ vma.bottom < addr
      (addr, allocate s addr size above.reverse below)
    else if addr ≠ 0 then (0, s)
    else
      match searchGap h.base size heapTop [] s.heapVmaList with
      | none => (0, s)
      | some (addr, above, below) => (addr, allocate s addr size above below)

/-- The loop of `free_pages`: what is left of the list.  `first` says that every entry so far has
    been removed whole.  When the upper part of what is then the only entry goes, the entry is freed,
    but it is not the head that `listp_for_each_entry_safe` looks for: the loop goes on with it. -/
def freeLoop (addr addrTop : Nat) : Bool → List HeapVma → Option (List HeapVma)
  | _, [] => some []
  | first, vma :: list =>
    if addrTop ≤ vma.bottom then (freeLoop addr addrTop false list).map (vma :: ·)
    else if vma.top ≤ addr then some (vma :: list)
    else
      let lower := if vma.bottom < addr then [⟨vma.bottom, addr⟩] else []
      if vma.top ≤ addrTop then
        if first = true ∧ list = [] ∧ lower ≠ [] then none
        else (freeLoop addr addrTop (first && lower.isEmpty) list).map (lower ++ ·)
      else (freeLoop addr addrTop false list).map fun rest => ⟨addrTop, vma.top⟩ :: lower ++ rest

/-- `free_pages`; where the end is not at a page, the start is moved to the page behind it. -/
def freePages (h : Pages) (s : PageState) (addr size : Nat) : Option PageState :=
  let heapTop := add64 h.base h.size
  let addrTop := add64 addr size
  if addr = 0 ∨ size = 0 then some s
  else
    let addr := if addrTop % pgsz ≠ 0 then add64 addrTop (pgsz + 1) / pgsz * pgsz else addr
    let addr := roundDown addr
    if heapTop ≤ addr then some s
    else if addrTop ≤ h.base then some s
    else
      let addrTop := if heapTop < addrTop then heapTop else addrTop
      let addr := if addr < h.base then h.base else addr
      let val := s.allocedPages % 2 ^ 32
      (freeLoop addr addrTop true s.heapVmaList).map fun list =>
        { heapVmaList := list
          allocedPages := (s.allocedPages - size / pgsz).bmod (2 ^ 64)
          maxAllocedPages := if s.maxAllocedPages < val then val else s.maxAllocedPages }

/-! ## Runs -/

inductive PageCall where
  | get (addr size : Nat)
  | free (addr size : Nat)

def PageState.call (h : Pages) (s : PageState) : PageCall → Option PageState
  | .get addr size => some (getReservedPages h s addr size).2
  | .free addr size => freePages h s addr size

end SandboxTEE.Heap
