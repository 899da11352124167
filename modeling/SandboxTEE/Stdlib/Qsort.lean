import SandboxTEE.Lib.Cells
import Mathlib.Order.Lattice

/-! # `qsort` and `bsearch` of the enclave's stdlib

The enclave links its own `qsort` (Bentley and McIlroy, `stdlib/qsort.c`).  Pointers
into the array are modelled as element indices, so the byte distance `pb - pa` of
the source is `pb - pa` elements here, and `es` is `1`.  The `int` casts of byte
distances are exact while the array is shorter than 2^31 bytes.

The loops of the partition are recursive on a fuel; `qsort_spec` runs them with
the fuel the function itself supplies.
-/

namespace SandboxTEE.Stdlib

open SandboxTEE.Lib (Cells swap)

variable {α : Type} (cmp : α → α → Int)

/-! ## Insertion sort -/

/-- `for (pl = pm; pl > a && cmp(pl - es, pl) > 0; pl -= es) swap(pl, pl - es);`
    with `pl = a + k`. -/
def sinkDown (a : Nat) : Cells α → Nat → Cells α
  | c, 0 => c
  | c, k + 1 =>
    if cmp (c (a + k)) (c (a + k + 1)) > 0 then
      sinkDown a (swap c (a + k + 1) (a + k)) k
    else c

/-- The outer loop after its iteration for `pm = a + (n - 1)`. -/
def insertionSort (a : Nat) (c : Cells α) : Nat → Cells α
  | 0 => c
  | n + 1 => sinkDown cmp a (insertionSort a c n) n

/-! ## The pivot -/

def med3 (c : Cells α) (a b d : Nat) : Nat :=
  if cmp (c a) (c b) < 0 then
    (if cmp (c b) (c d) < 0 then b else (if cmp (c a) (c d) < 0 then d else a))
  else
    (if cmp (c b) (c d) > 0 then b else (if cmp (c a) (c d) < 0 then a else d))

/-- `pm`: the middle, the median of three, or the ninther. -/
def pivotIndex (c : Cells α) (a n : Nat) : Nat :=
  let pm := a + n / 2
  if n > 7 then
    let pl := a
    let pn := a + (n - 1)
    if n > 40 then
      let d := n / 8
      let pl := med3 cmp c pl (pl + d) (pl + 2 * d)
      let pm := med3 cmp c (pm - d) pm (pm + d)
      let pn := med3 cmp c (pn - 2 * d) (pn - d) pn
      med3 cmp c pl pm pn
    else med3 cmp c pl pm pn
  else pm

/-! ## The partition -/

/-- The local variables of the partition loop. -/
structure Partition (α : Type) where
  cells : Cells α
  pa : Nat
  pb : Nat
  pc : Nat
  pd : Nat
  swapCnt : Bool

namespace Partition

variable (a : Nat)

/-- `while (pb <= pc && (r = cmp(pb, a)) <= 0) { … }` -/
def scanUp : Nat → Partition α → Partition α
  | 0, s => s
  | fuel + 1, s =>
    if s.pb ≤ s.pc ∧ cmp (s.cells s.pb) (s.cells a) ≤ 0 then
      if cmp (s.cells s.pb) (s.cells a) = 0 then
        scanUp fuel { s with
          cells := swap s.cells s.pa s.pb, pa := s.pa + 1, pb := s.pb + 1, swapCnt := true }
      else scanUp fuel { s with pb := s.pb + 1 }
    else s

/-- `while (pb <= pc && (r = cmp(pc, a)) >= 0) { … }` -/
def scanDown : Nat → Partition α → Partition α
  | 0, s => s
  | fuel + 1, s =>
    if s.pb ≤ s.pc ∧ cmp (s.cells s.pc) (s.cells a) ≥ 0 then
      if cmp (s.cells s.pc) (s.cells a) = 0 then
        scanDown fuel { s with
          cells := swap s.cells s.pc s.pd, pd := s.pd - 1, pc := s.pc - 1, swapCnt := true }
      else scanDown fuel { s with pc := s.pc - 1 }
    else s

/-- `swap(pb, pc); swap_cnt = 1; pb += es; pc -= es;` -/
def exchange (s : Partition α) : Partition α :=
  { s with
    cells := swap s.cells s.pb s.pc, swapCnt := true, pb := s.pb + 1, pc := s.pc - 1 }

/-- The cells still to be compared with the pivot. -/
def remaining (s : Partition α) : Nat := s.pc + 1 - s.pb

def scan (s : Partition α) : Partition α :=
  let s := scanUp cmp a s.remaining s
  scanDown cmp a s.remaining s

/-- `for (;;) { … if (pb > pc) break; … }` -/
def loop : Nat → Partition α → Partition α
  | 0, s => s
  | fuel + 1, s =>
    let s := scan cmp a s
    if s.pb > s.pc then s else loop fuel s.exchange

/-- The loop's state after `swap(a, pm)`, `pa = pb = a + es` and
    `pc = pd = a + (n - 1) * es`. -/
def init (c : Cells α) (n : Nat) : Partition α :=
  ⟨swap c a (pivotIndex cmp c a n), a + 1, a + 1, a + (n - 1), a + (n - 1), false⟩

end Partition

/-! ## The sort -/

/-- `vecswap(a, b, n)`. -/
def vecswap : Cells α → Nat → Nat → Nat → Cells α
  | c, _, _, 0 => c
  | c, a, b, n + 1 => vecswap (swap c a b) (a + 1) (b + 1) n

/-- Bring the elements equal to the pivot from both ends into the middle. -/
def gather (a n : Nat) (s : Partition α) : Cells α :=
  let pn := a + n
  let r := min (s.pa - a) (s.pb - s.pa)
  let c := vecswap s.cells a (s.pb - r) r
  let r := min (s.pd - s.pc) (pn - s.pd - 1)
  vecswap c s.pb (pn - r) r

def qsortCells : Nat → Cells α → Nat → Nat → Cells α
  | 0, c, _, _ => c
  | fuel + 1, c, a, n =>
    if n < 7 then insertionSort cmp a c n
    else
      let s := Partition.loop cmp a n (Partition.init cmp a c n)
      if s.swapCnt = false then insertionSort cmp a s.cells n
      else
        let c := gather a n s
        let left := s.pb - s.pa
        let c := if left > 1 then qsortCells fuel c a left else c
        let right := s.pd - s.pc
        if right > 1 then qsortCells fuel c (a + n - right) right else c

/-- `qsort(aa, n, es, cmp)` on an array of `n` elements. -/
def qsort [Inhabited α] (l : List α) : List α :=
  Cells.toList (qsortCells cmp l.length (Lib.cellsOf l) 0 l.length) l.length

/-! ## `bsearch` -/

/-- `for (lim = nmemb; lim != 0; lim >>= 1) { … }`; the index of the element found. -/
def bsearchLoop {κ : Type} (compar : κ → α → Int) (key : κ) (l : List α) :
    Nat → Nat → Nat → Option Nat
  | 0, _, _ => none
  | fuel + 1, base, lim =>
    if lim = 0 then none
    else
      let p := base + lim / 2
      match l[p]? with
      | none => none
      | some x =>
        if compar key x > 0 then bsearchLoop compar key l fuel (p + 1) ((lim - 1) / 2)
        else if compar key x = 0 then some p
        else bsearchLoop compar key l fuel base (lim / 2)

def bsearch {κ : Type} (compar : κ → α → Int) (key : κ) (l : List α) : Option Nat :=
  bsearchLoop compar key l (l.length + 1) 0 l.length

end SandboxTEE.Stdlib
