import SandboxTEE.Lib.Cover
import SandboxTEE.Vmmap.Model

/-! # The page map a memory map stands for

What `struct NaClVmmap` is for: a partial map from pages to their attributes.  The
attribute record holds the backing-file offset *of that page*, so an entry whose
range is cut must shift its own offset to keep the offsets of the pages it still
covers (`Entry.attr_tail`).
-/

namespace SandboxTEE.Vmmap

open SandboxTEE.Lib (Cover)

/-- What a mapped page carries. -/
structure PageAttr where
  prot : BitVec 32
  flags : BitVec 32
  desc : Option DescId
  offset : BitVec 64
  fileSize : BitVec 64

/-- A partial map from page numbers to attributes. -/
abbrev PageMap := Nat → Option PageAttr

namespace PageMap

/-- Give every page of `[lo, hi)` the attributes `attr` names, leave the others. -/
def overwrite (m : PageMap) (lo hi : Nat) (attr : Nat → PageAttr) : PageMap := fun p =>
  if lo ≤ p ∧ p < hi then some (attr p) else m p

/-- Unmap every page of `[lo, hi)`, leave the others. -/
def erase (m : PageMap) (lo hi : Nat) : PageMap := fun p =>
  if lo ≤ p ∧ p < hi then none else m p

theorem erase_outside (m : PageMap) {lo hi p : Nat} (out : ¬ (lo ≤ p ∧ p < hi)) :
    m.erase lo hi p = m p := if_neg out

end PageMap

/-! ## Entries as pieces of the page map -/

/-- The bytes between page `start` and page `p`. -/
def pageDistance (start p : Nat) : BitVec 64 :=
  (BitVec.ofNat 64 p - BitVec.ofNat 64 start) <<< naclPageShift

@[simp] theorem pageDistance_self (start : Nat) : pageDistance start start = 0 := by
  simp [pageDistance]

theorem pageDistance_add (a b p : Nat) :
    pageDistance a b + pageDistance b p = pageDistance a p := by
  simp only [pageDistance, BitVec.shiftLeft_eq_mul_twoPow, ← BitVec.add_mul]
  congr 1
  grind

def Entry.covers (e : Entry) (p : Nat) : Bool := decide (e.pageNum ≤ p ∧ p < e.endPage)

/-- The attributes entry `e` gives page `p`. -/
def Entry.attr (e : Entry) (p : Nat) : PageAttr :=
  ⟨e.prot, e.flags, e.desc, e.offset + pageDistance e.pageNum p, e.fileSize⟩

@[simp] theorem Entry.covers_iff (e : Entry) (p : Nat) :
    e.covers p = true ↔ e.pageNum ≤ p ∧ p < e.endPage := by
  simp [Entry.covers]

/-- Entries as pieces of the page map. -/
def entryCover : Cover Entry Nat PageAttr := ⟨Entry.covers, Entry.attr⟩

@[simp] theorem entryCover_covers (e : Entry) (p : Nat) : entryCover.covers e p = e.covers p := rfl

@[simp] theorem entryCover_value (e : Entry) (p : Nat) : entryCover.value e p = e.attr p := rfl

/-- The entries not marked for removal. -/
def Map.live (m : Map) : List Entry := m.vmentry.filter fun e => !e.removed

/-- The page map `m` stands for. -/
def Map.denote (m : Map) : PageMap := entryCover.denote m.live

/-- Two entries with no common page. -/
def Entry.Apart (e f : Entry) : Prop := e.endPage ≤ f.pageNum ∨ f.endPage ≤ e.pageNum

theorem Entry.apart_iff {e f : Entry} (he : 0 < e.npages) (hf : 0 < f.npages) :
    e.Apart f ↔ entryCover.Apart e f := by
  simp only [Entry.Apart, Cover.Apart, entryCover_covers, Entry.covers_iff, Entry.endPage]
  constructor
  · intro apart p both
    omega
  · intro apart
    by_contra overlap
    exact apart (max e.pageNum f.pageNum) (by omega)

/-- Cutting `[lo, hi)` out of an entry: the pieces of it that lie before and behind. -/
def Entry.cut (lo hi : Nat) (e : Entry) : List Entry :=
  (if e.pageNum < lo then [{ e with npages := min lo e.endPage - e.pageNum }] else []) ++
  (if hi < e.endPage then
    [{ e with
        pageNum := max hi e.pageNum
        npages := e.endPage - max hi e.pageNum
        offset := e.offset + pageDistance e.pageNum (max hi e.pageNum) }] else [])

/-- Trimming the head of an entry and shifting its offset keeps the attributes of the
    pages it still covers. -/
theorem Entry.attr_tail (e : Entry) (start len p : Nat) :
    Entry.attr { e with
      pageNum := start, npages := len, offset := e.offset + pageDistance e.pageNum start } p =
      e.attr p := by
  simp only [Entry.attr, PageAttr.mk.injEq, true_and, and_true]
  rw [BitVec.add_assoc, pageDistance_add]

end SandboxTEE.Vmmap
