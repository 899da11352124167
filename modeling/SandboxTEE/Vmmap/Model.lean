import Mathlib.Algebra.Group.Int.Defs
import Mathlib.Algebra.Group.Nat.Defs
import Mathlib.Data.List.DropRight
import SandboxTEE.Stdlib.Qsort

/-! # The memory map of a NaCl sandbox (`sel_mem.c`)

`struct NaClVmmap` is an array of entries, kept lazily sorted and lazily purged of
entries marked `removed`.  The array is a list here and `nvalid` its length;
`size` is its capacity.  Page numbers are natural numbers: no sum of the source
wraps for ranges of a 48-bit address space.  `prot`, `flags` are `int`s, offsets
and file sizes 64-bit words.

`none` is an abort of the enclave (`NaClLog(LOG_FATAL, …)`, a failed `CHECK`).
Allocation is taken to succeed.
-/

namespace SandboxTEE.Vmmap

open SandboxTEE.Stdlib (qsort bsearch)

def naclPageShift : Nat := 12

def startEntries : Nat := 10

/-- The identity of a `struct NaClDesc *`. -/
abbrev DescId := Nat

/-- `struct NaClVmmapEntry`. -/
structure Entry where
  pageNum : Nat
  npages : Nat
  prot : BitVec 32
  flags : BitVec 32
  removed : Bool
  desc : Option DescId
  offset : BitVec 64
  fileSize : BitVec 64
deriving DecidableEq, Inhabited

/-- `ent_end_page`. -/
def Entry.endPage (e : Entry) : Nat := e.pageNum + e.npages

/-- `struct NaClVmmap`. -/
structure Map where
  vmentry : List Entry
  size : Nat
  isSorted : Bool

def Map.nvalid (self : Map) : Nat := self.vmentry.length

def naClVmmapCtor : Map := ⟨[], startEntries, true⟩

/-- `(int) ((*left)->page_num - (*right)->page_num)`. -/
def naClVmmapCmpEntries (left right : Entry) : Int :=
  Int.bmod ((left.pageNum : Int) - right.pageNum) (2 ^ 32)

/-! ## Purging removed entries -/

/-- The second loop of `NaClVmmapRemoveMarked`, from index `i` (the head of the list)
    to index `last` (its end): a removed entry is replaced by the last one, and removed
    entries are then dropped from the end, down to but not including index `i`. -/
def compactFrom : Nat → List Entry → List Entry
  | 0, l => l
  | _ + 1, [] => []
  | fuel + 1, e :: rest =>
    if e.removed = false then e :: compactFrom fuel rest
    else
      match rest.getLast? with
      | none => [e]
      | some z => z :: compactFrom fuel (rest.dropLast.rdropWhile Entry.removed)

def naClVmmapRemoveMarked (self : Map) : Option Map :=
  if self.nvalid = 0 then some self
  else
    let kept := self.vmentry.rdropWhile Entry.removed
    if kept = [] then none
    else some { self with vmentry := compactFrom kept.length kept, isSorted := false }

def naClVmmapMakeSorted (self : Map) : Option Map :=
  if self.isSorted then some self
  else do
    let self ← naClVmmapRemoveMarked self
    some { self with vmentry := qsort naClVmmapCmpEntries self.vmentry, isSorted := true }

/-! ## Adding, overwriting, removing -/

def naClVmmapEntryMake (pageNum npages : Nat) (prot flags : BitVec 32) (desc : Option DescId)
    (offset fileSize : BitVec 64) : Entry :=
  ⟨pageNum, npages, prot, flags, false, desc, offset, fileSize⟩

/-- `vmentry[nvalid++] = entry`, with the capacity doubled when the array is full. -/
def Map.append (self : Map) (entry : Entry) : Map :=
  { vmentry := self.vmentry ++ [entry]
    size := if self.nvalid = self.size then 2 * self.size else self.size
    isSorted := false }

def naClVmmapAdd (self : Map) (pageNum npages : Nat) (prot flags : BitVec 32)
    (desc : Option DescId) (offset fileSize : BitVec 64) : Map :=
  self.append (naClVmmapEntryMake pageNum npages prot flags desc offset fileSize)

/-- `(new_region_end_page - ent->page_num) << NACL_PAGESHIFT`. -/
def additionalOffset (newRegionEndPage : Nat) (ent : Entry) : BitVec 64 :=
  (BitVec.ofNat 64 newRegionEndPage - BitVec.ofNat 64 ent.pageNum) <<< naclPageShift

/-- The loop of `NaClVmmapUpdate` over `vmentry[i ..]`.  The second component is the
    entry that `NaClVmmapAdd` makes for a split. -/
def updateLoop (pageNum newRegionEndPage : Nat) : List Entry → List Entry × Option Entry
  | [] => ([], none)
  | ent :: rest =>
    if ent.pageNum < pageNum ∧ newRegionEndPage < ent.endPage then
      -- Split the existing mapping, with the new mapping in the middle.
      ({ ent with npages := pageNum - ent.pageNum } :: rest,
        some (naClVmmapEntryMake newRegionEndPage (ent.endPage - newRegionEndPage) ent.prot
          ent.flags ent.desc (ent.offset + additionalOffset newRegionEndPage ent) ent.fileSize))
    else if ent.pageNum < pageNum ∧ pageNum < ent.endPage then
      -- The new mapping overlaps the end of the existing mapping.
      let (rest', added) := updateLoop pageNum newRegionEndPage rest
      ({ ent with npages := pageNum - ent.pageNum } :: rest', added)
    else if ent.pageNum < newRegionEndPage ∧ newRegionEndPage < ent.endPage then
      -- The new mapping overlaps the start of the existing mapping.
      ({ ent with
          pageNum := newRegionEndPage
          npages := ent.endPage - newRegionEndPage
          offset := ent.offset + additionalOffset newRegionEndPage ent } :: rest, none)
    else if pageNum ≤ ent.pageNum ∧ ent.endPage ≤ newRegionEndPage then
      -- The new mapping covers all of the existing mapping.
      let (rest', added) := updateLoop pageNum newRegionEndPage rest
      ({ ent with removed := true } :: rest', added)
    else
      let (rest', added) := updateLoop pageNum newRegionEndPage rest
      (ent :: rest', added)

def naClVmmapUpdate (self : Map) (pageNum npages : Nat) (prot flags : BitVec 32) (remove : Bool)
    (desc : Option DescId) (offset fileSize : BitVec 64) : Option Map := do
  let self ← naClVmmapMakeSorted self
  if npages > 0 then
    let (vmentry, added) := updateLoop pageNum (pageNum + npages) self.vmentry
    let self := added.elim { self with vmentry := vmentry } { self with vmentry := vmentry }.append
    let self := if remove then self
      else naClVmmapAdd self pageNum npages prot flags desc offset fileSize
    naClVmmapRemoveMarked self
  else none

def naClVmmapAddWithOverwrite (self : Map) (pageNum npages : Nat) (prot flags : BitVec 32)
    (desc : Option DescId) (offset fileSize : BitVec 64) : Option Map :=
  naClVmmapUpdate self pageNum npages prot flags false desc offset fileSize

def naClVmmapRemove (self : Map) (pageNum npages : Nat) : Option Map :=
  naClVmmapUpdate self pageNum npages 0 0 true none 0 0

/-! ## Looking up a page -/

def naClVmmapContainCmpEntries (key : Nat) (ent : Entry) : Int :=
  if key < ent.pageNum then -1
  else if key < ent.pageNum + ent.npages then 0
  else 1

/-- The entry found and the map, which the lookup sorts. -/
def naClVmmapFindPage (self : Map) (pnum : Nat) : Option (Option Entry × Map) := do
  let self ← naClVmmapMakeSorted self
  some ((bsearch naClVmmapContainCmpEntries pnum self.vmentry).bind (self.vmentry[·]?), self)

/-- `space->entry_ix` and the map. -/
def naClVmmapFindPageIter (self : Map) (pnum : Nat) : Option (Nat × Map) := do
  let self ← naClVmmapMakeSorted self
  some ((bsearch naClVmmapContainCmpEntries pnum self.vmentry).getD self.nvalid, self)

end SandboxTEE.Vmmap
