import SandboxTEE.Vmmap.Model

/-! # Protection changes and holes of the memory map (`sel_mem.c`)

`NaClVmmapChangeProt` gives a range another protection when every page of it is mapped
with a maximal protection that allows it; the two searches find a hole for a mapping.
The access mode of a descriptor is what its `GetFlags` returns.
-/

namespace SandboxTEE.Vmmap

def naClAbiMapShared : BitVec 32 := 0x1
def naClAbiMapPrivate : BitVec 32 := 0x2
def naClAbiMapFixed : BitVec 32 := 0x10
def naClAbiMapAnonymous : BitVec 32 := 0x20

def naClAbiProtNone : BitVec 32 := 0x0
def naClAbiProtRead : BitVec 32 := 0x1
def naClAbiProtWrite : BitVec 32 := 0x2
def naClAbiProtExec : BitVec 32 := 0x4
def naClAbiProtMask : BitVec 32 := 0x7

def naClAbiOAccmode : BitVec 32 := 3
def naClAbiORdonly : BitVec 32 := 0
def naClAbiOWronly : BitVec 32 := 1
def naClAbiORdwr : BitVec 32 := 2

/-- `NACL_MAP_PAGESHIFT - NACL_PAGESHIFT` is four. -/
def naClPagesPerMap : Nat := 16

def naClRoundPageNumUpToMapMultiple (npages : Nat) : Nat :=
  (npages + naClPagesPerMap - 1) / naClPagesPerMap * naClPagesPerMap

def naClTruncPageNumDownToMapMultiple (npages : Nat) : Nat :=
  npages / naClPagesPerMap * naClPagesPerMap

section ChangeProt

variable (getFlags : DescId → BitVec 32)

def naClVmmapEntryMaxProt (entry : Entry) : Option (BitVec 32) :=
  match entry.desc with
  | some desc =>
    if entry.flags &&& naClAbiMapPrivate = 0 then
      let oFlags := getFlags desc &&& naClAbiOAccmode
      if oFlags = naClAbiORdonly then some naClAbiProtRead
      else if oFlags = naClAbiOWronly then some naClAbiProtWrite
      else if oFlags = naClAbiORdwr then some (naClAbiProtRead ||| naClAbiProtWrite)
      else none
    else some (naClAbiProtRead ||| naClAbiProtWrite)
  | none => some (naClAbiProtRead ||| naClAbiProtWrite)

/-- The loop of `NaClVmmapCheckExistingMapping` over `vmentry[i ..]`. -/
def checkExistingLoop (regionEndPage : Nat) (prot : BitVec 32) : List Entry → Nat → Option Bool
  | [], _ => some false
  | ent :: rest, pageNum => do
    let flags ← naClVmmapEntryMaxProt getFlags ent
    if ent.pageNum ≤ pageNum ∧ regionEndPage ≤ ent.endPage then
      -- The mapping is inside existing entry.
      some (decide (prot &&& ~~~flags = 0))
    else if ent.pageNum ≤ pageNum ∧ pageNum < ent.endPage then
      -- The mapping overlaps the entry.
      if prot &&& ~~~flags ≠ 0 then some false
      else checkExistingLoop regionEndPage prot rest ent.endPage
    else if pageNum < ent.pageNum then
      -- The mapping without backing store.
      some false
    else checkExistingLoop regionEndPage prot rest pageNum

def naClVmmapCheckExistingMapping (self : Map) (pageNum npages : Nat) (prot : BitVec 32) :
    Option (Bool × Map) :=
  if self.nvalid = 0 then some (false, self)
  else do
    let self ← naClVmmapMakeSorted self
    let ok ← checkExistingLoop getFlags (pageNum + npages) prot self.vmentry pageNum
    some (ok, self)

/-- The loop of `NaClVmmapChangeProt` over the entries that were valid before it: what
    becomes of them, and the entries it adds.  The middle part of a split keeps the
    offset of the entry plus a number of pages, not of bytes. -/
def changeProtLoop (newRegionEndPage : Nat) (prot : BitVec 32) :
    List Entry → Nat → Nat → List Entry × List Entry
  | [], _, _ => ([], [])
  | ent :: rest, pageNum, npages =>
    if npages = 0 then (ent :: rest, [])
    else if ent.pageNum < pageNum ∧ newRegionEndPage < ent.endPage then
      -- Split existing mapping into two parts, with the new mapping in the middle.
      ({ ent with npages := pageNum - ent.pageNum } :: rest,
        [naClVmmapEntryMake newRegionEndPage (ent.endPage - newRegionEndPage) ent.prot ent.flags
            ent.desc (ent.offset + additionalOffset newRegionEndPage ent) ent.fileSize,
          naClVmmapEntryMake pageNum npages prot ent.flags ent.desc
            (ent.offset + BitVec.ofNat 64 (pageNum - ent.pageNum)) ent.fileSize])
    else if ent.pageNum < pageNum ∧ pageNum < ent.endPage then
      -- New mapping overlaps end of existing mapping.
      let (rest', added) := changeProtLoop newRegionEndPage prot rest ent.endPage
        (newRegionEndPage - ent.endPage)
      ({ ent with npages := pageNum - ent.pageNum } :: rest',
        naClVmmapEntryMake pageNum (ent.endPage - pageNum) prot ent.flags ent.desc
          (ent.offset + BitVec.ofNat 64 (pageNum - ent.pageNum)) ent.fileSize :: added)
    else if ent.pageNum < newRegionEndPage ∧ newRegionEndPage < ent.endPage then
      -- New mapping overlaps start of existing mapping, split it.
      ({ ent with
          pageNum := newRegionEndPage
          npages := ent.endPage - newRegionEndPage
          offset := ent.offset + additionalOffset newRegionEndPage ent } :: rest,
        [naClVmmapEntryMake pageNum npages prot ent.flags ent.desc ent.offset ent.fileSize])
    else if pageNum ≤ ent.pageNum ∧ ent.endPage ≤ newRegionEndPage then
      -- New mapping covers all of the existing mapping.
      let (rest', added) := changeProtLoop newRegionEndPage prot rest ent.endPage
        (newRegionEndPage - ent.endPage)
      ({ ent with prot := prot } :: rest', added)
    else
      let (rest', added) := changeProtLoop newRegionEndPage prot rest pageNum npages
      (ent :: rest', added)

def naClVmmapChangeProt (self : Map) (pageNum npages : Nat) (prot : BitVec 32) :
    Option (Bool × Map) := do
  let (ok, self) ← naClVmmapCheckExistingMapping getFlags self pageNum npages prot
  if ok then
    let self ← naClVmmapMakeSorted self
    let (vmentry, added) := changeProtLoop (pageNum + npages) prot self.vmentry pageNum npages
    some (true, added.foldl Map.append { self with vmentry := vmentry })
  else some (false, self)

end ChangeProt

/-- The loop of `NaClVmmapFindMapSpace`, over the entries from the last one down. -/
def findMapSpaceLoop (numPages : Nat) : List Entry → Nat
  | ent :: vmep :: rest =>
    let endPage := naClRoundPageNumUpToMapMultiple vmep.endPage
    let startPage := naClTruncPageNumDownToMapMultiple ent.pageNum
    if endPage < startPage ∧ numPages ≤ startPage - endPage then startPage - numPages
    else findMapSpaceLoop numPages (vmep :: rest)
  | _ => 0

/-- The start page of a hole, or zero. -/
def naClVmmapFindMapSpace (self : Map) (numPages : Nat) : Option (Nat × Map) :=
  if self.nvalid = 0 then some (0, self)
  else do
    let self ← naClVmmapMakeSorted self
    some (findMapSpaceLoop (naClRoundPageNumUpToMapMultiple numPages) self.vmentry.reverse, self)

/-- The loop of `NaClVmmapFindMapSpaceAboveHint`, over the entries from the first one up. -/
def findMapSpaceAboveLoop (usrPage numPages : Nat) : List Entry → Nat
  | vmep :: ent :: rest =>
    let endPage := naClRoundPageNumUpToMapMultiple vmep.endPage
    let startPage := naClTruncPageNumDownToMapMultiple ent.pageNum
    if startPage ≤ endPage then findMapSpaceAboveLoop usrPage numPages (ent :: rest)
    else
      let endPage := if endPage ≤ usrPage ∧ usrPage < startPage then usrPage else endPage
      if usrPage ≤ endPage ∧ numPages ≤ startPage - endPage then endPage
      else findMapSpaceAboveLoop usrPage numPages (ent :: rest)
  | _ => 0

def naClVmmapFindMapSpaceAboveHint (self : Map) (uaddr numPages : Nat) : Option (Nat × Map) := do
  let self ← naClVmmapMakeSorted self
  some (findMapSpaceAboveLoop (uaddr / 2 ^ naclPageShift)
    (naClRoundPageNumUpToMapMultiple numPages) self.vmentry, self)

end SandboxTEE.Vmmap
