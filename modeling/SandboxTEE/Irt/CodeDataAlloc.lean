import SandboxTEE.Lib.LowBits
import SandboxTEE.Lib.Run

/-! # Code and data allocations of the IRT (`irt_code_data_alloc.c`)

Code is taken from one address on, upwards.  Data go where `mmap` puts them, and the code follows,
so that the distance stays as it was asked for.  Addresses and sizes have 32 bits, and so have all
the sums that are compared with the end of the code region.
-/

namespace SandboxTEE.Irt

open SandboxTEE.Lib

abbrev Addr := BitVec 32

/-- `NACL_MAP_PAGESIZE` is `2 ^ 16`. -/
def naclMapPageSize : Addr := 0x10000

def minDataSep : Addr := 256 * 1024 * 1024

/-- Where the code may go.  The start is the end of the static text, rounded up to whole pages; the
    IRT's own code is below its data, at 256M. -/
structure Region where
  /-- `g_dynamic_text_start` -/
  dynamicTextStart : Addr
  /-- `__executable_start` -/
  executableStart : Addr
  aligned : AlignedTo 16 dynamicTextStart
  low : executableStart.toNat < 2 ^ 31

/-- `errno`, which is not zero. -/
inductive Errno where
  | einval
  | enomem
  | other (code : Nat)

/-- What a call of `mmap` comes back with: the page of the mapping, and whether `munmap` takes it
    back; or an error. -/
inductive Mmap where
  | mapped (page : BitVec 16) (munmaps : Bool)
  | failed (error : Errno)

def pageAddr (page : BitVec 16) : Addr := page.setWidth 32 <<< 16

/-- What the caller asks for. -/
structure Request where
  hint : Addr
  codeSize : Addr
  dataOffset : Addr
  dataSize : Addr

/-! ## The source's functions -/

/-- `g_next_available_code` -/
def reserveCodeAllocation (next codeBegin codeSize : Addr) : Addr :=
  if next = -1 ∨ next < codeBegin + codeSize then codeBegin + codeSize else next

/-- What the loop ends with: `ret`, the address of the code, and the data's mapping. -/
structure Searched where
  /-- `none` is 0. -/
  ret : Option Errno
  tryCodeAddr : Addr
  mapping : Option Addr

/-- The loop, with what the calls of `mmap` come back with; `none` is `LOG_FATAL`, or there are more
    or fewer calls. -/
def search (region : Region) (request : Request) : Addr → List Mmap → Option Searched
  | tryCodeAddr, [] =>
    if tryCodeAddr + request.codeSize ≤ region.executableStart then none
    else some ⟨some .einval, tryCodeAddr, none⟩
  | tryCodeAddr, answer :: answers =>
    if tryCodeAddr + request.codeSize ≤ region.executableStart then
      let tryDataAddr := tryCodeAddr + request.dataOffset
      match answer with
      | .failed error => if answers = [] then some ⟨some error, tryCodeAddr, none⟩ else none
      | .mapped page munmaps =>
        let dataAddr := pageAddr page
        if tryDataAddr < dataAddr then
          if answers = [] then
            some ⟨none, tryCodeAddr + (dataAddr - tryDataAddr), some dataAddr⟩
          else none
        else if dataAddr = tryDataAddr then
          if answers = [] then some ⟨none, tryCodeAddr, some dataAddr⟩ else none
        else if munmaps then search region request (tryCodeAddr + request.codeSize) answers
        else none
    else none

/-- Where the search starts. -/
def firstCodeAddr (region : Region) (next hint : Addr) : Addr :=
  let tryCodeAddr := if next = -1 then region.dynamicTextStart else next
  if hint ≠ 0 ∧ tryCodeAddr < hint then hint else tryCodeAddr

/-- The tests of the arguments. -/
def Request.refused (request : Request) : Bool :=
  request.codeSize = 0 ∨
    request.codeSize % naclMapPageSize ≠ 0 ∨ request.dataSize % naclMapPageSize ≠ 0 ∨
      request.dataOffset % naclMapPageSize ≠ 0 ∨ request.hint % naclMapPageSize ≠ 0 ∨
    request.dataSize ≠ 0 ∧ request.dataOffset < minDataSep

/-- What a call returns, what `g_next_available_code` is then, and the mapping that it made and did
    not take back. -/
structure Allocated where
  result : Except Errno Addr
  next : Addr
  mapping : Option Addr

def codeDataAllocate (region : Region) (next : Addr) (request : Request) (answers : List Mmap) :
    Option Allocated :=
  if request.refused then if answers = [] then some ⟨.error .einval, next, none⟩ else none
  else
    let first := firstCodeAddr region next request.hint
    let searched :=
      if first + request.codeSize ≤ region.executableStart ∧ request.dataSize = 0 then
        if answers = [] then some ⟨none, first, none⟩ else none
      else search region request first answers
    match searched with
    | none => none
    | some ⟨ret, tryCodeAddr, mapping⟩ =>
      if region.executableStart < tryCodeAddr + request.codeSize then
        some ⟨.error .enomem, next, mapping⟩
      else
        match ret with
        | none => some ⟨.ok tryCodeAddr, tryCodeAddr + request.codeSize, mapping⟩
        | some error => some ⟨.error error, next, mapping⟩

/-! ## Calls one after the other -/

inductive Event where
  | allocate (request : Request) (answers : List Mmap)
  | reserve (codeBegin codeSize : Addr)

/-- With the code ranges that were returned or reserved. -/
structure World where
  next : Addr
  taken : List (Addr × Addr)

def World.start : World := ⟨-1, []⟩

def World.allocated (w : World) (request : Request) (a : Allocated) : World where
  next := a.next
  taken := match a.result with
    | .ok codeBegin => (codeBegin, request.codeSize) :: w.taken
    | .error _ => w.taken

def step (region : Region) (w : World) : Event → Option World
  | .allocate request answers =>
    (codeDataAllocate region w.next request answers).map (w.allocated request)
  | .reserve codeBegin codeSize =>
    some ⟨reserveCodeAllocation w.next codeBegin codeSize, (codeBegin, codeSize) :: w.taken⟩

/-! ## What is to hold -/

/-- A range that is good to be returned. -/
structure Placed (region : Region) (w : World) (request : Request) (codeBegin : Addr)
    (mapping : Option Addr) : Prop where
  aligned : AlignedTo 16 codeBegin
  above : region.dynamicTextStart.toNat ≤ codeBegin.toNat
  below : codeBegin.toNat + request.codeSize.toNat ≤ region.executableStart.toNat
  apart : ∀ range ∈ w.taken, range.1.toNat + range.2.toNat ≤ codeBegin.toNat ∨
    codeBegin.toNat + request.codeSize.toNat ≤ range.1.toNat
  data : request.dataSize ≠ 0 → mapping = some (codeBegin + request.dataOffset)

/-- A call that succeeds returns such a range; one that fails leaves nothing behind. -/
def Sound (region : Region) (w : World) : Event → Prop
  | .allocate request answers => ∀ a, codeDataAllocate region w.next request answers = some a →
    match a.result with
    | .ok codeBegin => Placed region w request codeBegin a.mapping
    | .error _ => a.mapping = none ∧ a.next = w.next
  | .reserve _ _ => True

/-- Where `mmap` puts data higher than they were asked for, the code that follows them still ends in
    the region. -/
def Follows (region : Region) (request : Request) : Addr → List Mmap → Prop
  | _, [] | _, .failed _ :: _ => True
  | tryCodeAddr, .mapped page _ :: answers =>
    (tryCodeAddr + request.dataOffset < pageAddr page →
      tryCodeAddr.toNat + (pageAddr page - (tryCodeAddr + request.dataOffset)).toNat +
        request.codeSize.toNat ≤ region.executableStart.toNat) ∧
      Follows region request (tryCodeAddr + request.codeSize) answers

instance Follows.decidable (region : Region) (request : Request) (tryCodeAddr : Addr) :
    (answers : List Mmap) → Decidable (Follows region request tryCodeAddr answers)
  | [] | .failed _ :: _ => inferInstanceAs (Decidable True)
  | .mapped _ _ :: answers =>
    have := Follows.decidable region request (tryCodeAddr + request.codeSize) answers
    inferInstanceAs (Decidable (_ ∧ _))

/-- The end of the code range does not wrap around, or is refused nevertheless; and the code can
    follow the data.  A reserved range does not wrap around, and its end is one that a later search
    can start from if it is to start there. -/
def Proper (region : Region) (w : World) : Event → Prop
  | .allocate request answers => request.refused = false →
    let first := firstCodeAddr region w.next request.hint
    (first.toNat + request.codeSize.toNat < 2 ^ 32 ∨
      region.executableStart < first + request.codeSize) ∧
      Follows region request first answers
  | .reserve codeBegin codeSize =>
    codeBegin.toNat + codeSize.toNat < 2 ^ 32 ∧
      (w.next = -1 ∨ w.next < codeBegin + codeSize → AlignedTo 16 (codeBegin + codeSize)) ∧
      (w.next = -1 → region.dynamicTextStart ≤ codeBegin + codeSize)

instance (region : Region) (w : World) (e : Event) : Decidable (Proper region w e) :=
  match e with
  | .allocate _ _ => inferInstanceAs (Decidable (_ → _ ∧ _))
  | .reserve _ _ => inferInstanceAs (Decidable (_ ∧ _ ∧ _))

variable {region : Region} {request : Request} {w w' : World}

/-! ## Pages -/

theorem alignedTo_of_mod {x : Addr} (multiple : x % naclMapPageSize = 0) : AlignedTo 16 x := by
  rw [alignedTo_iff]
  have remainder := congrArg BitVec.toNat multiple
  rw [BitVec.toNat_umod] at remainder
  exact Nat.dvd_of_mod_eq_zero remainder

theorem pageAddr_aligned (page : BitVec 16) : AlignedTo 16 (pageAddr page) := by
  have small := page.isLt
  rw [alignedTo_iff, pageAddr, BitVec.toNat_shiftLeft, BitVec.toNat_setWidth, Nat.shiftLeft_eq]
  omega

structure Request.Good (request : Request) : Prop where
  code : AlignedTo 16 request.codeSize
  offset : AlignedTo 16 request.dataOffset
  hint : AlignedTo 16 request.hint

theorem Request.good (kept : request.refused = false) : request.Good := by
  simp only [Request.refused, decide_eq_false_iff_not, not_or, Decidable.not_not] at kept
  obtain ⟨_, code, _, offset, hint, _⟩ := kept
  exact ⟨alignedTo_of_mod code, alignedTo_of_mod offset, alignedTo_of_mod hint⟩

/-! ## The search -/

/-- Without a wrap-around the sum of 32 bits is the sum. -/
theorem toNat_codeEnd {codeAddr size : Addr} (fits : codeAddr.toNat + size.toNat < 2 ^ 32) :
    (codeAddr + size).toNat = codeAddr.toNat + size.toNat := by
  rw [BitVec.toNat_add, Nat.mod_eq_of_lt fits]

/-- What the search ends with, started at `first`. -/
structure Searched.Sound (region : Region) (request : Request) (first : Addr) (s : Searched) :
    Prop where
  failed : s.ret ≠ none → s.mapping = none
  aligned : s.ret = none → AlignedTo 16 s.tryCodeAddr
  above : s.ret = none → first.toNat ≤ s.tryCodeAddr.toNat
  below : s.ret = none →
    s.tryCodeAddr.toNat + request.codeSize.toNat ≤ region.executableStart.toNat
  data : s.ret = none → request.dataSize ≠ 0 →
    s.mapping = some (s.tryCodeAddr + request.dataOffset)

theorem Searched.Sound.of_failed {first tryCodeAddr : Addr} (error : Errno) :
    Searched.Sound region request first ⟨some error, tryCodeAddr, none⟩ where
  failed _ := rfl
  aligned none := by cases none
  above none := by cases none
  below none := by cases none
  data none := by cases none

theorem search_sound (good : request.Good) {first : Addr} {answers : List Mmap} {s : Searched}
    (aligned : AlignedTo 16 first) (fits : first.toNat + request.codeSize.toNat < 2 ^ 32 ∨
      region.executableStart < first + request.codeSize)
    (follows : Follows region request first answers)
    (run : search region request first answers = some s) : s.Sound region request first := by
  induction answers generalizing first with
  | nil =>
    rw [search] at run
    split at run
    · cases run
    · cases run
      exact .of_failed _
  | cons answer answers ih =>
    rw [search] at run
    split at run
    · next inRegion =>
      -- the test is right about the end
      have noWrap : first.toNat + request.codeSize.toNat < 2 ^ 32 := by
        cases fits with
        | inl noWrap => exact noWrap
        | inr refused => exact absurd inRegion (BitVec.not_le.mpr refused)
      have codeEnd := toNat_codeEnd noWrap
      have low := region.low
      have below : first.toNat + request.codeSize.toNat ≤ region.executableStart.toNat := by
        rwa [BitVec.le_def, codeEnd] at inRegion
      cases answer with
      | failed error =>
        simp only at run
        split at run
        · cases run
          exact .of_failed _
        · cases run
      | mapped page munmaps =>
        simp only at run
        split at run
        · next higher =>
          -- the data are higher than asked for, and the code goes after them
          split at run
          · cases run
            have room := follows.1 higher
            have moved := @toNat_codeEnd first (pageAddr page - (first + request.dataOffset))
              (by omega)
            have back : first + (pageAddr page - (first + request.dataOffset)) +
                request.dataOffset = pageAddr page := by bv_omega
            refine ⟨fun some => absurd rfl some, fun _ => ?_, fun _ => ?_, fun _ => ?_, fun _ _ => ?_⟩
            · have distance := (AlignedTo.add_left_iff (by decide)
                (AlignedTo.add (by decide) aligned good.offset)
                (b := pageAddr page - (first + request.dataOffset))).mp
              rw [show first + request.dataOffset + (pageAddr page - (first + request.dataOffset)) =
                pageAddr page by bv_omega] at distance
              exact AlignedTo.add (by decide) aligned (distance (pageAddr_aligned page))
            · rw [moved]
              exact Nat.le_add_right _ _
            · rwa [moved]
            · rw [back]
          · cases run
        · split at run
          · next same =>
            split at run
            · cases run
              exact ⟨fun some => absurd rfl some, fun _ => aligned, fun _ => Nat.le_refl _,
                fun _ => below, fun _ _ => by rw [same]⟩
            · cases run
          · -- the data are lower, and are taken back
            split at run
            · have next := ih (AlignedTo.add (by decide) aligned good.code)
                (.inl (by rw [codeEnd]; omega)) follows.2 run
              refine ⟨next.failed, next.aligned, fun found => ?_, next.below, next.data⟩
              have := next.above found
              omega
            · cases run
    · cases run

/-! ## One call -/

/-- All that is taken ends at or below the next available address, which is in the region. -/
structure World.Inv (region : Region) (w : World) : Prop where
  fresh : w.next = -1 → w.taken = []
  aligned : w.next ≠ -1 → AlignedTo 16 w.next
  above : w.next ≠ -1 → region.dynamicTextStart.toNat ≤ w.next.toNat
  taken : ∀ range ∈ w.taken, range.1.toNat + range.2.toNat ≤ w.next.toNat

theorem World.Inv.start (region : Region) : World.start.Inv region where
  fresh _ := rfl
  aligned set := absurd rfl set
  above set := absurd rfl set
  taken := by
    intro range member
    cases member

/-- What holds of the address where a search starts. -/
structure Starts (region : Region) (w : World) (first : Addr) : Prop where
  aligned : AlignedTo 16 first
  above : region.dynamicTextStart.toNat ≤ first.toNat
  taken : ∀ range ∈ w.taken, range.1.toNat + range.2.toNat ≤ first.toNat

theorem Starts.higher {first next : Addr} (starts : Starts region w first)
    (aligned : AlignedTo 16 next) (higher : first.toNat ≤ next.toNat) : Starts region w next where
  aligned := aligned
  above := Nat.le_trans starts.above higher
  taken range member := Nat.le_trans (starts.taken range member) higher

theorem firstCodeAddr_starts (inv : w.Inv region) (good : request.Good) :
    Starts region w (firstCodeAddr region w.next request.hint) := by
  have unhinted : Starts region w (if w.next = -1 then region.dynamicTextStart else w.next) := by
    by_cases unset : w.next = -1
    · rw [if_pos unset]
      refine ⟨region.aligned, Nat.le_refl _, ?_⟩
      rw [inv.fresh unset]
      intro range member
      cases member
    · rw [if_neg unset]
      exact ⟨inv.aligned unset, inv.above unset, inv.taken⟩
  unfold firstCodeAddr
  generalize (if w.next = -1 then region.dynamicTextStart else w.next) = tryCodeAddr at unhinted
  simp only
  split
  · next hinted => exact unhinted.higher good.hint (Nat.le_of_lt hinted.2)
  · exact unhinted

/-- A call leaves everything as it is, or returns a range behind all others that are taken and takes
    it. -/
theorem codeDataAllocate_sound {answers : List Mmap} {a : Allocated} (inv : w.Inv region)
    (proper : Proper region w (.allocate request answers))
    (run : codeDataAllocate region w.next request answers = some a) : match a.result with
    | .ok codeBegin => Placed region w request codeBegin a.mapping ∧
        a.next = codeBegin + request.codeSize ∧ AlignedTo 16 a.next ∧
        ∀ range ∈ w.taken, range.1.toNat + range.2.toNat ≤ codeBegin.toNat
    | .error _ => a.mapping = none ∧ a.next = w.next := by
  rw [codeDataAllocate] at run
  split at run
  · split at run
    · cases run
      exact ⟨rfl, rfl⟩
    · cases run
  · next kept =>
    rw [Bool.not_eq_true] at kept
    obtain ⟨fits, follows⟩ := proper kept
    have good := Request.good kept
    have starts := firstCodeAddr_starts inv good
    -- with data or without
    have sound : ∀ s, (if firstCodeAddr region w.next request.hint + request.codeSize ≤
          region.executableStart ∧ request.dataSize = 0 then
        if answers = [] then
          some (Searched.mk none (firstCodeAddr region w.next request.hint) none) else none
        else search region request (firstCodeAddr region w.next request.hint) answers) = some s →
        s.Sound region request (firstCodeAddr region w.next request.hint) := by
      intro s found
      split at found
      · next codeOnly =>
        split at found
        · cases found
          refine ⟨fun some => absurd rfl some, fun _ => starts.aligned, fun _ => Nat.le_refl _,
            fun _ => ?_, fun _ data => absurd codeOnly.2 data⟩
          cases fits with
          | inl noWrap =>
            have below := codeOnly.1
            rwa [BitVec.le_def, toNat_codeEnd noWrap] at below
          | inr refused => exact absurd codeOnly.1 (BitVec.not_le.mpr refused)
        · cases found
      · exact search_sound good starts.aligned fits follows found
    simp only at run
    split at run
    · cases run
    · next ret codeBegin mapping found =>
      have sound := sound _ found
      have low := region.low
      split at run
      · next tooHigh =>
        cases run
        -- then nothing was mapped
        refine ⟨sound.failed fun success => ?_, rfl⟩
        have below := sound.below success
        rw [BitVec.lt_def, toNat_codeEnd (by simp only at below; omega)] at tooHigh
        simp only at below
        omega
      · cases ret with
        | some error =>
          cases run
          exact ⟨sound.failed (Option.some_ne_none error), rfl⟩
        | none =>
          cases run
          have behind := starts.higher (sound.aligned rfl) (sound.above rfl)
          exact ⟨⟨behind.aligned, behind.above, sound.below rfl,
              fun range member => .inl (behind.taken range member), sound.data rfl⟩,
            rfl, AlignedTo.add (by decide) behind.aligned good.code, behind.taken⟩

/-! ## Histories -/

theorem World.Inv.sound {e : Event} (inv : w.Inv region) (proper : Proper region w e) :
    Sound region w e := by
  cases e with
  | allocate request answers =>
    intro a run
    have sound := codeDataAllocate_sound inv proper run
    cases result : a.result with
    | ok codeBegin =>
      rw [result] at sound
      exact sound.1
    | error error =>
      rw [result] at sound
      exact sound
  | reserve codeBegin codeSize => trivial

/-- An address of a page is not the one that says that there is none yet. -/
theorem ne_unset {x : Addr} (aligned : AlignedTo 16 x) : x ≠ -1 := by
  intro unset
  rw [unset] at aligned
  exact absurd aligned (by decide)

theorem World.Inv.step {e : Event} (inv : w.Inv region) (proper : Proper region w e)
    (stepped : step region w e = some w') : w'.Inv region := by
  cases e with
  | allocate request answers =>
    obtain ⟨a, run, same⟩ := Option.map_eq_some_iff.mp stepped
    cases same
    have sound := codeDataAllocate_sound inv proper run
    cases result : a.result with
    | error error =>
      rw [result] at sound
      simp only [World.allocated, result, sound.2]
      exact ⟨inv.fresh, inv.aligned, inv.above, inv.taken⟩
    | ok codeBegin =>
      rw [result] at sound
      obtain ⟨placed, next, aligned, taken⟩ := sound
      have low := region.low
      have below := placed.below
      have above := placed.above
      have codeEnd : a.next.toNat = codeBegin.toNat + request.codeSize.toNat := by
        rw [next, toNat_codeEnd (by omega)]
      refine ⟨fun unset => absurd unset (ne_unset aligned), fun _ => aligned, fun _ => ?_, ?_⟩
      · simp only [World.allocated]
        omega
      · simp only [World.allocated, result]
        intro range member
        cases member with
        | head => exact Nat.le_of_eq codeEnd.symm
        | tail _ member =>
          have := taken range member
          omega
  | reserve codeBegin codeSize =>
    cases stepped
    obtain ⟨noWrap, aligned, above⟩ := proper
    have codeEnd := toNat_codeEnd noWrap
    by_cases moves : w.next = -1 ∨ w.next < codeBegin + codeSize
    · have next : reserveCodeAllocation w.next codeBegin codeSize = codeBegin + codeSize :=
        if_pos moves
      have aligned := aligned moves
      -- what was taken before ends at the old address
      have old : ∀ range ∈ w.taken,
          range.1.toNat + range.2.toNat ≤ (codeBegin + codeSize).toNat := by
        intro range member
        cases moves with
        | inl unset =>
          rw [inv.fresh unset] at member
          cases member
        | inr lower => exact Nat.le_trans (inv.taken range member) (Nat.le_of_lt lower)
      refine ⟨fun unset => ?_, fun _ => ?_, fun _ => ?_, fun range member => ?_⟩
      · simp only [next] at unset
        exact absurd unset (ne_unset aligned)
      · simp only [next]
        exact aligned
      · simp only [next]
        by_cases unset : w.next = -1
        · exact above unset
        · cases moves with
          | inl moves => exact absurd moves unset
          | inr lower => exact Nat.le_trans (inv.above unset) (Nat.le_of_lt lower)
      · simp only [next]
        cases member with
        | head => exact Nat.le_of_eq codeEnd.symm
        | tail _ member => exact old range member
    · have next : reserveCodeAllocation w.next codeBegin codeSize = w.next := if_neg moves
      rw [not_or] at moves
      refine ⟨fun unset => ?_, fun set => ?_, fun set => ?_, fun range member => ?_⟩
      · simp only [next] at unset
        exact absurd unset moves.1
      · simp only [next] at set ⊢
        exact inv.aligned set
      · simp only [next] at set ⊢
        exact inv.above set
      · simp only [next]
        cases member with
        | head =>
          rw [← codeEnd]
          exact BitVec.not_lt.mp moves.2
        | tail _ member => exact inv.taken range member

/-- In a history whose calls are all proper, every allocation that succeeds is placed right, and those
    that fail leave nothing behind. -/
theorem history_sound (region : Region) (events : List Event)
    (proper : ∀ pre e, pre ++ [e] <+: events → ∀ w,
      pre.foldlM (step region) World.start = some w → Proper region w e) :
    ∀ pre e, pre ++ [e] <+: events → ∀ w, pre.foldlM (step region) World.start = some w →
      Sound region w e := by
  intro pre last within w run
  have inv := @foldlM_invariant _ _ (step region) (World.Inv region) (Proper region)
    (fun s e s' inv proper stepped => inv.step proper stepped) pre _ w (World.Inv.start region)
    (fun front e part => proper front e (part.trans ((List.prefix_append pre [last]).trans within)))
    run
  exact inv.sound (proper pre last within w run)

theorem textStart_aligned : AlignedTo 16 (0x20000 : Addr) := by decide

theorem irtStart_low : (0x0fa00000 : Addr).toNat < 2 ^ 31 := by decide

/-- The IRT at 6M below 256M. -/
def usual : Region := ⟨0x20000, 0x0fa00000, textStart_aligned, irtStart_low⟩

/-- A hint at the end of the address space: the sum of both is `0x10000`. -/
def wrapsAround : Request := ⟨0xffff0000, 0x20000, 0, 0⟩

/-- One page of code and one of data, which are mapped at 512M. -/
def pair : Request := ⟨0, 0x10000, 0x10000000, 0x10000⟩

def mappedHigh : List Mmap := [.mapped 0x2000 true]

def codeOnly : Request := ⟨0, 0x10000, 0, 0⟩

/-- A range is returned that wraps around; a call that fails leaves its data mapped; a range is
    returned that starts within a page, behind one that was reserved. -/
theorem history_not_sound :
    ¬Sound usual World.start (.allocate wrapsAround []) ∧
      ¬Sound usual World.start (.allocate pair mappedHigh) ∧
      ∃ w, [Event.reserve 0x30000 0x1234].foldlM (step usual) World.start = some w ∧
        ¬Sound usual w (.allocate codeOnly []) := by
  refine ⟨?_, ?_, _, rfl, ?_⟩
  · intro sound
    have placed : Placed usual World.start wrapsAround 0xffff0000 none := sound _ rfl
    exact absurd placed.below (by decide)
  · intro sound
    have left : (some (0x20000000 : Addr)) = none ∧ (-1 : Addr) = -1 := sound _ rfl
    cases left.1
  · intro sound
    have placed : Placed usual ⟨0x31234, [(0x30000, 0x1234)]⟩ codeOnly 0x31234 none := sound _ rfl
    exact absurd placed.aligned (by decide)

def reservedThenPair : List Event :=
  [.reserve 0x30000 0x10000, .allocate pair [.mapped 0x1005 true]]

theorem history_sound_pair :
    Placed usual ⟨0x40000, [(0x30000, 0x10000)]⟩ pair 0x50000 (some 0x10050000) := by
  have sound := history_sound usual reservedThenPair (cond_of_meets (by decide))
    [.reserve 0x30000 0x10000] (.allocate pair [.mapped 0x1005 true])
    (List.prefix_refl reservedThenPair) ⟨0x40000, [(0x30000, 0x10000)]⟩ rfl
  exact sound _ rfl

end SandboxTEE.Irt
