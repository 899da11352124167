import SandboxTEE.Loader.Layout

/-! # The regions of a loaded image

When the regions that are recorded are aligned, ordered and inside the address space.
-/

namespace SandboxTEE.Loader

open SandboxTEE.Lib

/-! ## Regions one after another -/

/-- Aligned regions, one after another, from `lo` to `hi`. -/
def Stacked : Nat → List Region → Nat → Prop
  | lo, [], hi => lo ≤ hi
  | lo, r :: rs, hi =>
    lo ≤ r.start ∧ r.start % naclPagesize = 0 ∧ r.size % naclPagesize = 0 ∧
      Stacked (r.start + r.size) rs hi

variable {rs : List Region} {lo hi : Nat}

theorem Stacked.append {mid : Nat} {rs' : List Region} (first : Stacked lo rs mid)
    (second : Stacked mid rs' hi) : Stacked lo (rs ++ rs') hi := by
  induction rs generalizing lo with
  | nil =>
    cases rs' with
    | nil => exact Nat.le_trans first second
    | cons r rs' => exact ⟨Nat.le_trans first second.1, second.2⟩
  | cons r rs ih => exact ⟨first.1, first.2.1, first.2.2.1, ih first.2.2.2⟩

theorem Stacked.le (stacked : Stacked lo rs hi) : lo ≤ hi := by
  induction rs generalizing lo with
  | nil => exact stacked
  | cons r rs ih =>
    calc lo ≤ r.start := stacked.1
      _ ≤ r.start + r.size := Nat.le_add_right _ _
      _ ≤ hi := ih stacked.2.2.2

theorem Stacked.mono {hi' : Nat} (stacked : Stacked lo rs hi) (raised : hi ≤ hi') :
    Stacked lo rs hi' := by
  have rest : Stacked hi [] hi' := raised
  simpa using stacked.append rest

theorem Stacked.mem (stacked : Stacked lo rs hi) {r : Region} (member : r ∈ rs) :
    lo ≤ r.start ∧ r.start + r.size ≤ hi ∧ r.start % naclPagesize = 0 ∧
      r.size % naclPagesize = 0 := by
  induction rs generalizing lo with
  | nil => cases member
  | cons r' rs ih =>
    obtain ⟨above, start, size, rest⟩ := stacked
    cases member with
    | head =>
      exact ⟨above, rest.le, start, size⟩
    | tail _ member =>
      have bounds := ih rest member
      exact ⟨by omega, bounds.2⟩

theorem Stacked.pairwise (stacked : Stacked lo rs hi) :
    rs.Pairwise fun r r' => r.start + r.size ≤ r'.start := by
  induction rs generalizing lo with
  | nil => exact .nil
  | cons r rs ih => exact .cons (fun r' member => (stacked.2.2.2.mem member).1) (ih stacked.2.2.2)

/-! ## The property and its condition -/

/-- No subtraction that a size or an address comes from wraps. -/
structure NoUnderflow (nap : NaClApp) : Prop where
  image : naclTrampolineStart ≤ naClRoundAllocPage nap.dataEnd
  text : naclTrampolineEnd ≤ nap.staticTextEnd
  dynamicText : nap.dynamicTextStart ≤ nap.dynamicTextEnd
  rodata : nap.rodataStart ≠ 0 → nap.rodataStart ≤ naClRoundAllocPage (rodataEnd nap)
  data : nap.dataStart ≠ 0 → naClTruncAllocPage nap.dataStart ≤ naClRoundAllocPage nap.dataEnd
  hole : holeStart nap ≤ stackStart nap
  stack : nap.stackSize ≤ 2 ^ nap.addrBits

/-- The regions are page aligned, ordered without overlap and inside the address space. -/
structure LayoutOk (nap : NaClApp) : Prop where
  aligned : ∀ r ∈ protectedRegions nap, r.start % naclPagesize = 0 ∧ r.size % naclPagesize = 0
  ordered : (protectedRegions nap).Pairwise fun r r' => r.start + r.size ≤ r'.start
  inside : ∀ r ∈ protectedRegions nap, r.start + r.size ≤ 2 ^ nap.addrBits
  noUnderflow : NoUnderflow nap

/-- A segment whose end does not fit 32 bits. -/
def EndsAtTop (php : ElfPhdr) : Prop := php.pVaddr.toNat + php.pMemsz.toNat = 2 ^ 32

/-- Read-only data that ends at 4 GiB is below the data, and a text that ends there, with nothing
    behind it, leaves its halts below the stack. -/
structure Fits (options : NaClAppOptions) (phdrs : List ElfPhdr) : Prop where
  rodata : ∀ rodata, segmentOf phdrs .rodata = some rodata → EndsAtTop rodata →
    ∃ data, segmentOf phdrs .data = some data ∧
      rodata.pVaddr.toNat ≤ naClTruncAllocPage data.pVaddr.toNat
  text : ∀ text, segmentOf phdrs .textCheck = some text → EndsAtTop text →
    segmentOf phdrs .rodata = none → segmentOf phdrs .data = none →
    naClRoundAllocPage (naclTrampolineEnd + text.pFilesz.toNat + naclHaltSledSize) +
      naClRoundAllocPage options.stackSize ≤ 2 ^ 32

/-! ## Each part of the address space -/

theorem pagesize_of_map {n : Nat} (aligned : n % naclMapPagesize = 0) : n % naclPagesize = 0 := by
  unfold naclMapPagesize at aligned
  unfold naclPagesize
  omega

theorem pagesize_sub {a b : Nat} (aligned : a % naclMapPagesize = 0)
    (aligned' : b % naclMapPagesize = 0) : (a - b) % naclMapPagesize = 0 := by
  unfold naclMapPagesize at *
  omega

/-- A range from `lo` to `hi` on allocation pages, with the size that its bounds give. -/
theorem stacked_range (prot : Prot) (ordered : lo ≤ hi) (small : hi ≤ 2 ^ 32)
    (start : lo % naclMapPagesize = 0) (stop : hi % naclMapPagesize = 0) :
    Stacked lo [⟨lo, naClRoundPage (wordSub hi lo), prot⟩] hi := by
  have size : naClRoundPage (wordSub hi lo) = hi - lo := by
    rw [wordSub_of_le ordered]
    exact naClRoundPage_of_aligned (pagesize_sub stop start) (by omega)
  refine ⟨Nat.le_refl _, pagesize_of_map start, ?_, ?_⟩
  · change naClRoundPage (wordSub hi lo) % naclPagesize = 0
    rw [size]
    exact pagesize_of_map (pagesize_sub stop start)
  · change lo + naClRoundPage (wordSub hi lo) ≤ hi
    omega

theorem stacked_dynamicText {nap : NaClApp} (below : lo ≤ hi)
    (ordered : nap.dynamicTextStart ≤ nap.dynamicTextEnd)
    (empty : nap.dynamicTextStart = nap.dynamicTextEnd ∨
      lo ≤ nap.dynamicTextStart ∧ nap.dynamicTextEnd ≤ hi)
    (start : nap.dynamicTextStart % naclMapPagesize = 0)
    (stop : nap.dynamicTextEnd % naclMapPagesize = 0) : Stacked lo (dynamicTextRegion nap) hi := by
  unfold dynamicTextRegion
  rw [wordSub_of_le ordered]
  by_cases size : nap.dynamicTextEnd - nap.dynamicTextStart = 0
  · rw [if_neg (not_not.mpr size)]
    exact below
  · rw [if_pos size]
    obtain ⟨above, within⟩ := empty.resolve_left (by omega)
    refine ⟨above, pagesize_of_map start, pagesize_of_map (pagesize_sub stop start), ?_⟩
    change nap.dynamicTextStart + (nap.dynamicTextEnd - nap.dynamicTextStart) ≤ hi
    omega

/-! ## The numbers of a load -/

section Reached

variable {options : NaClAppOptions} {phdrs : List ElfPhdr} {info : NaClElfImageInfo}
  {nap : NaClApp}

variable {stop : Nat}

theorem segment_of_bounds {segment : Option ElfPhdr} {start : Nat}
    (recorded : (start, stop) = bounds segment) (some : start ≠ 0) :
    ∃ php, segment = .some php ∧ start = php.pVaddr.toNat ∧ stop = php.memEnd := by
  cases segment with
  | none =>
    cases recorded
    exact absurd rfl some
  | some php =>
    cases recorded
    exact ⟨php, rfl, rfl, rfl⟩

variable {addrBits : Nat}

theorem no_segment_of_bounds {action : NaClPhdrCheckAction} {start : Nat}
    (validated : Validated addrBits phdrs info) (loaded : action ≠ .ignore)
    (recorded : (start, stop) = bounds (segmentOf phdrs action)) (none : start = 0) :
    segmentOf phdrs action = .none := by
  cases found : segmentOf phdrs action with
  | none => rfl
  | some php =>
    have above := (validated.loadable action php loaded found).above
    rw [found] at recorded
    cases recorded
    exact absurd above (none ▸ by decide)

theorem space_le (small : addrBits ≤ naclMaxAddrBits) : 2 ^ addrBits ≤ 2 ^ 32 :=
  Nat.pow_le_pow_right (by decide) small

variable {php : ElfPhdr}

/-- A segment that does not end at 4 GiB ends where the layout says. -/
theorem memEnd_of_below (small : addrBits ≤ naclMaxAddrBits) (loadable : Loadable addrBits info php)
    (below : ¬ EndsAtTop php) : php.memEnd = php.pVaddr.toNat + php.pMemsz.toNat := by
  have space := space_le small
  have within := loadable.within
  unfold EndsAtTop at below
  rw [php.memEnd_eq, Nat.mod_eq_of_lt (by omega)]

theorem memEnd_of_top (top : EndsAtTop php) : php.memEnd = 0 := by
  rw [php.memEnd_eq, top, Nat.mod_self]

/-- The text is the segment that the trampolines are followed by. -/
theorem Reached.text_segment (reached : Reached options phdrs info nap) :
    ∃ php, segmentOf phdrs .textCheck = some php ∧ php.pVaddr.toNat = naclTrampolineEnd ∧
      info.staticTextEnd = naclTrampolineEnd + php.pFilesz.toNat ∧ info.staticTextEnd < 2 ^ 32 := by
  obtain ⟨php, found, start⟩ := reached.validated.required
  have ends := reached.validated.text
  have entry := reached.entry
  have loadable := reached.validated.loadable .textCheck php (by decide) found
  have inside := Nat.le_trans loadable.within (space_le reached.addrBitsSmall)
  have filesz := loadable.filesz
  rw [found, textEnd, BitVec.toNat_add] at ends
  change info.staticTextEnd = (naclTrampolineEnd + php.pFilesz.toNat) % 2 ^ 32 at ends
  rw [start] at inside
  have small : naclTrampolineEnd + php.pFilesz.toNat < 2 ^ 32 := by
    rcases Nat.lt_or_ge (naclTrampolineEnd + php.pFilesz.toNat) (2 ^ 32) with small | large
    · exact small
    · have top : naclTrampolineEnd + php.pFilesz.toNat = 2 ^ 32 := by omega
      rw [top] at ends
      omega
  rw [Nat.mod_eq_of_lt small] at ends
  exact ⟨php, found, start, ends, ends ▸ small⟩

/-- The static text with its halts ends on an allocation page. -/
theorem Reached.staticTextEnd_eq (reached : Reached options phdrs info nap) :
    nap.staticTextEnd = if nap.textShm then naClRoundAllocPage info.staticTextEnd
      else naClRoundAllocPage (info.staticTextEnd + naclHaltSledSize) := by
  obtain ⟨_, _, _, _, small⟩ := reached.text_segment
  have text := naClRoundAllocPage_bounds (n := info.staticTextEnd) (by omega)
  have sled := naClRoundAllocPage_bounds (n := info.staticTextEnd + naclHaltSledSize)
    (by unfold naclHaltSledSize; omega)
  rw [reached.staticTextEnd]
  split
  · rw [wordSub_of_le text.1]
    omega
  · rw [wordSub_of_le (by omega)]
    omega

theorem Reached.staticTextEnd_bounds (reached : Reached options phdrs info nap) :
    naclTrampolineEnd ≤ nap.staticTextEnd ∧ nap.staticTextEnd % naclMapPagesize = 0 := by
  obtain ⟨php, _, _, ends, small⟩ := reached.text_segment
  have text := naClRoundAllocPage_bounds (n := info.staticTextEnd) (by omega)
  have sled := naClRoundAllocPage_bounds (n := info.staticTextEnd + naclHaltSledSize)
    (by unfold naclHaltSledSize; omega)
  rw [reached.staticTextEnd_eq]
  split
  · exact ⟨by omega, naClRoundAllocPage_aligned _⟩
  · exact ⟨by omega, naClRoundAllocPage_aligned _⟩

/-- The break is above the trampolines, and the data ends there. -/
theorem Reached.breakOf_bounds (reached : Reached options phdrs info nap) :
    info.maxVaddr ≤ breakOf info ∧ breakOf info ≤ 2 ^ 33 := by
  have below := reached.validated.below
  have round := naClRoundAllocPage_bounds (n := info.maxVaddr) (by omega)
  have more := naClRoundAllocPage_bounds (n := info.maxVaddr + naclMapPagesize)
    (by unfold naclMapPagesize; omega)
  unfold breakOf
  dsimp only
  unfold naclMapPagesize at *
  split
  · split <;> omega
  · omega

theorem Reached.data_segment (reached : Reached options phdrs info nap)
    (some : info.dataStart ≠ 0) :
    ∃ php, segmentOf phdrs .data = .some php ∧ info.dataStart = php.pVaddr.toNat ∧
      info.dataStart ≤ breakOf info := by
  obtain ⟨php, found, start, stop⟩ := segment_of_bounds reached.validated.data some
  have loadable := reached.validated.loadable .data php (by decide) found
  have last := reached.sane.dataLast some
  refine ⟨php, found, start, ?_⟩
  by_cases top : EndsAtTop php
  · -- the end of such a segment wraps to zero, which is not the break
    rw [stop, memEnd_of_top top] at last
    have above := Nat.le_trans reached.validated.above reached.breakOf_bounds.1
    exact absurd above (last ▸ by decide)
  · rw [← last, start, stop, memEnd_of_below reached.addrBitsSmall loadable top]
    exact Nat.le_add_right _ _

theorem Reached.stack_bounds (reached : Reached options phdrs info nap) :
    naClRoundAllocPage (breakOf info) ≤ stackStart nap ∧
      stackStart nap + nap.stackSize ≤ 2 ^ nap.addrBits ∧ nap.stackSize % naclMapPagesize = 0 := by
  have hole := reached.hole
  have small := reached.stackSmall
  rw [← reached.addrBits, ← reached.stackSize] at hole small
  have trunc := (naClTruncAllocPage_bounds (wordSub (2 ^ nap.addrBits) nap.stackSize)).1
  rw [wordSub_of_le (Nat.le_of_lt small)] at trunc
  refine ⟨hole, ?_, reached.stackSize ▸ naClRoundAllocPage_aligned _⟩
  unfold stackStart
  rw [wordSub_of_le (Nat.le_of_lt small)]
  omega

theorem Reached.dynamicText_bounds (reached : Reached options phdrs info nap) {ro : Nat}
    (text : nap.staticTextEnd ≤ ro) (gap : nap.textShm = true → gapEnd info ≤ ro)
    (ordered : nap.textShm = true → nap.staticTextEnd ≤ gapEnd info)
    (aligned : nap.textShm = true → gapEnd info % naclMapPagesize = 0) :
    nap.dynamicTextStart ≤ nap.dynamicTextEnd ∧
      Stacked nap.staticTextEnd (dynamicTextRegion nap) ro := by
  have start := reached.dynamicTextStart
  have stop := reached.dynamicTextEnd
  have textEnd := reached.staticTextEnd_eq
  have startAligned := naClRoundAllocPage_aligned info.staticTextEnd
  cases dynamic : nap.textShm with
  | true =>
    rw [if_pos dynamic] at stop textEnd
    have inside := ordered dynamic
    have below : nap.dynamicTextStart ≤ nap.dynamicTextEnd := by
      rw [start, stop, ← textEnd]
      exact inside
    refine ⟨below, stacked_dynamicText text below (Or.inr ⟨?_, ?_⟩) ?_ ?_⟩
    · exact Nat.le_of_eq (textEnd.trans start.symm)
    · exact stop ▸ gap dynamic
    · exact start ▸ startAligned
    · exact stop ▸ aligned dynamic
  | false =>
    rw [if_neg (by simp [dynamic])] at stop
    have empty : nap.dynamicTextStart = nap.dynamicTextEnd := start.trans stop.symm
    refine ⟨Nat.le_of_eq empty, stacked_dynamicText text (Nat.le_of_eq empty) (Or.inl empty) ?_ ?_⟩
    · exact start ▸ startAligned
    · exact stop ▸ startAligned

/-- The parts of the address space from the text on, where read-only data is from `ro` on and data
    from `rw` on. -/
theorem Reached.layoutOk (reached : Reached options phdrs info nap) {ro rw : Nat}
    (text : nap.staticTextEnd ≤ ro) (gap : nap.textShm = true → gapEnd info ≤ ro)
    (ordered : nap.textShm = true → nap.staticTextEnd ≤ gapEnd info)
    (aligned : nap.textShm = true → gapEnd info % naclMapPagesize = 0)
    (rodata : (info.rodataStart = 0 ∧ ro ≤ rw) ∨
      (info.rodataStart ≠ 0 ∧ ro = info.rodataStart ∧ naClRoundAllocPage (rodataEnd nap) = rw ∧
        ro ≤ rw)) (data : (info.dataStart = 0 ∧ rw ≤ stackStart nap) ∨
      (info.dataStart ≠ 0 ∧ rw = naClTruncAllocPage info.dataStart)) : LayoutOk nap := by
  obtain ⟨hole, top, stackAligned⟩ := reached.stack_bounds
  obtain ⟨textAbove, textAligned⟩ := reached.staticTextEnd_bounds
  obtain ⟨dynamicOrdered, dynamic⟩ := reached.dynamicText_bounds text gap ordered aligned
  obtain ⟨breakAbove, breakSmall⟩ := reached.breakOf_bounds
  have breakRound := naClRoundAllocPage_bounds (n := breakOf info) (by omega)
  have space := reached.addrBits ▸ space_le reached.addrBitsSmall
  have readWrite : Stacked rw (dataRegion nap) (stackStart nap) := by
    unfold dataRegion
    rw [reached.dataStart, reached.dataEnd]
    rcases data with ⟨none, below⟩ | ⟨some, start⟩
    · rw [if_neg (not_not.mpr none)]
      exact below
    · obtain ⟨_, _, _, last⟩ := reached.data_segment some
      have trunc := (naClTruncAllocPage_bounds info.dataStart).1
      rw [if_pos some, ← start]
      have range : Stacked rw [⟨rw, naClRoundPage (wordSub (naClRoundAllocPage (breakOf info)) rw),
          .readWrite⟩] (naClRoundAllocPage (breakOf info)) :=
        stacked_range .readWrite (by omega) (by omega) (start ▸ naClTruncAllocPage_aligned _)
          (naClRoundAllocPage_aligned _)
      exact range.mono hole
  have dataLow := readWrite.le
  have rodataLow : ro ≤ rw := by
    rcases rodata with ⟨_, below⟩ | ⟨_, _, _, below⟩
    · exact below
    · exact below
  have readOnly : Stacked ro (rodataRegion nap) rw := by
    unfold rodataRegion
    rw [reached.rodataStart]
    rcases rodata with ⟨none, _⟩ | ⟨some, start, stop, _⟩
    · rw [if_neg (not_not.mpr none)]
      exact rodataLow
    · rw [if_pos some, stop, ← start]
      exact stacked_range .read rodataLow (by omega)
        (start ▸ reached.sane.rodataAligned some ▸ naClRoundAllocPage_aligned _)
        (stop ▸ naClRoundAllocPage_aligned _)
  have guard : Stacked 0 [guardRegion] naclSyscallStartAddr :=
    ⟨Nat.le_refl _, rfl, rfl, Nat.le_refl _⟩
  have code : Stacked naclSyscallStartAddr [textRegion nap] nap.staticTextEnd :=
    stacked_range .readExec (Nat.le_trans (by decide) textAbove) (by omega) (by decide) textAligned
  have stack : Stacked (stackStart nap) [stackRegion nap] (2 ^ nap.addrBits) :=
    ⟨Nat.le_refl _, pagesize_of_map (naClTruncAllocPage_aligned _), pagesize_of_map stackAligned,
      top⟩
  have stacked : Stacked 0 (protectedRegions nap) (2 ^ nap.addrBits) :=
    guard.append (code.append (((dynamic.append readOnly).append readWrite).append stack))
  refine ⟨fun r member => (stacked.mem member).2.2, stacked.pairwise,
    fun r member => (stacked.mem member).2.1, ?_⟩
  have trampoline : naclTrampolineStart ≤ naclTrampolineEnd := by decide
  have above := reached.validated.above
  refine
    { image := reached.dataEnd ▸ by omega
      text := textAbove
      dynamicText := dynamicOrdered
      rodata := fun some => ?_
      data := fun some => ?_
      hole := by
        unfold holeStart
        exact reached.dataEnd ▸ hole
      stack := by omega }
  · rw [reached.rodataStart] at some ⊢
    rcases rodata with ⟨none, _⟩ | ⟨_, start, stop, _⟩
    · exact absurd none some
    · rw [stop, ← start]
      exact rodataLow
  · rw [reached.dataStart] at some ⊢
    obtain ⟨_, _, _, last⟩ := reached.data_segment some
    have trunc := (naClTruncAllocPage_bounds info.dataStart).1
    rw [reached.dataEnd]
    omega

/-! ## The four combinations of segments -/

/-- The text with its halts ends below a boundary that its sled is below. -/
theorem Reached.text_le (reached : Reached options phdrs info nap) {limit : Nat}
    (text : naClRoundAllocPage info.staticTextEnd ≤ limit)
    (sled : info.staticTextEnd + naclHaltSledSize ≤ limit) (aligned : limit % naclMapPagesize = 0) :
    nap.staticTextEnd ≤ limit := by
  obtain ⟨_, _, _, _, small⟩ := reached.text_segment
  have round := naClRoundAllocPage_bounds (n := info.staticTextEnd + naclHaltSledSize)
    (by unfold naclHaltSledSize; omega)
  have multiple := naClRoundAllocPage_aligned (info.staticTextEnd + naclHaltSledSize)
  rw [reached.staticTextEnd_eq]
  split
  · exact text
  · unfold naclMapPagesize at *
    omega

theorem Reached.text_le_rodata (reached : Reached options phdrs info nap)
    (some : info.rodataStart ≠ 0) : nap.staticTextEnd ≤ info.rodataStart :=
  reached.text_le (reached.sane.textRodata some) (reached.sledRodata some)
    (reached.sane.rodataAligned some ▸ naClRoundAllocPage_aligned _)

theorem Reached.rodata_segment (reached : Reached options phdrs info nap)
    (some : info.rodataStart ≠ 0) :
    ∃ php, segmentOf phdrs .rodata = .some php ∧ info.rodataStart = php.pVaddr.toNat ∧
      (EndsAtTop php → info.rodataEnd = 0) ∧
      (¬ EndsAtTop php → info.rodataStart ≤ info.rodataEnd) := by
  obtain ⟨php, found, start, stop⟩ := segment_of_bounds reached.validated.rodata some
  have loadable := reached.validated.loadable .rodata php (by decide) found
  refine ⟨php, found, start, fun top => stop.trans (memEnd_of_top top), fun below => ?_⟩
  rw [start, stop, memEnd_of_below reached.addrBitsSmall loadable below]
  exact Nat.le_add_right _ _

theorem Reached.layoutOk_rodata_data (reached : Reached options phdrs info nap)
    (rodata : info.rodataStart ≠ 0) (data : info.dataStart ≠ 0)
    (below : info.rodataStart ≤ naClTruncAllocPage info.dataStart) : LayoutOk nap := by
  obtain ⟨_, _, _, last⟩ := reached.data_segment data
  have breakSmall := reached.breakOf_bounds.2
  have trunc := (naClTruncAllocPage_bounds info.dataStart).1
  have gap : gapEnd info = info.rodataStart := if_pos rodata
  have text := reached.text_le_rodata rodata
  have stop : naClRoundAllocPage (rodataEnd nap) = naClTruncAllocPage info.dataStart := by
    unfold rodataEnd
    rw [reached.dataStart, if_pos data]
    exact naClRoundAllocPage_of_aligned (naClTruncAllocPage_aligned _) (by omega)
  exact reached.layoutOk text (fun _ => Nat.le_of_eq gap) (fun _ => gap ▸ text)
    (fun _ => gap ▸ reached.sane.rodataAligned rodata ▸ naClRoundAllocPage_aligned _)
    (Or.inr ⟨rodata, rfl, stop, below⟩) (Or.inr ⟨data, rfl⟩)

theorem Reached.layoutOk_rodata (reached : Reached options phdrs info nap)
    (rodata : info.rodataStart ≠ 0) (data : info.dataStart = 0)
    (below : info.rodataStart ≤ naClRoundAllocPage (breakOf info)) : LayoutOk nap := by
  have gap : gapEnd info = info.rodataStart := if_pos rodata
  have text := reached.text_le_rodata rodata
  have stop : naClRoundAllocPage (rodataEnd nap) = naClRoundAllocPage (breakOf info) := by
    unfold rodataEnd
    rw [reached.dataStart, if_neg (not_not.mpr data), reached.breakAddr]
  exact reached.layoutOk text (fun _ => Nat.le_of_eq gap) (fun _ => gap ▸ text)
    (fun _ => gap ▸ reached.sane.rodataAligned rodata ▸ naClRoundAllocPage_aligned _)
    (Or.inr ⟨rodata, rfl, stop, below⟩) (Or.inl ⟨data, reached.stack_bounds.1⟩)

theorem Reached.layoutOk_data (reached : Reached options phdrs info nap)
    (rodata : info.rodataStart = 0) (data : info.dataStart ≠ 0) : LayoutOk nap := by
  have text := reached.text_le (reached.sane.textData rodata data) (reached.sledData data)
    (naClTruncAllocPage_aligned _)
  have some : naClTruncAllocPage info.dataStart ≠ 0 := by
    have above := reached.sledData data
    unfold naclHaltSledSize at above
    omega
  have gap : gapEnd info = naClTruncAllocPage info.dataStart := by
    unfold gapEnd
    rw [if_neg (not_not.mpr rodata), if_pos some]
  exact reached.layoutOk text (fun _ => Nat.le_of_eq gap) (fun _ => gap ▸ text)
    (fun _ => gap ▸ naClTruncAllocPage_aligned _) (Or.inl ⟨rodata, Nat.le_refl _⟩)
    (Or.inr ⟨data, rfl⟩)

theorem Reached.no_shm (reached : Reached options phdrs info nap)
    (rodata : info.rodataStart = 0) (data : info.dataStart = 0) : nap.textShm ≠ true := by
  intro dynamic
  refine reached.nonempty dynamic ?_
  unfold gapEnd
  rw [if_neg (not_not.mpr rodata), data]
  rfl

theorem Reached.layoutOk_text (reached : Reached options phdrs info nap)
    (rodata : info.rodataStart = 0) (data : info.dataStart = 0)
    (text : nap.staticTextEnd ≤ stackStart nap) : LayoutOk nap := by
  have static := reached.no_shm rodata data
  exact reached.layoutOk text (fun dynamic => absurd dynamic static)
    (fun dynamic => absurd dynamic static) (fun dynamic => absurd dynamic static)
    (Or.inl ⟨rodata, Nat.le_refl _⟩) (Or.inl ⟨data, Nat.le_refl _⟩)

/-- With neither data nor read-only data, the break leaves room for the halt sled. -/
theorem Reached.sled_below_break (reached : Reached options phdrs info nap)
    (rodata : info.rodataStart = 0) (data : info.dataStart = 0) (below : stop ≤ info.maxVaddr) :
    naClRoundAllocPage (stop + naclHaltSledSize) ≤ breakOf info := by
  have small := reached.validated.below
  have sled := naClRoundAllocPage_bounds (n := stop + naclHaltSledSize)
    (by unfold naclHaltSledSize; omega)
  have sledAligned := naClRoundAllocPage_aligned (stop + naclHaltSledSize)
  have round := naClRoundAllocPage_bounds (n := info.maxVaddr) (by omega)
  have roundAligned := naClRoundAllocPage_aligned info.maxVaddr
  have more := naClRoundAllocPage_bounds (n := info.maxVaddr + naclMapPagesize)
    (by unfold naclMapPagesize; omega)
  have moreAligned := naClRoundAllocPage_aligned (info.maxVaddr + naclMapPagesize)
  unfold breakOf
  rw [if_pos data]
  dsimp only
  rw [wordSub_of_le round.1]
  unfold naclHaltSledSize naclMapPagesize at *
  split
  · omega
  · rename_i room
    have wide : ¬ naClRoundAllocPage info.maxVaddr - info.maxVaddr < 32 :=
      fun narrow => room ⟨rodata, narrow⟩
    omega

/-- Where the stack starts when the address space has 32 bits. -/
theorem Reached.stackStart_of_top (reached : Reached options phdrs info nap)
    (found : segmentOf phdrs .textCheck = some php) (top : EndsAtTop php) :
    stackStart nap + naClRoundAllocPage options.stackSize = 2 ^ 32 := by
  have loadable := reached.validated.loadable .textCheck php (by decide) found
  have within := loadable.within
  have space := space_le reached.addrBitsSmall
  have small := reached.stackSmall
  have aligned := naClRoundAllocPage_aligned options.stackSize
  rw [top] at within
  have full : 2 ^ options.addrBits = 2 ^ 32 := Nat.le_antisymm space within
  rw [full] at small
  unfold stackStart
  rw [reached.addrBits, reached.stackSize, full, wordSub_of_le (Nat.le_of_lt small), naClTruncAllocPage_of_aligned]
  · omega
  · unfold naclMapPagesize at *
    omega

theorem Reached.layoutOk_of_fits (reached : Reached options phdrs info nap)
    (fits : Fits options phdrs) : LayoutOk nap := by
  by_cases rodata : info.rodataStart = 0
  · by_cases data : info.dataStart = 0
    · refine reached.layoutOk_text rodata data ?_
      obtain ⟨php, found, start, ends, _⟩ := reached.text_segment
      have loadable := reached.validated.loadable .textCheck php (by decide) found
      have noRodata := no_segment_of_bounds reached.validated (by decide)
        reached.validated.rodata rodata
      have noData := no_segment_of_bounds reached.validated (by decide)
        reached.validated.data data
      rw [reached.staticTextEnd_eq, if_neg (reached.no_shm rodata data)]
      by_cases top : EndsAtTop php
      · have room := fits.text php found top noRodata noData
        have stack := reached.stackStart_of_top found top
        rw [ends]
        omega
      · have counted := loadable.counted
        have filesz := loadable.filesz
        rw [memEnd_of_below reached.addrBitsSmall loadable top, start] at counted
        have sled := reached.sled_below_break rodata data
          (show info.staticTextEnd ≤ info.maxVaddr by omega)
        have breakRound := naClRoundAllocPage_bounds (n := breakOf info)
          (Nat.le_trans reached.breakOf_bounds.2 (by decide))
        have hole := reached.stack_bounds.1
        omega
    · exact reached.layoutOk_data rodata data
  · obtain ⟨php, found, start, atTop, below⟩ := reached.rodata_segment rodata
    by_cases data : info.dataStart = 0
    · have last := reached.sane.rodataLast data rodata
      have above := Nat.le_trans reached.validated.above reached.breakOf_bounds.1
      have breakRound := naClRoundAllocPage_bounds (n := breakOf info)
        (Nat.le_trans reached.breakOf_bounds.2 (by decide))
      by_cases top : EndsAtTop php
      · -- the break would be zero
        rw [atTop top] at last
        exact absurd above (last ▸ by decide)
      · refine reached.layoutOk_rodata rodata data ?_
        have within := below top
        have small : info.rodataEnd ≤ 2 ^ 32 := by
          obtain ⟨php', _, _, stop⟩ := segment_of_bounds reached.validated.rodata rodata
          exact stop ▸ Nat.le_of_lt (php'.pVaddr + php'.pMemsz).isLt
        have round := naClRoundAllocPage_bounds (n := info.rodataEnd) (by omega)
        omega
    · refine reached.layoutOk_rodata_data rodata data ?_
      by_cases top : EndsAtTop php
      · obtain ⟨_, foundData, startData, _⟩ := reached.data_segment data
        obtain ⟨php', foundData', ordered⟩ := fits.rodata php found top
        cases foundData.symm.trans foundData'
        rw [start, startData]
        exact ordered
      · exact Nat.le_trans (below top) (reached.sane.rodataData rodata data)

theorem Reached.fits_of_layoutOk (reached : Reached options phdrs info nap)
    (ok : LayoutOk nap) : Fits options phdrs := by
  constructor
  · intro php found top
    have rodata : info.rodataStart ≠ 0 := by
      have recorded := reached.validated.rodata
      have above := (reached.validated.loadable .rodata php (by decide) found).above
      rw [found] at recorded
      have start : info.rodataStart = php.pVaddr.toNat := congrArg Prod.fst recorded
      exact fun none => absurd above (start ▸ none ▸ by decide)
    obtain ⟨php', found', start, atTop, _⟩ := reached.rodata_segment rodata
    cases found.symm.trans found'
    have data : info.dataStart ≠ 0 := by
      intro none
      have last := reached.sane.rodataLast none rodata
      have above := Nat.le_trans reached.validated.above reached.breakOf_bounds.1
      rw [atTop top] at last
      exact absurd above (last ▸ by decide)
    obtain ⟨dataPhp, foundData, startData, last⟩ := reached.data_segment data
    refine ⟨dataPhp, foundData, ?_⟩
    have trunc := (naClTruncAllocPage_bounds info.dataStart).1
    have breakSmall := reached.breakOf_bounds.2
    have ordered := ok.noUnderflow.rodata (reached.rodataStart ▸ rodata)
    unfold rodataEnd at ordered
    rw [reached.dataStart, if_pos data, reached.rodataStart,
      naClRoundAllocPage_of_aligned (naClTruncAllocPage_aligned _) (by omega)] at ordered
    rw [← start, ← startData]
    exact ordered
  · intro php found top noRodata noData
    obtain ⟨php', found', start, ends, small⟩ := reached.text_segment
    cases found.symm.trans found'
    have rodata : info.rodataStart = 0 := by
      have recorded := reached.validated.rodata
      rw [noRodata] at recorded
      exact congrArg Prod.fst recorded
    have data : info.dataStart = 0 := by
      have recorded := reached.validated.data
      rw [noData] at recorded
      exact congrArg Prod.fst recorded
    have ordered := ok.ordered
    unfold protectedRegions at ordered
    have apart : (textRegion nap).start + (textRegion nap).size ≤ stackStart nap :=
      List.rel_of_pairwise_cons (List.pairwise_cons.mp ordered).2
        (List.mem_append_right _ (List.mem_singleton.mpr rfl))
    obtain ⟨above, aligned⟩ := reached.staticTextEnd_bounds
    have stack := reached.stackStart_of_top found top
    have text := reached.staticTextEnd_eq
    rw [if_neg (reached.no_shm rodata data), ends] at text
    have round := naClRoundAllocPage_bounds
      (n := naclTrampolineEnd + php.pFilesz.toNat + naclHaltSledSize)
      (by unfold naclHaltSledSize; omega)
    have size : (textRegion nap).size = nap.staticTextEnd - naclSyscallStartAddr := by
      unfold textRegion
      rw [wordSub_of_le (Nat.le_trans (by decide) above)]
      exact naClRoundPage_of_aligned (pagesize_sub aligned (by decide))
        (by unfold naclHaltSledSize naclMapPagesize at *; omega)
    rw [size] at apart
    change naclSyscallStartAddr + (nap.staticTextEnd - naclSyscallStartAddr) ≤ stackStart nap at apart
    have higher : naclSyscallStartAddr ≤ naclTrampolineEnd := by decide
    omega

end Reached

/-! ## Every load -/

/-- A load that ends well has recorded the regions of the application it leaves. -/
theorem naClAppLoadFileAslr_ok {options : NaClAppOptions} {image : NaClElfImage}
    {outside : Outside} {nap : NaClApp} {regions : List Region}
    (loaded : naClAppLoadFileAslr (naClAppCtor options) image outside = .ok (nap, regions)) :
    beforeProtection (naClAppCtor options) image outside = .ok nap ∧
      regions = protectedRegions nap := by
  unfold naClAppLoadFileAslr at loaded
  obtain ⟨nap', reaches, loaded⟩ := bind_eq_ok loaded
  obtain ⟨regions', recorded, loaded⟩ := bind_eq_ok loaded
  cases loaded
  unfold naClMemoryProtection at recorded
  obtain ⟨_, recorded⟩ := refuseIf_ok recorded
  obtain ⟨_, recorded⟩ := refuseIf_ok recorded
  obtain ⟨_, recorded⟩ := refuseIf_ok recorded
  obtain ⟨_, recorded⟩ := refuseIf_ok recorded
  exact ⟨reaches, (Except.ok.inj recorded).symm⟩

/-- The settings of the constructor, with a stack of 16 MiB. -/
def defaultOptions : NaClAppOptions := ⟨32, 2 ^ 24, 0, true⟩

/-- Every call outside the loader succeeds. -/
def willing : Outside := ⟨.ok (), .ok (), true, .ok (), true, true, .ok (), true, true, true, true⟩

/-- Text and data, and read-only data at `vaddr`. -/
def imageWithRodata (vaddr : BitVec 32) : NaClElfImage :=
  ⟨0x20000, [⟨ptLoad, pfR ||| pfX, 0x20000, 0x1000, 0x1000⟩,
    ⟨ptLoad, pfR, vaddr, 0x1000, 0x10000⟩, ⟨ptLoad, pfR ||| pfW, 0x80000, 0x1000, 0x2000⟩]⟩

end SandboxTEE.Loader
