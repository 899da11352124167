import SandboxTEE.Loader.Headers

/-! # The layout of a loaded image

Which regions the loader lays out, and when they are aligned, ordered and inside the address space.
-/

namespace SandboxTEE.Loader

open SandboxTEE.Lib

/-! ## Rounding -/

theorem wordSub_of_le {a b : Nat} (h : b ≤ a) : wordSub a b = a - b := if_pos h

theorem naClRoundAllocPage_aligned (n : Nat) : naClRoundAllocPage n % naclMapPagesize = 0 :=
  Nat.mul_mod_left _ _

theorem naClTruncAllocPage_aligned (n : Nat) : naClTruncAllocPage n % naclMapPagesize = 0 :=
  Nat.mul_mod_left _ _

variable {n : Nat}

theorem naClRoundAllocPage_bounds (small : n ≤ 2 ^ 40) :
    n ≤ naClRoundAllocPage n ∧ naClRoundAllocPage n < n + naclMapPagesize := by
  unfold naClRoundAllocPage
  rw [Nat.mod_eq_of_lt (by unfold naclMapPagesize; omega)]
  unfold naclMapPagesize
  omega

theorem naClTruncAllocPage_bounds (n : Nat) :
    naClTruncAllocPage n ≤ n ∧ n < naClTruncAllocPage n + naclMapPagesize := by
  unfold naClTruncAllocPage naclMapPagesize
  omega

theorem naClRoundAllocPage_of_aligned (aligned : n % naclMapPagesize = 0) (small : n ≤ 2 ^ 40) :
    naClRoundAllocPage n = n := by
  have bounds := naClRoundAllocPage_bounds small
  have multiple := naClRoundAllocPage_aligned n
  unfold naclMapPagesize at *
  omega

theorem naClTruncAllocPage_of_aligned (aligned : n % naclMapPagesize = 0) :
    naClTruncAllocPage n = n := by
  have bounds := naClTruncAllocPage_bounds n
  have multiple := naClTruncAllocPage_aligned n
  unfold naclMapPagesize at *
  omega

theorem naClRoundPage_of_aligned (aligned : n % naclMapPagesize = 0) (small : n ≤ 2 ^ 40) :
    naClRoundPage n = n := by
  unfold naClRoundPage
  rw [Nat.mod_eq_of_lt (by unfold naclPagesize; omega)]
  unfold naclPagesize
  unfold naclMapPagesize at aligned
  omega

/-! ## What the sanity check leaves -/

structure Sane (staticTextEnd rodataStart rodataEnd dataStart dataEnd maxVaddr : Nat) : Prop where
  dataLast : dataStart ≠ 0 → dataEnd = maxVaddr
  rodataLast : dataStart = 0 → rodataStart ≠ 0 → naClRoundAllocPage rodataEnd = maxVaddr
  rodataData : rodataStart ≠ 0 → dataStart ≠ 0 → rodataEnd ≤ naClTruncAllocPage dataStart
  textRodata : rodataStart ≠ 0 → naClRoundAllocPage staticTextEnd ≤ rodataStart
  textData : rodataStart = 0 → dataStart ≠ 0 →
    naClRoundAllocPage staticTextEnd ≤ naClTruncAllocPage dataStart
  rodataAligned : rodataStart ≠ 0 → naClRoundAllocPage rodataStart = rodataStart

theorem refuseIf_ok {ε β : Type} {refused : Prop} [Decidable refused] {error : ε}
    {f : Unit → Except ε β} {r : β} (run : refuseIf refused error >>= f = .ok r) :
    ¬ refused ∧ f () = .ok r := by
  unfold refuseIf at run
  split at run
  · cases run
  · rename_i passed
    exact ⟨passed, run⟩

theorem orCode_ok {α : Type} {result : Except NaClErrorCode α} {a : α}
    (run : orCode result = .ok a) : result = .ok a := by
  cases result with
  | error e => cases run
  | ok b =>
    cases run
    rfl

variable {nap : NaClApp}

theorem naClCheckAddressSpaceLayoutSanity_ok {rodataEnd dataEnd maxVaddr : Nat}
    (passed : naClCheckAddressSpaceLayoutSanity nap rodataEnd dataEnd maxVaddr = .ok ()) :
    Sane nap.staticTextEnd nap.rodataStart rodataEnd nap.dataStart dataEnd maxVaddr := by
  unfold naClCheckAddressSpaceLayoutSanity naClEndOfStaticText at passed
  obtain ⟨dataLast, passed⟩ := refuseIf_ok passed
  obtain ⟨rodataLast, passed⟩ := refuseIf_ok passed
  obtain ⟨rodataData, passed⟩ := refuseIf_ok passed
  obtain ⟨textRodata, passed⟩ := refuseIf_ok passed
  obtain ⟨textData, passed⟩ := refuseIf_ok passed
  have rodataAligned := (refuseIf_ok passed).1
  exact ⟨by grind, by grind, by grind, by grind, by grind, by grind⟩

/-! ## What the other steps leave -/

variable {outside : Outside}

theorem naClAllocAddrSpaceAslr_ok (allocated : naClAllocAddrSpaceAslr nap outside = .ok ()) :
    nap.stackSize < 2 ^ nap.addrBits ∧ holeStart nap ≤ stackStart nap := by
  unfold naClAllocAddrSpaceAslr at allocated
  obtain ⟨_, _, allocated⟩ := bind_eq_ok allocated
  obtain ⟨small, allocated⟩ := refuseIf_ok allocated
  obtain ⟨apart, _⟩ := refuseIf_ok allocated
  exact ⟨Nat.not_le.mp small, Nat.not_lt.mp apart⟩

/-- The application after the decision about dynamic text. -/
structure Shared (nap nap' : NaClApp) : Prop where
  addrBits : nap'.addrBits = nap.addrBits
  stackSize : nap'.stackSize = nap.stackSize
  staticTextEnd : nap'.staticTextEnd = nap.staticTextEnd
  rodataStart : nap'.rodataStart = nap.rodataStart
  dataStart : nap'.dataStart = nap.dataStart
  dataEnd : nap'.dataEnd = nap.dataEnd
  breakAddr : nap'.breakAddr = nap.breakAddr
  dynamicTextStart : nap'.dynamicTextStart = naClRoundAllocPage nap.staticTextEnd
  dynamicTextEnd : nap'.dynamicTextEnd =
    if nap'.textShm then shmUpperBound nap else naClRoundAllocPage nap.staticTextEnd
  nonempty : nap'.textShm = true → shmUpperBound nap ≠ naClRoundAllocPage nap.staticTextEnd

theorem shared_without (fresh : nap.textShm = false) : Shared nap (withoutDynamicText nap) := by
  cases nap
  cases fresh
  exact ⟨rfl, rfl, rfl, rfl, rfl, rfl, rfl, rfl, (if_neg Bool.false_ne_true).symm, nofun⟩

theorem shared_with (nonempty : shmUpperBound nap ≠ naClRoundAllocPage nap.staticTextEnd) :
    Shared nap (withDynamicText nap) := by
  cases nap
  exact ⟨rfl, rfl, rfl, rfl, rfl, rfl, rfl, rfl, (if_pos rfl).symm, fun _ => nonempty⟩

variable {nap' : NaClApp}

theorem naClMakeDynamicTextShared_ok (fresh : nap.textShm = false)
    (made : naClMakeDynamicTextShared nap outside = .ok nap') : Shared nap nap' := by
  unfold naClMakeDynamicTextShared at made
  split at made
  · rw [← Except.ok.inj made]
    exact shared_without fresh
  · split at made
    · rw [← Except.ok.inj made]
      exact shared_without fresh
    · rename_i nonempty
      obtain ⟨_, made⟩ := refuseIf_ok made
      obtain ⟨_, made⟩ := refuseIf_ok made
      rw [← Except.ok.inj made]
      refine shared_with fun equal => nonempty ?_
      rw [equal, naClEndOfStaticText, wordSub_of_le (Nat.le_refl _), Nat.sub_self]

/-- The application after its halts are filled in. -/
structure Padded (nap nap' : NaClApp) : Prop where
  addrBits : nap'.addrBits = nap.addrBits
  stackSize : nap'.stackSize = nap.stackSize
  staticTextEnd : nap'.staticTextEnd = nap.staticTextEnd + pagePad nap
  rodataStart : nap'.rodataStart = nap.rodataStart
  dataStart : nap'.dataStart = nap.dataStart
  dataEnd : nap'.dataEnd = nap.dataEnd
  breakAddr : nap'.breakAddr = nap.breakAddr
  dynamicTextStart : nap'.dynamicTextStart = nap.dynamicTextStart
  dynamicTextEnd : nap'.dynamicTextEnd = nap.dynamicTextEnd
  textShm : nap'.textShm = nap.textShm

theorem padded_padText (nap : NaClApp) : Padded nap (padText nap) := by
  cases nap
  exact ⟨rfl, rfl, rfl, rfl, rfl, rfl, rfl, rfl, rfl, rfl⟩

theorem naClFillEndOfTextRegion_ok (filled : naClFillEndOfTextRegion nap = .ok nap') :
    (nap.dataStart ≠ 0 → nap.staticTextEnd + naclHaltSledSize ≤ naClTruncAllocPage nap.dataStart) ∧
    (nap.rodataStart ≠ 0 → nap.staticTextEnd + naclHaltSledSize ≤ nap.rodataStart) ∧
    Padded nap nap' := by
  unfold naClFillEndOfTextRegion at filled
  obtain ⟨data, filled⟩ := refuseIf_ok filled
  obtain ⟨rodata, filled⟩ := refuseIf_ok filled
  obtain ⟨_, filled⟩ := refuseIf_ok filled
  obtain ⟨_, filled⟩ := refuseIf_ok filled
  refine ⟨fun some => Nat.not_lt.mp fun short => data ⟨some, short⟩,
    fun some => Nat.not_lt.mp fun short => rodata ⟨some, short⟩, ?_⟩
  rw [← Except.ok.inj filled]
  exact padded_padText nap

/-- The application with the layout of its image. -/
structure Prepared (options : NaClAppOptions) (info : NaClElfImageInfo) (nap : NaClApp) : Prop where
  addrBits : nap.addrBits = options.addrBits
  stackSize : nap.stackSize = naClRoundAllocPage options.stackSize
  staticTextEnd : nap.staticTextEnd = info.staticTextEnd
  rodataStart : nap.rodataStart = info.rodataStart
  dataStart : nap.dataStart = info.dataStart
  dataEnd : nap.dataEnd = breakOf info
  breakAddr : nap.breakAddr = breakOf info
  textShm : nap.textShm = false
  bundleSize : nap.bundleSize = naclInstrBlockSize

theorem prepared (options : NaClAppOptions) (image : NaClElfImage) (info : NaClElfImageInfo) :
    Prepared options info (setLayout (roundStack (naClAppCtor options)) image info) := by
  cases options
  exact ⟨rfl, rfl, rfl, rfl, rfl, rfl, rfl, rfl, rfl⟩

theorem roundStack_addrBits (options : NaClAppOptions) :
    (roundStack (naClAppCtor options)).addrBits = options.addrBits := by
  cases options
  rfl

/-! ## What a load that reaches the protection leaves -/

/-- Where the gap after the text ends that can hold dynamic text. -/
def gapEnd (info : NaClElfImageInfo) : Nat :=
  if info.rodataStart ≠ 0 then info.rodataStart
  else if naClTruncAllocPage info.dataStart ≠ 0 then naClTruncAllocPage info.dataStart
  else naClRoundAllocPage info.staticTextEnd

/-- The application when it reaches `NaClMemoryProtection`. -/
structure Reached (options : NaClAppOptions) (phdrs : List ElfPhdr) (info : NaClElfImageInfo)
    (nap : NaClApp) : Prop where
  addrBits : nap.addrBits = options.addrBits
  addrBitsSmall : options.addrBits ≤ naclMaxAddrBits
  stackSize : nap.stackSize = naClRoundAllocPage options.stackSize
  stackSmall : naClRoundAllocPage options.stackSize < 2 ^ options.addrBits
  validated : Validated options.addrBits phdrs info
  entry : 0 < info.staticTextEnd
  sane : Sane info.staticTextEnd info.rodataStart info.rodataEnd info.dataStart info.dataEnd
    (breakOf info)
  hole : naClRoundAllocPage (breakOf info) ≤
    naClTruncAllocPage (wordSub (2 ^ options.addrBits) (naClRoundAllocPage options.stackSize))
  sledData : info.dataStart ≠ 0 →
    info.staticTextEnd + naclHaltSledSize ≤ naClTruncAllocPage info.dataStart
  sledRodata : info.rodataStart ≠ 0 → info.staticTextEnd + naclHaltSledSize ≤ info.rodataStart
  rodataStart : nap.rodataStart = info.rodataStart
  dataStart : nap.dataStart = info.dataStart
  dataEnd : nap.dataEnd = breakOf info
  breakAddr : nap.breakAddr = breakOf info
  dynamicTextStart : nap.dynamicTextStart = naClRoundAllocPage info.staticTextEnd
  dynamicTextEnd : nap.dynamicTextEnd =
    if nap.textShm then gapEnd info else naClRoundAllocPage info.staticTextEnd
  nonempty : nap.textShm = true → gapEnd info ≠ naClRoundAllocPage info.staticTextEnd
  staticTextEnd : nap.staticTextEnd = info.staticTextEnd +
    if nap.textShm then wordSub (naClRoundAllocPage info.staticTextEnd) info.staticTextEnd
    else wordSub (naClRoundAllocPage (info.staticTextEnd + naclHaltSledSize)) info.staticTextEnd

variable {options : NaClAppOptions}

theorem Prepared.shmUpperBound {info : NaClElfImageInfo} (base : Prepared options info nap) :
    shmUpperBound nap = gapEnd info := by
  unfold Loader.shmUpperBound gapEnd naClEndOfStaticText
  rw [base.rodataStart, base.dataStart, base.staticTextEnd]

theorem beforeProtection_ok {image : NaClElfImage}
    (loaded : beforeProtection (naClAppCtor options) image outside = .ok nap) :
    ∃ info, Reached options image.phdrs info nap := by
  unfold beforeProtection at loaded
  obtain ⟨addrBits, loaded⟩ := refuseIf_ok loaded
  obtain ⟨info, validated, loaded⟩ := bind_eq_ok loaded
  obtain ⟨_, loaded⟩ := refuseIf_ok loaded
  obtain ⟨entry, loaded⟩ := refuseIf_ok loaded
  obtain ⟨_, sane, loaded⟩ := bind_eq_ok loaded
  obtain ⟨_, allocated, loaded⟩ := bind_eq_ok loaded
  obtain ⟨_, loaded⟩ := refuseIf_ok loaded
  obtain ⟨_, _, loaded⟩ := bind_eq_ok loaded
  obtain ⟨shared, made, loaded⟩ := bind_eq_ok loaded
  obtain ⟨filled, fill, loaded⟩ := bind_eq_ok loaded
  obtain ⟨_, _, loaded⟩ := bind_eq_ok loaded
  have base := prepared options image info
  have shared := naClMakeDynamicTextShared_ok base.textShm made
  obtain ⟨sledData, sledRodata, padded⟩ := naClFillEndOfTextRegion_ok fill
  obtain ⟨stackSmall, hole⟩ := naClAllocAddrSpaceAslr_ok allocated
  have validated := naClElfImageValidateProgramHeaders_ok (orCode_ok validated)
  have sane := naClCheckAddressSpaceLayoutSanity_ok (orCode_ok sane)
  have entry := of_decide_eq_true (Decidable.not_not.mp entry)
  have last : nap = _ := (Except.ok.inj loaded).symm
  rw [← last] at padded
  unfold holeStart stackStart at hole
  rw [base.dataEnd, base.addrBits, base.stackSize] at hole
  rw [base.addrBits, base.stackSize] at stackSmall
  rw [shared.dataStart, shared.staticTextEnd, base.dataStart, base.staticTextEnd] at sledData
  rw [shared.rodataStart, shared.staticTextEnd, base.rodataStart, base.staticTextEnd] at sledRodata
  rw [base.staticTextEnd, base.rodataStart, base.dataStart, base.breakAddr] at sane
  rw [base.staticTextEnd] at entry
  rw [roundStack_addrBits] at validated
  have pad := padded.staticTextEnd
  unfold pagePad at pad
  rw [← padded.textShm, shared.staticTextEnd, base.staticTextEnd] at pad
  have dynamicTextEnd := padded.dynamicTextEnd.trans shared.dynamicTextEnd
  rw [← padded.textShm, base.shmUpperBound, base.staticTextEnd] at dynamicTextEnd
  have nonempty := shared.nonempty
  rw [← padded.textShm, base.shmUpperBound, base.staticTextEnd] at nonempty
  exact ⟨info,
    { addrBits := padded.addrBits.trans (shared.addrBits.trans base.addrBits)
      addrBitsSmall := Nat.not_lt.mp addrBits
      stackSize := padded.stackSize.trans (shared.stackSize.trans base.stackSize)
      stackSmall
      validated
      entry := Nat.lt_of_le_of_lt (Nat.zero_le _) entry.2
      sane
      hole
      sledData
      sledRodata
      rodataStart := padded.rodataStart.trans (shared.rodataStart.trans base.rodataStart)
      dataStart := padded.dataStart.trans (shared.dataStart.trans base.dataStart)
      dataEnd := padded.dataEnd.trans (shared.dataEnd.trans base.dataEnd)
      breakAddr := padded.breakAddr.trans (shared.breakAddr.trans base.breakAddr)
      dynamicTextStart := padded.dynamicTextStart.trans
        (base.staticTextEnd ▸ shared.dynamicTextStart)
      dynamicTextEnd
      nonempty
      staticTextEnd := pad }⟩

end SandboxTEE.Loader
