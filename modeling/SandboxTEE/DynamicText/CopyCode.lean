import SandboxTEE.DynamicText.Create
import SandboxTEE.Lib.Publish

/-! # Installing code while others run (`CopyCodeSafelyInitial` in `nacl_text.c`)

New code is copied over bundles of HLTs.  First everything but the first word of each bundle, then,
behind a barrier, the first words: a thread that enters a bundle finds its HLTs or all of it.  The
loop over the tails takes the size as an `int32_t`, the one over the heads as an `uint32_t`: from
`2 ^ 31` bytes on no tail is copied (`copyCodeSafelyInitial_iff`).  But so much shared memory is
never mapped, and every copy that `NaClTextDyncodeCreate` makes is safe
(`naClTextDyncodeCreate_installs`).

Memory is one of aligned 32-bit words, which the copy writes one by one.  Pointers are integers:
`dest + size` is compared without wrapping around, as the mapping is far from address zero.
-/

namespace SandboxTEE.DynamicText

open SandboxTEE.Lib
open SandboxTEE.Runtime

abbrev Word := BitVec 32

/-- The address that is written, and the word. -/
abbrev Write := Nat × Word

/-- `NACL_HALT_WORD` -/
def naclHaltWord : Word := 0xf4f4f4f4

/-- The loop of `CopyBundleTails`.  `code` are the words of the buffer by their offset in it. -/
def copyTailsLoop (code : Nat → Word) (endPtr : Int) (bundleMask destPtr srcOffset : Nat) :
    List Write :=
  if (destPtr : Int) < endPtr then
    (if destPtr &&& bundleMask ≠ 0 then [(destPtr, code srcOffset)] else []) ++
      copyTailsLoop code endPtr bundleMask (destPtr + 4) (srcOffset + 4)
  else []
termination_by (endPtr - destPtr).toNat

/-- `none` where the check of the alignment fails.  The size is an `int32_t`. -/
def copyBundleTails (dest : Nat) (code : Nat → Word) (size : BitVec 32) (bundleSize : Nat) :
    Option (List Write) :=
  if dest &&& 3 = 0 then
    some (copyTailsLoop code (dest + size.toInt) (bundleSize - 1) dest 0)
  else none

/-- The loop of `CopyBundleHeads`; a stride is positive. -/
def copyHeadsLoop (code : Nat → Word) (endPtr stride : Nat) (positive : 0 < stride)
    (destPtr srcOffset : Nat) : List Write :=
  if destPtr < endPtr then
    (destPtr, code srcOffset) ::
      copyHeadsLoop code endPtr stride positive (destPtr + stride) (srcOffset + stride)
  else []
termination_by endPtr - destPtr

/-- The size is an `uint32_t`. -/
def copyBundleHeads (dest : Nat) (code : Nat → Word) (size : BitVec 32) (bundleSize : Nat)
    (positive : 0 < bundleSize) : Option (List Write) :=
  if dest &&& 3 = 0 then
    some (copyHeadsLoop code (dest + size.toNat) bundleSize positive dest 0)
  else none

/-- The writes in front of the barrier and behind it. -/
def copyCodeSafelyInitial (dest : Nat) (code : Nat → Word) (size : BitVec 32) (bundleSize : Nat)
    (positive : 0 < bundleSize) : Option (List Write × List Write) := do
  let tails ← copyBundleTails dest code size bundleSize
  let heads ← copyBundleHeads dest code size bundleSize positive
  some (tails, heads)

/-! ## What the loops write -/

variable {w : Write} {destPtr srcOffset : Nat}

theorem mem_copyTailsLoop {code : Nat → Word} {endPtr : Int} {bundleMask : Nat} :
    w ∈ copyTailsLoop code endPtr bundleMask destPtr srcOffset ↔
      ∃ i, ((destPtr + 4 * i : Nat) : Int) < endPtr ∧ (destPtr + 4 * i) &&& bundleMask ≠ 0 ∧
        w = (destPtr + 4 * i, code (srcOffset + 4 * i)) := by
  induction destPtr, srcOffset using copyTailsLoop.induct endPtr with
  | case1 destPtr srcOffset inside ih =>
    -- the first word, and the words of the later rounds
    rw [copyTailsLoop, if_pos inside, List.mem_append, ih]
    refine Iff.trans (or_congr ?_ (exists_congr fun i => ?_)) Nat.or_exists_add_one
    · by_cases head : destPtr &&& bundleMask = 0 <;> simp [inside, head]
    · rw [Nat.mul_add, Nat.mul_one, Nat.add_comm (4 * i), ← Nat.add_assoc, ← Nat.add_assoc]
  | case2 destPtr srcOffset outside =>
    rw [copyTailsLoop, if_neg outside]
    constructor
    · intro none
      cases none
    · rintro ⟨i, before, -⟩
      omega

theorem mem_copyHeadsLoop {code : Nat → Word} {endPtr stride : Nat} {positive : 0 < stride} :
    w ∈ copyHeadsLoop code endPtr stride positive destPtr srcOffset ↔
      ∃ j, destPtr + stride * j < endPtr ∧ w = (destPtr + stride * j, code (srcOffset + stride * j)) := by
  induction destPtr, srcOffset using copyHeadsLoop.induct endPtr stride with
  | positive => exact positive
  | case1 destPtr srcOffset inside ih =>
    rw [copyHeadsLoop, if_pos inside, List.mem_cons, ih]
    refine Iff.trans (or_congr ?_ (exists_congr fun j => ?_)) Nat.or_exists_add_one
    · simp [inside]
    · rw [Nat.mul_add, Nat.mul_one, Nat.add_comm (stride * j), ← Nat.add_assoc, ← Nat.add_assoc]
  | case2 destPtr srcOffset outside =>
    rw [copyHeadsLoop, if_neg outside]
    constructor
    · intro none
      cases none
    · rintro ⟨j, before, -⟩
      omega

section Install

variable {k dest : Nat} {code : Nat → Word} {size : BitVec 32}

theorem word_aligned (two : 2 ≤ k) (aligned : dest % 2 ^ k = 0) : dest &&& 3 = 0 := by
  have mask : dest &&& 2 ^ 2 - 1 = dest % 2 ^ 2 := Nat.and_two_pow_sub_one_eq_mod dest 2
  rw [show (3 : Nat) = 2 ^ 2 - 1 from rfl, mask, ← Nat.mod_mod_of_dvd dest (Nat.pow_dvd_pow 2 two),
    aligned]

/-- The check passes, and these are the words that the loops write. -/
theorem copyCodeSafelyInitial_eq (two : 2 ≤ k) (aligned : dest % 2 ^ k = 0) :
    copyCodeSafelyInitial dest code size (2 ^ k) (Nat.two_pow_pos k) =
      some (copyTailsLoop code (dest + size.toInt) (2 ^ k - 1) dest 0,
        copyHeadsLoop code (dest + size.toNat) (2 ^ k) (Nat.two_pow_pos k) dest 0) := by
  have checked := word_aligned two aligned
  simp only [copyCodeSafelyInitial, copyBundleTails, copyBundleHeads, if_pos checked,
    Option.bind_eq_bind, Option.bind_some]

variable {w : Write}

theorem mem_heads : w ∈ copyHeadsLoop code (dest + size.toNat) (2 ^ k) (Nat.two_pow_pos k) dest 0 ↔
      ∃ j, 2 ^ k * j < size.toNat ∧ w = (dest + 2 ^ k * j, code (2 ^ k * j)) := by
  rw [mem_copyHeadsLoop]
  simp only [Nat.add_lt_add_iff_left, Nat.zero_add]

theorem mem_tails (aligned : dest % 2 ^ k = 0) (small : size.toNat < 2 ^ 31) :
    w ∈ copyTailsLoop code (dest + size.toInt) (2 ^ k - 1) dest 0 ↔
      ∃ i, 4 * i < size.toNat ∧ 4 * i % 2 ^ k ≠ 0 ∧ w = (dest + 4 * i, code (4 * i)) := by
  rw [mem_copyTailsLoop]
  refine exists_congr fun i => and_congr ?_ (and_congr ?_ ?_)
  · rw [BitVec.toInt_eq_toNat_of_lt (by omega)]
    omega
  · rw [Nat.and_two_pow_sub_one_eq_mod, Nat.add_mod, aligned, Nat.zero_add, Nat.mod_mod]
  · rw [Nat.zero_add]

/-- A size of `2 ^ 31` bytes or more is negative to the loop over the tails. -/
theorem tails_of_large (large : 2 ^ 31 ≤ size.toNat) :
    copyTailsLoop code (dest + size.toInt) (2 ^ k - 1) dest 0 = [] := by
  have negative : size.toInt = size.toNat - 2 ^ 32 := by
    rw [BitVec.toInt_eq_toNat_cond, if_neg (by omega)]
    rfl
  have below := size.isLt
  rw [copyTailsLoop, if_neg]
  omega

/-- The words of the region, and the words of each bundle behind its first. -/
structure FilledWithHalts (mem : Nat → Word) (dest size : Nat) : Prop where
  halts : ∀ i, 4 * i < size → mem (dest + 4 * i) = naclHaltWord

/-- What the copy is to do: afterwards the region holds the code, and whatever part of the writes
    has been done, each bundle begins with HLTs or has its complete final tail. -/
structure SafeInstall (mem : Nat → Word) (dest : Nat) (code : Nat → Word) (size bundleSize : Nat)
    (tails heads : List Write) : Prop where
  final : ∀ i, 4 * i < size → writeAll mem (tails ++ heads) (dest + 4 * i) = code (4 * i)
  between : ∀ ws, ws <+: tails ++ heads → ∀ j, bundleSize * j < size →
    writeAll mem ws (dest + bundleSize * j) = naclHaltWord ∨
    ∀ i, 0 < i → 4 * i < bundleSize →
      writeAll mem ws (dest + (bundleSize * j + 4 * i)) = code (bundleSize * j + 4 * i)

variable {mem : Nat → Word}

theorem four_dvd_bundle (two : 2 ≤ k) : 4 ∣ 2 ^ k := Nat.pow_dvd_pow 2 two

/-- A bundle that begins in the region lies in it. -/
theorem bundle_inside (whole : size.toNat % 2 ^ k = 0) {j i : Nat} (starts : 2 ^ k * j < size.toNat)
    (inside : i < 2 ^ k) : 2 ^ k * j + i < size.toNat := by
  obtain ⟨n, eq⟩ := Nat.dvd_of_mod_eq_zero whole
  rw [eq] at starts ⊢
  have lt : j < n := Nat.lt_of_mul_lt_mul_left starts
  calc 2 ^ k * j + i < 2 ^ k * (j + 1) := by rw [Nat.mul_add]; omega
    _ ≤ 2 ^ k * n := Nat.mul_le_mul_left _ lt

/-- With all tails among the writes, or HLTs already what they are to be, the copy is safe. -/
theorem safeInstall_of_covers (two : 2 ≤ k) (whole : size.toNat % 2 ^ k = 0)
    (halts : FilledWithHalts mem dest size.toNat) {tails : List Write}
    (agree : ∀ w ∈ tails, ∃ i, 4 * i % 2 ^ k ≠ 0 ∧ w = (dest + 4 * i, code (4 * i)))
    (covers : ∀ i, 4 * i < size.toNat → 4 * i % 2 ^ k ≠ 0 →
      code (4 * i) = naclHaltWord ∨ ∃ w ∈ tails, w.1 = dest + 4 * i) :
    SafeInstall mem dest code size.toNat (2 ^ k) tails
      (copyHeadsLoop code (dest + size.toNat) (2 ^ k) (Nat.two_pow_pos k) dest 0) := by
  have agreeAll : ∀ w ∈ tails ++ copyHeadsLoop code (dest + size.toNat) (2 ^ k)
      (Nat.two_pow_pos k) dest 0, w.2 = code (w.1 - dest) := fun w hw => by
    cases List.mem_append.mp hw with
    | inl hw =>
      obtain ⟨i, -, rfl⟩ := agree w hw
      rw [Nat.add_sub_cancel_left]
    | inr hw =>
      obtain ⟨j, -, rfl⟩ := mem_heads.mp hw
      rw [Nat.add_sub_cancel_left]
  refine ⟨fun i inside => ?_, fun ws pre j starts => ?_⟩
  · have value : code (4 * i) = code (dest + 4 * i - dest) := by rw [Nat.add_sub_cancel_left]
    by_cases written : ∃ w ∈ tails ++ copyHeadsLoop code (dest + size.toNat) (2 ^ k)
        (Nat.two_pow_pos k) dest 0, w.1 = dest + 4 * i
    · rw [value]
      exact writeAll_of_written (fun a => code (a - dest)) agreeAll written
    · rw [writeAll_of_unwritten fun w hw same => written ⟨w, hw, same⟩, halts.halts i inside]
      by_cases head : 4 * i % 2 ^ k = 0
      · -- a first word is written
        obtain ⟨j, eq⟩ := Nat.dvd_of_mod_eq_zero head
        exact absurd ⟨_, List.mem_append_right _ (mem_heads.mpr ⟨j, eq ▸ inside, rfl⟩),
          by rw [eq]⟩ written
      · cases covers i inside head with
        | inl already => exact already.symm
        | inr body =>
          obtain ⟨w, hw, here⟩ := body
          exact absurd ⟨w, List.mem_append_left _ hw, here⟩ written
  · obtain ⟨b, words⟩ := four_dvd_bundle two
    have head : dest + 2 ^ k * j = dest + 4 * (b * j) := by rw [words, Nat.mul_assoc]
    have old : mem (dest + 2 ^ k * j) = naclHaltWord := by
      rw [head]
      exact halts.halts _ (by rw [← Nat.mul_assoc, ← words]; exact starts)
    have tail : ∀ i, 2 ^ k * j + 4 * i = 4 * (b * j + i) := fun i => by
      rw [words, Nat.mul_add, Nat.mul_assoc]
    have off : ∀ i, 0 < i → 4 * i < 2 ^ k → 4 * (b * j + i) % 2 ^ k ≠ 0 := fun i pos lt => by
      rw [← tail, Nat.mul_add_mod, Nat.mod_eq_of_lt lt]
      omega
    have either : writeAll mem ws (dest + 2 ^ k * j) = mem (dest + 2 ^ k * j) ∨
        ∀ c, (∃ i, 0 < i ∧ 4 * i < 2 ^ k ∧ c = dest + (2 ^ k * j + 4 * i)) →
          writeAll mem ws c = code (c - dest) := by
      refine (visible_of_initial pre).closed_or_complete (fun a => code (a - dest)) agreeAll _ _ ?_ ?_
      · -- no tail is the first word of a bundle
        intro w hw same
        obtain ⟨i, notHead, rfl⟩ := agree w hw
        refine notHead ?_
        rw [Nat.add_left_cancel same, Nat.mul_mod_right]
      · rintro c ⟨i, pos, lt, rfl⟩
        have inside := bundle_inside whole starts lt
        rw [tail] at inside ⊢
        cases covers _ inside (off i pos lt) with
        | inl already =>
          rw [Nat.add_sub_cancel_left, already]
          exact Or.inl (halts.halts _ inside)
        | inr body => exact Or.inr body
    rw [old] at either
    refine either.imp_right fun complete i pos lt => ?_
    rw [complete _ ⟨i, pos, lt, rfl⟩, Nat.add_sub_cancel_left]

/-- For every code and every region filled with HLTs, both of whole bundles: the copy is safe
    exactly when the size is less than `2 ^ 31`, or every tail of the code is itself of HLTs. -/
theorem copyCodeSafelyInitial_iff (two : 2 ≤ k) (aligned : dest % 2 ^ k = 0)
    (whole : size.toNat % 2 ^ k = 0) (code : Nat → Word)
    (halts : FilledWithHalts mem dest size.toNat) :
    ∃ tails heads, copyCodeSafelyInitial dest code size (2 ^ k) (Nat.two_pow_pos k) =
        some (tails, heads) ∧ (SafeInstall mem dest code size.toNat (2 ^ k) tails heads ↔
        size.toNat < 2 ^ 31 ∨
          ∀ i, 4 * i < size.toNat → 4 * i % 2 ^ k ≠ 0 → code (4 * i) = naclHaltWord) := by
  refine ⟨_, _, copyCodeSafelyInitial_eq two aligned, ?_⟩
  by_cases small : size.toNat < 2 ^ 31
  · refine iff_of_true (safeInstall_of_covers two whole halts ?_ ?_) (Or.inl small)
    · intro w hw
      obtain ⟨i, -, notHead, eq⟩ := (mem_tails aligned small).mp hw
      exact ⟨i, notHead, eq⟩
    · exact fun i inside notHead =>
        Or.inr ⟨_, (mem_tails aligned small).mpr ⟨i, inside, notHead, rfl⟩, rfl⟩
  · rw [tails_of_large (Nat.le_of_not_lt small)]
    constructor
    · intro safe
      refine Or.inr fun i inside notHead => ?_
      -- the loop over the heads leaves the tail as it is
      rw [← safe.final i inside, List.nil_append, writeAll_of_unwritten, halts.halts i inside]
      intro w hw same
      obtain ⟨j, -, rfl⟩ := mem_heads.mp hw
      refine notHead ?_
      rw [← Nat.add_left_cancel same, Nat.mul_mod_right]
    · intro either
      cases either with
      | inl less => exact absurd less small
      | inr already =>
        exact safeInstall_of_covers two whole halts (fun w hw => nomatch hw)
          fun i inside notHead => Or.inl (already i inside notHead)

end Install

/-! ## The copies of `NaClTextDyncodeCreate` -/

section Create

variable {env : Environment} {nap : NaClApp} {dest size : Nat} {range : Nat × Nat}

theorem createRegion_copied (shared : nap.Shared) (nonempty : 0 < size)
    (low : nap.dynamicTextStart ≤ dest) (fits : dest + size ≤ 2 ^ nap.space.addrBits)
    (copied : (createRegion env nap (dest + nap.space.memStart) dest size).copied = some range) :
    range = (dest - nap.dynamicTextStart, size) ∧ dest - nap.dynamicTextStart + size < 2 ^ 31 := by
  have addrBits : 2 ^ nap.space.addrBits ≤ 2 ^ 32 :=
    Nat.pow_le_pow_right (by decide) shared.addrBits
  obtain ⟨offset, pos, stop⟩ := shmMapRange_eq shared low (Nat.le_trans fits addrBits) nonempty
  cases created : naClDynamicRegionCreate env.reallocated (dest + nap.space.memStart) size false
    nap.regions with
  | none =>
    rw [createRegion_aborted created] at copied
    cases copied
  | some outcome =>
    obtain ⟨ok, regions⟩ := outcome
    cases ok with
    | false =>
      rw [createRegion_inUse created] at copied
      cases copied
    | true =>
      have spec := @naClDynamicRegionCreate_spec _ _ shared.inOrder _ _ _
        (nap.sysRange dest size nonempty fits) created
      rw [createRegion_created created, offset] at copied
      have far := @cachedMapWritableText_far env _ (shared.withRegions spec.2.1)
        (shmMapRange nap dest size).1 (shmMapRange nap dest size).2 pos
      generalize cachedMapWritableText env { nap with regions := regions }
        (shmMapRange nap dest size).1 (shmMapRange nap dest size).2 = mapping at far copied
      obtain ⟨mapping, set, after⟩ := mapping
      cases mapping with
      | aborted => cases copied
      | mapped ret =>
        cases ret with
        | none => cases copied
        | some ret =>
          -- what is mapped ends below 2^31
          have near : ¬ int32Max < ((shmMapRange nap dest size).1 + (shmMapRange nap dest size).2 +
              naclMapPagesize - 1) / naclMapPagesize * naclMapPagesize := fun isFar => by
            cases (far isFar).1
          rw [Outcome.ofMapping] at copied
          split at copied
          · cases copied
            refine ⟨rfl, ?_⟩
            rw [stop] at near
            simp only [naclMapPagesize, int32Max, Nat.not_lt] at near
            omega
          · cases copied

/-- A copy is made of whole bundles to a whole offset, and of less than 2^31 bytes. -/
theorem naClTextDyncodeCreate_copied (shared : nap.Shared)
    (copied : (naClTextDyncodeCreate env nap dest size).copied = some range) :
    range = (dest - nap.dynamicTextStart, size) ∧ dest - nap.dynamicTextStart + size < 2 ^ 31 ∧
      32 ∣ dest - nap.dynamicTextStart ∧ 32 ∣ size := by
  have aligned : ∀ n, n &&& (nap.bundleSize - 1) = 0 ↔ 32 ∣ n := by
    intro n
    have mask : n &&& (32 - 1) = n % 32 := Nat.and_two_pow_sub_one_eq_mod n 5
    rw [shared.bundle, mask, Nat.dvd_iff_mod_eq_zero]
  cases naClTextDyncodeCreate_cases env nap dest size with
  | inl refused =>
    obtain ⟨-, retval, same⟩ := refused
    rw [same] at copied
    cases copied
  | inr reached =>
    obtain ⟨admitted, same⟩ := reached
    rw [same] at copied
    have start : 32 ∣ nap.dynamicTextStart := Nat.dvd_trans (by decide) shared.startAligned
    have whole := (aligned dest).mp admitted.alignedDest
    obtain ⟨same, small⟩ :=
      createRegion_copied shared admitted.nonempty admitted.low admitted.fits copied
    exact ⟨same, small, Nat.dvd_sub whole start, (aligned size).mp admitted.alignedSize⟩

/-- Whatever `NaClTextDyncodeCreate` copies into a region of HLTs, through a mapping of whole pages:
    afterwards the region holds the code, and whatever part of the writes has been done, each
    bundle begins with HLTs or has its complete final tail. -/
theorem naClTextDyncodeCreate_installs (shared : nap.Shared)
    (copied : (naClTextDyncodeCreate env nap dest size).copied = some range)
    {mapping : Nat} (pages : 4096 ∣ mapping) (code : Nat → Word) {mem : Nat → Word}
    (halts : FilledWithHalts mem (mapping + range.1 % naclMapPagesize) range.2) :
    ∃ tails heads, copyCodeSafelyInitial (mapping + range.1 % naclMapPagesize) code
        (BitVec.ofNat 32 range.2) 32 (by decide) = some (tails, heads) ∧
      SafeInstall mem (mapping + range.1 % naclMapPagesize) code range.2 32 tails heads := by
  obtain ⟨rfl, small, offset, whole⟩ := naClTextDyncodeCreate_copied shared copied
  simp only at halts ⊢
  have value : (BitVec.ofNat 32 size).toNat = size := by
    rw [BitVec.toNat_ofNat, Nat.mod_eq_of_lt (by omega)]
  have start : (mapping + (dest - nap.dynamicTextStart) % naclMapPagesize) % 2 ^ 5 = 0 := by
    have pages : 32 ∣ mapping := Nat.dvd_trans (by decide) pages
    simp only [naclMapPagesize]
    omega
  obtain ⟨tails, heads, run, safe⟩ := @copyCodeSafelyInitial_iff 5
    (mapping + (dest - nap.dynamicTextStart) % naclMapPagesize) (BitVec.ofNat 32 size) mem (by decide)
    start (by rw [value]; exact Nat.mod_eq_zero_of_dvd whole) code (by rw [value]; exact halts)
  rw [value] at safe
  exact ⟨tails, heads, run, safe.mpr (Or.inl (by omega))⟩

/-- One bundle of NOPs in the first page of the dynamic text. -/
theorem naClTextDyncodeCreate_installs_nops :
    ∃ tails heads, copyCodeSafelyInitial (0x7f0000000000 + 0 % naclMapPagesize)
        (fun _ => 0x90909090) (BitVec.ofNat 32 32) 32 (by decide) = some (tails, heads) ∧
      SafeInstall (fun _ => naclHaltWord) (0x7f0000000000 + 0 % naclMapPagesize)
        (fun _ => 0x90909090) 32 32 tails heads :=
  @naClTextDyncodeCreate_installs ⟨true, true, some 0x7f0000000000, true⟩ farText 0x90000000 32
    (0, 32) farText_shared (by decide +kernel) 0x7f0000000000 (by decide) _ (fun _ => naclHaltWord)
    ⟨fun _ _ => rfl⟩

end Create

end SandboxTEE.DynamicText
