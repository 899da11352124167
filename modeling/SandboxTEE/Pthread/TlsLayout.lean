import SandboxTEE.Lib.ByteMemory
import SandboxTEE.Lib.LittleEndian
import SandboxTEE.Lib.LowBits

/-! # The TLS area of a thread (`tls.c`, `tls_params.h`)

One function says how large the combined area is to be, and another one places the TLS data and
the thread block in it.  The first one has room for one padding.  The second one pads twice, in front
of the TLS data and behind it.

`size_t` and the pointers have 32 bits.
-/

namespace SandboxTEE.Pthread.TlsLayout

open SandboxTEE.Lib

abbrev Size := BitVec 32

abbrev Memory := Nat → BitVec 8

structure TlsInfo where
  tdataStart : Size
  tdataSize : Size
  tbssSize : Size
  tlsAlignment : Size

/-! ## The source's functions -/

def alignedSize (size alignment : Size) : Size := (size + alignment - 1) &&& -alignment

def alignedAddr (start alignment : Size) : Size := alignedSize start alignment

/-- The x86 layout. -/
def tpTlsOffset (tlsSize : Size) : Size := -tlsSize

def tpTdbOffset (_tdbSize : Size) : Size := 0

def tpFromCombinedArea (info : TlsInfo) (combinedArea tdbSize : Size) : Size :=
  let tlsSize := info.tdataSize + info.tbssSize
  if (tpTdbOffset tdbSize).slt 0 then alignedAddr (combinedArea + tdbSize) info.tlsAlignment
  else alignedAddr combinedArea info.tlsAlignment + alignedSize tlsSize info.tlsAlignment

def tlsCombinedSize (info : TlsInfo) (tdbSize : Size) : Size :=
  let tlsSize := info.tdataSize + info.tbssSize
  let tlsoff := tpTlsOffset tlsSize
  let combinedSize := tlsSize + tdbSize + (info.tlsAlignment - 1)
  -- "ARM case", but a negated size of more than 2 ^ 31 is positive as well
  if BitVec.slt 0 tlsoff then combinedSize + alignedSize tlsoff info.tlsAlignment else combinedSize

/-- `__nacl_tls_initialize_memory`; `none` is the trap. -/
def tlsInitializeMemory (info : TlsInfo) (mem : Memory) (combinedArea tdbSize : Size) :
    Option (Memory × Size) :=
  let tlsSize := info.tdataSize + info.tbssSize
  let combinedAreaEnd := combinedArea + tlsCombinedSize info tdbSize
  let tp := tpFromCombinedArea info combinedArea tdbSize
  let start :=
    if BitVec.slt 0 (tpTlsOffset 0) then tp + alignedSize (tpTlsOffset tlsSize) info.tlsAlignment
    else tp + tpTlsOffset (alignedSize tlsSize info.tlsAlignment)
  if combinedAreaEnd < start + info.tdataSize + info.tbssSize then none
  else
    let tdata := bytesAt mem info.tdataStart.toNat info.tdataSize.toNat
    let copied := store mem start.toNat tdata
    let filled := store copied (start + info.tdataSize).toNat
      (List.replicate info.tbssSize.toNat 0)
    let tdb := tp + tpTdbOffset tdbSize
    if tpTdbOffset tdbSize = 0 then some (store filled tdb.toNat (leBytes 4 tdb.toNat), tp)
    else some (filled, tp)

/-! ## The layout -/

/-- The data and the zeros from `start` on, up to the thread block at `tp`; all of it in the area. -/
structure Placed (info : TlsInfo) (mem : Memory) (combinedArea tdbSize : Size)
    (mem' : Memory) (tp : Size) (start : Nat) : Prop where
  tpAligned : info.tlsAlignment.toNat ∣ tp.toNat
  startAligned : info.tlsAlignment.toNat ∣ start
  behind : start + (alignedSize (info.tdataSize + info.tbssSize) info.tlsAlignment).toNat = tp.toNat
  apart : start + info.tdataSize.toNat + info.tbssSize.toNat ≤ tp.toNat
  above : combinedArea.toNat ≤ start
  below : tp.toNat + tdbSize.toNat ≤ combinedArea.toNat + (tlsCombinedSize info tdbSize).toNat
  data : bytesAt mem' start info.tdataSize.toNat =
    bytesAt mem info.tdataStart.toNat info.tdataSize.toNat
  bss : bytesAt mem' (start + info.tdataSize.toNat) info.tbssSize.toNat =
    List.replicate info.tbssSize.toNat 0

/-- It does not trap, and what it returns is laid out so. -/
def Places (info : TlsInfo) (mem : Memory) (combinedArea tdbSize : Size) : Prop :=
  ∃ mem' tp start, tlsInitializeMemory info mem combinedArea tdbSize = some (mem', tp) ∧
    Placed info mem combinedArea tdbSize mem' tp start

/-- The area that is asked for ends inside the address space. -/
def Room (info : TlsInfo) (combinedArea tdbSize : Size) : Prop :=
  combinedArea.toNat + (info.tdataSize.toNat + info.tbssSize.toNat + tdbSize.toNat +
    (info.tlsAlignment.toNat - 1)) < 2 ^ 32

variable {info : TlsInfo} {mem : Memory} {area tdbSize : Size} {k : Nat}

/-! ## Sizes and addresses -/

theorem toNat_alignedSize {alignment : Size} (power : alignment.toNat = 2 ^ k) (size : Size) :
    (alignedSize size alignment).toNat = (size.toNat + padding k size.toNat) % 2 ^ 32 := by
  have fits : k < 32 := (Nat.pow_lt_pow_iff_right (by decide)).mp (power ▸ alignment.isLt)
  have same : alignment = BitVec.twoPow 32 k := by
    apply BitVec.eq_of_toNat_eq
    rw [power, BitVec.toNat_twoPow_of_lt fits]
  rw [alignedSize, same]
  exact toNat_roundUp fits size

theorem slt_zero_neg (size : Size) : BitVec.slt 0 (-size) ↔ 2 ^ 31 < size.toNat := by
  have small := size.isLt
  rw [BitVec.slt_eq_decide, decide_eq_true_eq, BitVec.toInt_eq_toNat_cond (-size), BitVec.toNat_neg]
  simp only [BitVec.ofNat_eq_ofNat, BitVec.toInt_zero]
  omega

theorem toNat_alignment_pred (power : info.tlsAlignment.toNat = 2 ^ k) :
    (info.tlsAlignment - 1).toNat = info.tlsAlignment.toNat - 1 := by
  have positive := Nat.two_pow_pos k
  have one : (1 : Size).toNat = 1 := rfl
  rw [BitVec.toNat_sub_of_le, one]
  rw [BitVec.le_def, one]
  omega

section Room

variable (power : info.tlsAlignment.toNat = 2 ^ k) (room : Room info area tdbSize)

include room in
theorem toNat_tlsSize :
    (info.tdataSize + info.tbssSize).toNat = info.tdataSize.toNat + info.tbssSize.toNat := by
  rw [Room] at room
  rw [BitVec.toNat_add, Nat.mod_eq_of_lt (by omega)]

include power room

/-- The room for the paddings is the alignment less one. -/
theorem toNat_tlsCombinedSize (positive : info.tdataSize.toNat + info.tbssSize.toNat ≤ 2 ^ 31) :
    (tlsCombinedSize info tdbSize).toNat = info.tdataSize.toNat + info.tbssSize.toNat +
      tdbSize.toNat + (info.tlsAlignment.toNat - 1) := by
  have size := toNat_tlsSize room
  have negative : ¬BitVec.slt 0 (tpTlsOffset (info.tdataSize + info.tbssSize)) := by
    rw [tpTlsOffset, slt_zero_neg, size]
    omega
  rw [Room] at room
  simp only [tlsCombinedSize, if_neg negative, BitVec.toNat_add _ (info.tlsAlignment - 1),
    BitVec.toNat_add _ tdbSize, size, toNat_alignment_pred power]
  rw [Nat.mod_eq_of_lt (by omega), Nat.mod_eq_of_lt (by omega)]

/-- The address of the area, rounded up, is in the address space. -/
theorem toNat_alignedAddr :
    (alignedAddr area info.tlsAlignment).toNat = area.toNat + padding k area.toNat := by
  have below := padding_lt k area.toNat
  rw [Room] at room
  rw [alignedAddr, toNat_alignedSize power, Nat.mod_eq_of_lt (by omega)]

theorem toNat_alignedTls : (alignedSize (info.tdataSize + info.tbssSize) info.tlsAlignment).toNat =
      info.tdataSize.toNat + info.tbssSize.toNat +
        padding k (info.tdataSize.toNat + info.tbssSize.toNat) := by
  have below := padding_lt k (info.tdataSize.toNat + info.tbssSize.toNat)
  have size := toNat_tlsSize room
  rw [Room] at room
  rw [toNat_alignedSize power, size, Nat.mod_eq_of_lt (by omega)]

theorem toNat_tlsEnd : (alignedAddr area info.tlsAlignment + info.tdataSize + info.tbssSize).toNat =
      area.toNat + padding k area.toNat + (info.tdataSize.toNat + info.tbssSize.toNat) := by
  have start := toNat_alignedAddr power room
  have below := padding_lt k area.toNat
  rw [Room] at room
  rw [BitVec.add_assoc, BitVec.toNat_add, BitVec.toNat_add, start, Nat.add_mod_mod,
    Nat.mod_eq_of_lt (by omega)]

end Room

/-! ## The placement -/

/-- The thread pointer on x86, and the memory after the three writes. -/
def threadPointer (info : TlsInfo) (area : Size) : Size :=
  alignedAddr area info.tlsAlignment +
    alignedSize (info.tdataSize + info.tbssSize) info.tlsAlignment

def written (info : TlsInfo) (mem : Memory) (area : Size) : Memory :=
  let start := alignedAddr area info.tlsAlignment
  store (store (store mem start.toNat (bytesAt mem info.tdataStart.toNat info.tdataSize.toNat))
      (start + info.tdataSize).toNat (List.replicate info.tbssSize.toNat 0))
    (threadPointer info area).toNat (leBytes 4 (threadPointer info area).toNat)

/-- On x86 the TLS data start at the address of the area, rounded up. -/
theorem tlsInitializeMemory_eq (info : TlsInfo) (mem : Memory) (area tdbSize : Size) :
    tlsInitializeMemory info mem area tdbSize = if area + tlsCombinedSize info tdbSize <
          alignedAddr area info.tlsAlignment + info.tdataSize + info.tbssSize then none
      else some (written info mem area, threadPointer info area) := by
  have back (start size : Size) : start + size + -size = start := by
    rw [← BitVec.sub_eq_add_neg, BitVec.add_sub_cancel]
  have noHeader : BitVec.slt 0 (tpTlsOffset 0) = false := by decide
  have notBelow : (tpTdbOffset tdbSize).slt 0 = false := rfl
  simp only [tlsInitializeMemory, tpFromCombinedArea, noHeader, notBelow, Bool.false_eq_true,
    if_false]
  simp only [tpTlsOffset, tpTdbOffset, back, if_true, BitVec.add_zero, BitVec.ofNat_eq_ofNat,
    written, threadPointer]

/-- The check sees the TLS data only, and for these there is always room. -/
theorem tlsInitializeMemory_some (power : info.tlsAlignment.toNat = 2 ^ k)
    (room : Room info area tdbSize)
    (positive : info.tdataSize.toNat + info.tbssSize.toNat ≤ 2 ^ 31) :
    ¬area + tlsCombinedSize info tdbSize <
      alignedAddr area info.tlsAlignment + info.tdataSize + info.tbssSize := by
  have combined := toNat_tlsCombinedSize power room positive
  have tlsEnd := toNat_tlsEnd power room
  have below := padding_lt k area.toNat
  rw [Room] at room
  rw [BitVec.lt_def, tlsEnd, BitVec.toNat_add, combined, Nat.mod_eq_of_lt (by omega)]
  omega

/-- The size of the header of an area with more than `2 ^ 31` bytes of TLS wraps around. -/
theorem tlsInitializeMemory_trap (power : info.tlsAlignment.toNat = 2 ^ k)
    (room : Room info area tdbSize) (large : 2 ^ 31 < info.tdataSize.toNat + info.tbssSize.toNat) :
    tlsInitializeMemory info mem area tdbSize = none := by
  rw [tlsInitializeMemory_eq, if_pos]
  have size := toNat_tlsSize room
  have tlsEnd := toNat_tlsEnd power room
  have header : BitVec.slt 0 (tpTlsOffset (info.tdataSize + info.tbssSize)) := by
    rwa [tpTlsOffset, slt_zero_neg, size]
  have negated : (tpTlsOffset (info.tdataSize + info.tbssSize)).toNat =
      2 ^ 32 - (info.tdataSize.toNat + info.tbssSize.toNat) := by
    rw [tpTlsOffset, BitVec.toNat_neg, size, Nat.mod_eq_of_lt (by omega)]
  have rounded := toNat_alignedSize power (tpTlsOffset (info.tdataSize + info.tbssSize))
  rw [negated] at rounded
  -- the header ends in the lower half, so the size is no more than the header
  have half : 2 ^ 32 - (info.tdataSize.toNat + info.tbssSize.toNat) +
      padding k (2 ^ 32 - (info.tdataSize.toNat + info.tbssSize.toNat)) ≤ 2 ^ 31 := by
    apply add_padding_le _ (by omega)
    apply Nat.pow_dvd_pow
    have := info.tlsAlignment.isLt
    rw [power] at this
    exact Nat.le_of_lt_succ ((Nat.pow_lt_pow_iff_right (by decide)).mp this)
  rw [Room] at room
  rw [BitVec.lt_def, tlsEnd, BitVec.toNat_add]
  simp only [tlsCombinedSize, if_pos header, BitVec.toNat_add _ (info.tlsAlignment - 1),
    BitVec.toNat_add _ tdbSize, BitVec.toNat_add _ (alignedSize _ _), size, rounded,
    toNat_alignment_pred power]
  omega

/-- The thread block is in the area if both paddings have room together. -/
theorem placed_of_paddings (power : info.tlsAlignment.toNat = 2 ^ k) (room : Room info area tdbSize)
    (positive : info.tdataSize.toNat + info.tbssSize.toNat ≤ 2 ^ 31)
    (paddings : padding k area.toNat + padding k (info.tdataSize.toNat + info.tbssSize.toNat) <
      info.tlsAlignment.toNat) : Places info mem area tdbSize := by
  have combined := toNat_tlsCombinedSize power room positive
  have start := toNat_alignedAddr power room
  have size := toNat_alignedTls power room
  have behind : (alignedAddr area info.tlsAlignment).toNat +
      (alignedSize (info.tdataSize + info.tbssSize) info.tlsAlignment).toNat =
      (threadPointer info area).toNat := by
    rw [Room] at room
    rw [threadPointer, BitVec.toNat_add, Nat.mod_eq_of_lt (by omega)]
  have dataEnd : (alignedAddr area info.tlsAlignment + info.tdataSize).toNat =
      (alignedAddr area info.tlsAlignment).toNat + info.tdataSize.toNat := by
    rw [Room] at room
    rw [BitVec.toNat_add, Nat.mod_eq_of_lt (by omega)]
  have aligned : 2 ^ k ∣ (alignedAddr area info.tlsAlignment).toNat := by
    rw [start]
    exact dvd_add_padding k _
  have rounded : 2 ^ k ∣
      (alignedSize (info.tdataSize + info.tbssSize) info.tlsAlignment).toNat := by
    rw [size]
    exact dvd_add_padding k _
  refine ⟨written info mem area, threadPointer info area,
    (alignedAddr area info.tlsAlignment).toNat, ?_, ?_⟩
  · rw [tlsInitializeMemory_eq, if_neg (tlsInitializeMemory_some power room positive)]
  · constructor
    · rw [← behind, power]
      exact Nat.dvd_add aligned rounded
    · rwa [power]
    · exact behind
    · omega
    · omega
    · rw [Room] at room
      omega
    · -- the zeros and the first word of the thread block are behind the data
      rw [written, bytesAt_store_of_apart (.inl (by omega)),
        bytesAt_store_of_apart (.inl (by rw [dataEnd])), bytesAt_copy]
    · rw [written, bytesAt_store_of_apart (.inl (by omega)), ← dataEnd]
      have zeros := @bytesAt_store _ (store mem (alignedAddr area info.tlsAlignment).toNat
        (bytesAt mem info.tdataStart.toNat info.tdataSize.toNat))
        (alignedAddr area info.tlsAlignment + info.tdataSize).toNat
        (List.replicate info.tbssSize.toNat 0)
      rwa [List.length_replicate] at zeros

theorem positive_of_places (power : info.tlsAlignment.toNat = 2 ^ k)
    (room : Room info area tdbSize) (places : Places info mem area tdbSize) :
    info.tdataSize.toNat + info.tbssSize.toNat ≤ 2 ^ 31 := by
  obtain ⟨mem', tp, start, run, placed⟩ := places
  apply Nat.not_lt.mp
  intro large
  rw [tlsInitializeMemory_trap power room large] at run
  cases run

theorem paddings_of_places (power : info.tlsAlignment.toNat = 2 ^ k)
    (room : Room info area tdbSize) (places : Places info mem area tdbSize) :
    padding k area.toNat + padding k (info.tdataSize.toNat + info.tbssSize.toNat) <
      info.tlsAlignment.toNat := by
  have combined := toNat_tlsCombinedSize power room (positive_of_places power room places)
  have size := toNat_alignedTls power room
  obtain ⟨mem', tp, start, run, placed⟩ := places
  have behind := placed.behind
  have below := placed.below
  -- the TLS data start no lower than at the address of the area, rounded up
  have aligned := placed.startAligned
  rw [power] at aligned
  have first := add_padding_le aligned placed.above
  have one := Nat.two_pow_pos k
  omega

/-- Exactly when the two paddings have together room in what the size reserves for one, and the
    size of the TLS data is not taken for a negative offset. -/
theorem tlsInitializeMemory_places_iff (mem : Memory) (power : info.tlsAlignment.toNat = 2 ^ k)
    (room : Room info area tdbSize) :
    Places info mem area tdbSize ↔
      info.tdataSize.toNat + info.tbssSize.toNat ≤ 2 ^ 31 ∧
        padding k area.toNat + padding k (info.tdataSize.toNat + info.tbssSize.toNat) <
          info.tlsAlignment.toNat := by
  constructor
  · intro places
    exact ⟨positive_of_places power room places, paddings_of_places power room places⟩
  · intro fits
    exact placed_of_paddings power room fits.1 fits.2

/-- Four bytes of data with an alignment of 16. -/
def fourBytes : TlsInfo where
  tdataStart := 0x20000
  tdataSize := 4
  tbssSize := 0
  tlsAlignment := 16

theorem tlsInitializeMemory_places_aligned :
    Places fourBytes (fun _ => 0) 0x10000 32 :=
  ((tlsInitializeMemory_places_iff (fun _ => 0) (show fourBytes.tlsAlignment.toNat = 2 ^ 4 from rfl)
    (by unfold Room; decide)).mpr (by decide))

/-- Both paddings are 12 bytes, and the thread block ends nine bytes behind the area. -/
theorem tlsInitializeMemory_overruns : ¬∀ (info : TlsInfo) (mem : Memory) (area tdbSize : Size)
    (k : Nat), info.tlsAlignment.toNat = 2 ^ k → Room info area tdbSize →
      Places info mem area tdbSize := by
  intro claim
  have room : Room fourBytes 0x10004 32 := by
    rw [Room]
    decide
  have power : fourBytes.tlsAlignment.toNat = 2 ^ 4 := rfl
  have fits := paddings_of_places power room (claim fourBytes (fun _ => 0) 0x10004 32 4 power room)
  exact absurd fits (by decide)

end SandboxTEE.Pthread.TlsLayout
