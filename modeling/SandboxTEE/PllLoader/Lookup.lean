import Mathlib.Algebra.Group.Nat.Defs
import Mathlib.Data.List.Nodup
import SandboxTEE.Stdlib.Cstring

/-! # Symbol lookup in a PLL (`pll_loader.cc`, `pll_root.h`)

`GetExportedSym` asks a Bloom filter, and then goes along a chain of the hash table.  The chain of a
bucket is the run of exports whose hashes fall into it; the low bit of a chain's entry is not the
hash's but says whether the run ends there.

The loader is 32-bit code: `size_t` is an unsigned integer of 32 bits.
-/

namespace SandboxTEE.PllLoader

open SandboxTEE.Stdlib

variable {Ptr : Type}

/-- The exports of a `PLLRoot`; the bytes of the string table, and the tables, from their beginning. -/
structure PLLRoot (Ptr : Type) where
  stringTable : List Byte
  exportedPtrs : List Ptr
  exportedNames : List Nat
  exportCount : Nat
  bucketCount : Nat
  hashBuckets : List (BitVec 32)
  hashChains : List (BitVec 32)
  bloomFilterMaskwordsBitmask : BitVec 32
  bloomFilterShift2 : Nat
  bloomFilterData : List (BitVec 32)
  /-- A table with four bytes for each export lies in the address space, so no index of an export
      leaves the `int32_t`. -/
  inSpace : 4 * exportCount ≤ 2 ^ 32

inductive Stop where
  /-- "Bad hash table in PLL: chain not terminated" -/
  | notTerminated
  /-- An access outside of a table, or a division by zero. -/
  | fault
deriving DecidableEq

/-! ## The source's functions -/

def hashStep (h : BitVec 32) (c : Byte) : BitVec 32 := h * 33 + BitVec.ofNat 32 c.toNat

def hashString (sp : List Byte) : BitVec 32 := sp.foldl hashStep 5381

/-- The word of the filter, and the two bits that are looked at. -/
def bloomWord (root : PLLRoot Ptr) (hash1 : BitVec 32) : Nat :=
  ((hash1 / 32) &&& root.bloomFilterMaskwordsBitmask).toNat

def bloomBits (root : PLLRoot Ptr) (hash1 : BitVec 32) : BitVec 32 :=
  let hash2 := hash1 >>> root.bloomFilterShift2
  ((1 : BitVec 32) <<< (hash1 % 32).toNat) ||| ((1 : BitVec 32) <<< (hash2 % 32).toNat)

def isMaybeExported (root : PLLRoot Ptr) (hash1 : BitVec 32) : Except Stop Bool :=
  match root.bloomFilterData[bloomWord root hash1]? with
  | none => .error .fault
  | some word => .ok (word &&& bloomBits root hash1 = bloomBits root hash1)

/-- The string at an offset; an offset behind the table is a fault. -/
def PLLRoot.string (root : PLLRoot Ptr) (offset : Nat) : Except Stop (List Byte) :=
  if 0 ∈ root.stringTable.drop offset then .ok (cstr (root.stringTable.drop offset))
  else .error .fault

def getExportedSymbolName (root : PLLRoot Ptr) (i : Nat) : Except Stop (List Byte) :=
  match root.exportedNames[i]? with
  | none => .error .fault
  | some offset => root.string offset

/-- `hash & ~1` -/
def withoutLow (hash : BitVec 32) : BitVec 32 := hash &&& ~~~1

/-- The loop over the chain, for as many exports as are left; the test against the number of exports
    is one of unsigned integers. -/
def chainLoop (root : PLLRoot Ptr) (name : List Byte) (hash : BitVec 32) :
    Nat → Nat → Except Stop (Option Ptr)
  | 0, _ => .error .notTerminated
  | left + 1, chainIndex =>
    match root.hashChains[chainIndex]? with
    | none => .error .fault
    | some chainValue => do
      let same ← (if withoutLow hash = withoutLow chainValue then do
          let exported ← getExportedSymbolName root chainIndex
          pure (decide (name = exported))
        else pure false)
      if same then
        match root.exportedPtrs[chainIndex]? with
        | none => .error .fault
        | some sym => pure (some sym)
      else if chainValue &&& 1 = 1 then pure none
      else chainLoop root name hash left (chainIndex + 1)

/-- `none` is the result `false`. -/
def getExportedSym (root : PLLRoot Ptr) (name : List Byte) : Except Stop (Option Ptr) := do
  let hash := hashString name
  if (← isMaybeExported root hash) = false then pure none
  else if root.bucketCount = 0 then .error .fault
  else
    match root.hashBuckets[hash.toNat % root.bucketCount]? with
    | none => .error .fault
    | some chainIndex =>
      if chainIndex = -1 then pure none
      else
        chainLoop root name hash (root.exportCount - chainIndex.toNat) chainIndex.toNat

/-! ## Well-formed tables -/

/-- The bucket of a name. -/
def PLLRoot.bucketOf (root : PLLRoot Ptr) (name : List Byte) : Nat :=
  (hashString name).toNat % root.bucketCount

/-- The tables as `names`, the names of the exports in order, have them. -/
structure PLLRoot.WellFormed (root : PLLRoot Ptr) (names : List (List Byte)) : Prop where
  count : names.length = root.exportCount
  named : ∀ (i : Nat) (name : List Byte), names[i]? = some name →
    getExportedSymbolName root i = .ok name
  distinct : names.Nodup
  ptrs : root.exportedPtrs.length = root.exportCount
  buckets : 0 < root.bucketCount
  /-- Exports of one bucket stand next to each other. -/
  grouped : ∀ (i j k : Nat) (a b c : List Byte), i ≤ j → j ≤ k →
    names[i]? = some a → names[j]? = some b → names[k]? = some c →
    root.bucketOf a = root.bucketOf c → root.bucketOf b = root.bucketOf a
  bucket : ∀ b < root.bucketCount, ∃ first : BitVec 32, root.hashBuckets[b]? = some first ∧
    ((first = -1 ∧ ∀ name ∈ names, root.bucketOf name ≠ b) ∨
      ((∃ name : List Byte, names[first.toNat]? = some name ∧ root.bucketOf name = b) ∧
        ∀ i < first.toNat, ∀ name : List Byte, names[i]? = some name → root.bucketOf name ≠ b))
  /-- The hash, with its low bit replaced. -/
  chain : ∀ (i : Nat) (name : List Byte), names[i]? = some name →
    ∃ value, root.hashChains[i]? = some value ∧ withoutLow value = withoutLow (hashString name) ∧
    (value &&& 1 = 1 ↔ ∀ j > i, ∀ later : List Byte, names[j]? = some later →
      root.bucketOf later ≠ root.bucketOf name)
  maskwords : ∃ k, root.bloomFilterData.length = 2 ^ k ∧
    root.bloomFilterMaskwordsBitmask.toNat = 2 ^ k - 1
  shift : root.bloomFilterShift2 < 32
  bloom : ∀ name ∈ names, ∃ word,
    root.bloomFilterData[bloomWord root (hashString name)]? = some word ∧
    word.getLsbD ((hashString name).toNat % 32) = true ∧
    word.getLsbD ((hashString name >>> root.bloomFilterShift2).toNat % 32) = true

variable {root : PLLRoot Ptr} {names : List (List Byte)} {name : List Byte}

/-! ## The filter -/

theorem bloomWord_lt (wf : root.WellFormed names) (hash : BitVec 32) :
    bloomWord root hash < root.bloomFilterData.length := by
  obtain ⟨k, length, mask⟩ := wf.maskwords
  rw [bloomWord, BitVec.toNat_and, mask, length]
  have := Nat.and_le_right (n := (hash / 32).toNat) (m := 2 ^ k - 1)
  have := Nat.two_pow_pos k
  omega

variable {hash : BitVec 32} {i : Nat}

theorem getLsbD_bloomBits (bit : (bloomBits root hash).getLsbD i = true) :
    i = hash.toNat % 32 ∨ i = (hash >>> root.bloomFilterShift2).toNat % 32 := by
  have power (n : Nat) : (1 : BitVec 32) <<< n = BitVec.twoPow 32 n := rfl
  rw [bloomBits, power, power, BitVec.getLsbD_or, BitVec.getLsbD_twoPow, BitVec.getLsbD_twoPow,
    BitVec.toNat_umod, BitVec.toNat_umod] at bit
  simp only [Bool.or_eq_true, Bool.and_eq_true, decide_eq_true_eq] at bit
  exact bit.imp (fun first => first.2.symm) (fun second => second.2.symm)

theorem and_bloomBits_eq {word : BitVec 32} (first : word.getLsbD (hash.toNat % 32) = true)
    (second : word.getLsbD ((hash >>> root.bloomFilterShift2).toNat % 32) = true) :
    word &&& bloomBits root hash = bloomBits root hash := by
  apply BitVec.eq_of_getLsbD_eq
  intro i inside
  rw [BitVec.getLsbD_and, Bool.and_eq_right_iff_imp]
  intro bit
  rcases getLsbD_bloomBits bit with rfl | rfl
  · exact first
  · exact second

theorem isMaybeExported_of_mem (wf : root.WellFormed names) (mem : name ∈ names) :
    isMaybeExported root (hashString name) = .ok true := by
  obtain ⟨word, found, first, second⟩ := wf.bloom name mem
  rw [isMaybeExported, found]
  simp [and_bloomBits_eq first second]

theorem isMaybeExported_ok (wf : root.WellFormed names) (hash : BitVec 32) :
    ∃ maybe, isMaybeExported root hash = .ok maybe := by
  rw [isMaybeExported, List.getElem?_eq_getElem (bloomWord_lt wf hash)]
  exact ⟨_, rfl⟩

/-! ## The chain -/

/-- What is to be found from index `i` of a bucket on. -/
inductive Finds (root : PLLRoot Ptr) (names : List (List Byte)) (name : List Byte) (i : Nat) :
    Option Ptr → Prop where
  | exported {j : Nat} {sym : Ptr} (named : names[j]? = some name)
      (ptr : root.exportedPtrs[j]? = some sym) : Finds root names name i (some sym)
  | absent (missing : ∀ j ≥ i, names[j]? ≠ some name) : Finds root names name i none

variable {value : BitVec 32} {left : Nat}

/-- One round of the loop, at an export with another name. -/
theorem chainLoop_skip {here : List Byte} (chain : root.hashChains[i]? = some value)
    (named : getExportedSymbolName root i = .ok here) (other : name ≠ here) :
    chainLoop root name hash (left + 1) i =
      if value &&& 1 = 1 then .ok none else chainLoop root name hash left (i + 1) := by
  rw [chainLoop, chain]
  by_cases same : withoutLow hash = withoutLow value
  · simp [same, named, other, bind, Except.bind, pure, Except.pure]
  · simp [same, bind, Except.bind, pure, Except.pure]

theorem chainLoop_found {sym : Ptr} (chain : root.hashChains[i]? = some value)
    (named : getExportedSymbolName root i = .ok name) (same : withoutLow value = withoutLow hash)
    (ptr : root.exportedPtrs[i]? = some sym) :
    chainLoop root name hash (left + 1) i = .ok (some sym) := by
  rw [chainLoop, chain]
  simp [same, named, ptr, bind, Except.bind, pure, Except.pure]

theorem chainLoop_finds (wf : root.WellFormed names) {left i : Nat} {here : List Byte}
    (counted : root.exportCount ≤ i + left) (named : names[i]? = some here)
    (bucket : root.bucketOf here = root.bucketOf name) :
    ∃ sym, chainLoop root name (hashString name) left i = .ok sym ∧ Finds root names name i sym := by
  induction left generalizing i here with
  | zero =>
    obtain ⟨inside, _⟩ := List.getElem?_eq_some_iff.mp named
    rw [wf.count] at inside
    omega
  | succ left ih =>
    obtain ⟨value, chain, hash, last⟩ := wf.chain i here named
    obtain ⟨inside, _⟩ := List.getElem?_eq_some_iff.mp named
    rw [wf.count, ← wf.ptrs] at inside
    by_cases found : name = here
    · subst found
      have ptr := List.getElem?_eq_getElem inside
      exact ⟨_, chainLoop_found chain (wf.named i name named) hash ptr, .exported named ptr⟩
    · rw [chainLoop_skip chain (wf.named i here named) found]
      by_cases ends : value &&& 1 = 1
      · -- the exports behind are of other buckets
        refine ⟨none, if_pos ends, .absent fun j behind same => ?_⟩
        rcases Nat.eq_or_lt_of_le behind with rfl | later
        · exact found (Option.some.inj (same.symm.trans named))
        · exact last.mp ends j later name same bucket.symm
      · -- another one of the bucket is behind, so the next one is
        rw [if_neg ends]
        rw [last] at ends
        push Not at ends
        obtain ⟨k, behind, later, named', same⟩ := ends
        obtain ⟨inside', _⟩ := List.getElem?_eq_some_iff.mp named'
        have next : names[i + 1]? = some (names[i + 1]) := List.getElem?_eq_getElem (by omega)
        have bucket' := wf.grouped i (i + 1) k _ _ _ (Nat.le_succ i) behind named next named'
          same.symm
        obtain ⟨sym, run, finds⟩ := ih (by omega) next (bucket'.trans bucket)
        refine ⟨sym, run, ?_⟩
        cases finds with
        | exported named ptr => exact .exported named ptr
        | absent missing =>
          apply Finds.absent
          intro j behind same
          rcases Nat.eq_or_lt_of_le behind with rfl | later
          · exact found (Option.some.inj (same.symm.trans named))
          · exact missing j later same

/-- For every name, the pointer of the export that has it, and otherwise `false`. -/
theorem getExportedSym_finds (wf : root.WellFormed names) (name : List Byte) :
    ∃ sym, getExportedSym root name = .ok sym ∧ Finds root names name 0 sym := by
  obtain ⟨maybe, filter⟩ := isMaybeExported_ok wf (hashString name)
  rw [getExportedSym, filter]
  cases maybe with
  | false =>
    refine ⟨none, rfl, .absent fun j _ named => ?_⟩
    rw [isMaybeExported_of_mem wf (List.mem_of_getElem? named)] at filter
    cases filter
  | true =>
    obtain ⟨first, found, cases_⟩ :=
      wf.bucket (root.bucketOf name) (Nat.mod_lt _ wf.buckets)
    rw [PLLRoot.bucketOf] at found
    simp only [bind, Except.bind, Bool.true_eq_false, if_false, (Nat.pos_iff_ne_zero.mp wf.buckets), found]
    rcases cases_ with ⟨empty, missing⟩ | ⟨⟨here, named, bucket⟩, before⟩
    · refine ⟨none, if_pos empty, .absent fun j _ named => ?_⟩
      exact missing name (List.mem_of_getElem? named) rfl
    · obtain ⟨inside, _⟩ := List.getElem?_eq_some_iff.mp named
      have below : first ≠ -1 := by
        rintro rfl
        have := root.inSpace
        rw [wf.count] at inside
        simp at inside
        omega
      obtain ⟨sym, run, finds⟩ := @chainLoop_finds Ptr root names name wf
        (root.exportCount - first.toNat) first.toNat here (by omega) named bucket
      refine ⟨sym, (if_neg below).trans run, ?_⟩
      cases finds with
      | exported named ptr => exact .exported named ptr
      | absent missing =>
        -- what is in front of the chain is of other buckets
        apply Finds.absent
        intro j _ named
        rcases Nat.lt_or_ge j first.toNat with front | behind
        · exact before j front name named rfl
        · exact missing j behind named

/-- A name is found, and with its own pointer, exactly if it is exported; and the lookup always
    comes to an end, inside the tables. -/
theorem getExportedSym_exact (wf : root.WellFormed names) (name : List Byte) :
    (∀ i : Nat, names[i]? = some name →
      ∃ sym, root.exportedPtrs[i]? = some sym ∧ getExportedSym root name = .ok (some sym)) ∧
      (name ∉ names → getExportedSym root name = .ok none) ∧
      ∃ result, getExportedSym root name = .ok result := by
  obtain ⟨result, run, finds⟩ := getExportedSym_finds wf name
  refine ⟨?_, ?_, result, run⟩
  · intro i named
    cases finds with
    | absent missing => exact absurd named (missing i (Nat.zero_le i))
    | exported there ptr =>
      -- no two exports have one name
      obtain ⟨inside, _⟩ := List.getElem?_eq_some_iff.mp named
      have same := (List.getElem?_inj inside wf.distinct).mp (named.trans there.symm)
      subst same
      exact ⟨_, ptr, run⟩
  · intro missing
    cases finds with
    | absent _ => exact run
    | exported there _ => exact absurd (List.mem_of_getElem? there) missing

/-! `a` and `b` have hashes that differ in the low bit only, and one bucket. -/

theorem two_inSpace : 4 * 2 ≤ 2 ^ 32 := by decide

def twoExports : PLLRoot Nat where
  stringTable := [97, 0, 98, 0]
  exportedPtrs := [10, 20]
  exportedNames := [0, 2]
  exportCount := 2
  bucketCount := 1
  hashBuckets := [0]
  hashChains := [177670, 177671]
  bloomFilterMaskwordsBitmask := 0
  bloomFilterShift2 := 5
  bloomFilterData := [-1]
  inSpace := two_inSpace

theorem twoExports_wellFormed : twoExports.WellFormed [[97], [98]] where
  count := rfl
  named := by
    intro i name found
    match i with
    | 0 => cases found; decide
    | 1 => cases found; decide
  distinct := by decide
  ptrs := rfl
  buckets := by decide
  grouped := by
    intros
    simp [PLLRoot.bucketOf, twoExports, Nat.mod_one]
  bucket := by
    intro b inside
    cases Nat.lt_one_iff.mp inside
    exact ⟨0, rfl, .inr ⟨⟨[97], rfl, Nat.mod_one _⟩, by intro i front; cases front⟩⟩
  chain := by
    intro i name found
    match i with
    | 0 =>
      cases found
      refine ⟨177670, rfl, by decide, ?_⟩
      constructor
      · intro odd
        exact absurd odd (by decide)
      · intro alone
        exact absurd (Nat.mod_one _) (alone 1 Nat.one_pos [98] rfl)
    | 1 =>
      cases found
      refine ⟨177671, rfl, by decide, ?_⟩
      constructor
      · intro _ j behind later found
        obtain ⟨inside, _⟩ := List.getElem?_eq_some_iff.mp found
        simp at inside
        omega
      · intro _
        decide
  maskwords := ⟨0, rfl, rfl⟩
  shift := by decide
  bloom := by
    intro name _
    have set (i : Nat) : (-1 : BitVec 32).getLsbD (i % 32) = true := by
      have ones : (-1 : BitVec 32) = BitVec.allOnes 32 := by decide
      rw [ones, BitVec.getLsbD_allOnes]
      exact decide_eq_true (Nat.mod_lt i (by decide))
    exact ⟨-1, by simp [bloomWord, twoExports], set _, set _⟩

theorem getExportedSym_exact_twoExports :
    (∃ result, getExportedSym twoExports [99] = .ok result) ∧
      getExportedSym twoExports [98] = .ok (some 20) := by
  obtain ⟨found, _, _⟩ := getExportedSym_exact twoExports_wellFormed [98]
  obtain ⟨sym, ptr, run⟩ := found 1 rfl
  cases ptr
  exact ⟨(getExportedSym_exact twoExports_wellFormed [99]).2.2, run⟩

end SandboxTEE.PllLoader
