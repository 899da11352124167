import Mathlib.Algebra.Group.Int.Defs
import Mathlib.Algebra.Group.Nat.Defs
import Mathlib.Data.List.Basic

/-! # Dynamic arrays (`dyn_array.c`)

An array of pointers with a bitmap of the slots in use, and a hint: the words of the bitmap in
front of `avail_ix` are full.
-/

namespace SandboxTEE.DescTable

variable {α : Type}

structure DynArray (α : Type) where
  numEntries : Nat
  /-- All `ptr_array_space` of them. -/
  ptrArray : List (Option α)
  available : List (BitVec 32)
  availIx : Nat

def bitsToAllocWords (nbits : Nat) : Nat := (nbits + 31) / 32
def bitsToIndex (nbits : Nat) : Nat := nbits / 32
def bitsToOffset (nbits : Nat) : Nat := nbits % 32

/-- `DynArrayCtor`, where `calloc` succeeds. -/
def dynArrayCtor (initialSize : Nat) : DynArray α :=
  let space := if initialSize = 0 then 32 else initialSize
  ⟨0, .replicate space none, .replicate (bitsToAllocWords space) 0, 0⟩

def dynArrayGet (dap : DynArray α) (idx : Nat) : Option α :=
  if idx < dap.numEntries then dap.ptrArray[idx]?.join else none

/-- The space is doubled until the index is inside; a `size_t` overflows sooner than the fuel. -/
def desiredSpace : Nat → Nat → Nat → Option Nat
  | 0, _, _ => none
  | fuel + 1, idx, space =>
    if space ≤ idx then
      let tmp := 2 * space % 2 ^ 64
      if tmp < space then none else desiredSpace fuel idx tmp
    else some space

/-- The arrays are enlarged until the index is inside, if `realloc` succeeds. -/
def DynArray.enlarge (allocated : Bool) (dap : DynArray α) (idx : Nat) : Option (DynArray α) :=
  match desiredSpace 65 idx dap.ptrArray.length with
  | none => none
  | some desired =>
    if desired ≠ dap.ptrArray.length then
      if allocated then
        some { dap with
          ptrArray := dap.ptrArray ++ .replicate (desired - dap.ptrArray.length) none
          available := dap.available ++
            .replicate (bitsToAllocWords desired - bitsToAllocWords dap.ptrArray.length) 0 }
      else none
    else some dap

def assignBit (word : BitVec 32) (offset : Nat) (used : Bool) : BitVec 32 :=
  if used then word ||| 1#32 <<< offset else word &&& ~~~(1#32 <<< offset)

def DynArray.assign (dap : DynArray α) (idx : Nat) (ptr : Option α) : DynArray α where
  numEntries := if dap.numEntries ≤ idx then idx + 1 else dap.numEntries
  ptrArray := dap.ptrArray.set idx ptr
  available := dap.available.modify (bitsToIndex idx) (assignBit · (bitsToOffset idx) ptr.isSome)
  availIx := if ptr.isNone ∧ bitsToIndex idx < dap.availIx then bitsToIndex idx else dap.availIx

/-- `DynArraySet`; `none` is a failure. -/
def dynArraySet (allocated : Bool) (dap : DynArray α) (idx : Nat) (ptr : Option α) :
    Option (DynArray α) :=
  (dap.enlarge allocated idx).map (·.assign idx ptr)

/-- 1 more than the index of the lowest bit that is set, or 0. -/
def ffs (word : BitVec 32) : Nat := ((List.range 32).find? (word.getLsbD ·)).elim 0 (· + 1)

/-- The position of a slot that is not in use, and the array with the hint moved up. -/
def dynArrayFirstAvail (dap : DynArray α) : Nat × DynArray α :=
  let lastIx := bitsToAllocWords dap.ptrArray.length
  let ix := (List.range' dap.availIx (lastIx - dap.availIx)).find? fun ix =>
    ~~~(dap.available.getD ix 0) ≠ 0
  match ix with
  | some ix => (ffs (~~~(dap.available.getD ix 0)) - 1 + ix * 32, { dap with availIx := ix })
  | none => (dap.ptrArray.length, dap)

/-! ## The invariant -/

def DynArray.slot (dap : DynArray α) (i : Nat) : Option α := dap.ptrArray[i]?.join

structure DynArray.Ok (dap : DynArray α) : Prop where
  nonempty : 0 < dap.ptrArray.length
  words : dap.available.length = bitsToAllocWords dap.ptrArray.length
  beyond : ∀ i, dap.numEntries ≤ i → dap.slot i = none
  bits : ∀ i, (dap.available.getD (i / 32) 0).getLsbD (i % 32) = (dap.slot i).isSome
  full : ∀ ix < dap.availIx, dap.available.getD ix 0 = BitVec.allOnes 32

section Spec

variable {dap dap' : DynArray α}

theorem DynArray.Ok.get (ok : dap.Ok) (idx : Nat) : dynArrayGet dap idx = dap.slot idx := by
  rw [dynArrayGet]
  split
  · rfl
  · next outside => exact (ok.beyond idx (Nat.le_of_not_lt outside)).symm

theorem slot_replicate (n i : Nat) : (List.replicate n (none : Option α))[i]?.join = none := by
  rw [List.getElem?_replicate]
  split <;> rfl

theorem dynArrayCtor_ok (initialSize : Nat) : (dynArrayCtor initialSize : DynArray α).Ok where
  nonempty := by
    rw [dynArrayCtor, List.length_replicate]
    split <;> omega
  words := by
    rw [dynArrayCtor]
    simp only [List.length_replicate]
  beyond := fun i _ => slot_replicate _ i
  bits := fun i => by
    have empty : (dynArrayCtor initialSize : DynArray α).slot i = none := slot_replicate _ i
    rw [empty, dynArrayCtor]
    dsimp only
    generalize bitsToAllocWords _ = words
    rw [List.getD_eq_getElem?_getD, List.getElem?_replicate]
    split <;> simp
  full := fun ix below => absurd below (Nat.not_lt_zero ix)

/-! ## Lookup of a free slot -/

theorem ffs_not {word : BitVec 32} (free : ~~~word ≠ 0) :
    ∃ i < 32, ffs (~~~word) = i + 1 ∧ word.getLsbD i = false ∧ ∀ j < i, word.getLsbD j = true := by
  rw [ffs]
  cases found : (List.range 32).find? ((~~~word).getLsbD ·) with
  | none =>
    rw [List.find?_eq_none] at found
    refine absurd (BitVec.eq_of_getLsbD_eq fun i inside => ?_) free
    have clear := found i (List.mem_range.mpr inside)
    simpa using clear
  | some i =>
    obtain ⟨set, member, lower⟩ := List.find?_range_eq_some.mp found
    have inside := List.mem_range.mp member
    refine ⟨i, inside, rfl, by simpa [inside] using set, fun j below => ?_⟩
    have := lower j below
    simpa [Nat.lt_trans below inside] using this

/-- The slot found is free, and the array is the same. -/
theorem dynArrayFirstAvail_spec (ok : dap.Ok) {pos : Nat}
    (run : dynArrayFirstAvail dap = (pos, dap')) :
    dap.slot pos = none ∧ dap'.Ok ∧ dap'.ptrArray = dap.ptrArray := by
  unfold dynArrayFirstAvail at run
  dsimp only at run
  split at run
  · next ix found =>
    cases run
    have free := List.find?_some found
    rw [decide_eq_true_iff] at free
    obtain ⟨i, inside, first, clear, -⟩ := ffs_not free
    have index : (i + ix * 32) / 32 = ix ∧ (i + ix * 32) % 32 = i := by omega
    refine ⟨?_, { ok with full := fun jx below => ?_ }, rfl⟩
    · have bit := ok.bits (i + ix * 32)
      rw [index.1, index.2, clear] at bit
      rw [first, Nat.add_sub_cancel]
      exact Option.isNone_iff_eq_none.mp (by simpa using bit.symm)
    · -- the words from the hint on were full
      by_cases old : jx < dap.availIx
      · exact ok.full jx old
      · have skipped := (List.find?_range'_eq_some.mp found).2.2 jx (Nat.le_of_not_lt old) below
        have all : ~~~(dap.available.getD jx 0) = 0 := by simpa using skipped
        rw [← BitVec.not_not (b := dap.available.getD jx 0), all]
        rfl
  · next none =>
    cases run
    refine ⟨?_, ok, rfl⟩
    rw [DynArray.slot, List.getElem?_eq_none (Nat.le_refl _)]
    rfl

variable {j : Nat}

theorem DynArray.Ok.slot_of_full (ok : dap.Ok)
    (full : dap.available.getD (j / 32) 0 = BitVec.allOnes 32) : (dap.slot j).isSome = true := by
  rw [← ok.bits j, full, BitVec.getLsbD_allOnes]
  exact decide_eq_true (Nat.mod_lt j (by decide))

/-- Every slot in front of the one found is in use. -/
theorem dynArrayFirstAvail_least (ok : dap.Ok) (below : j < (dynArrayFirstAvail dap).1) :
    (dap.slot j).isSome = true := by
  -- a word that the search has passed is full, and so is one in front of the hint
  have passed {limit : Nat} (word : j / 32 < limit)
      (skipped : ∀ ix, dap.availIx ≤ ix → ix < limit → ~~~(dap.available.getD ix 0) = 0) :
      (dap.slot j).isSome = true := by
    refine ok.slot_of_full ?_
    by_cases hinted : j / 32 < dap.availIx
    · exact ok.full _ hinted
    · rw [← BitVec.not_not (b := dap.available.getD (j / 32) 0),
        skipped _ (Nat.le_of_not_lt hinted) word]
      rfl
  unfold dynArrayFirstAvail at below
  dsimp only at below
  split at below
  · next ix found =>
    have free := List.find?_some found
    rw [decide_eq_true_iff] at free
    obtain ⟨i, inside, first, -, lower⟩ := ffs_not free
    rw [first, Nat.add_sub_cancel] at below
    by_cases word : j / 32 < ix
    · refine passed word fun jx above before => ?_
      have := (List.find?_range'_eq_some.mp found).2.2 jx above before
      simpa using this
    · have same : j / 32 = ix := by omega
      rw [← ok.bits j, same]
      exact lower _ (by omega)
  · next none =>
    rw [List.find?_eq_none] at none
    refine @passed (bitsToAllocWords dap.ptrArray.length) ?_ fun jx above before => ?_
    · simp only [bitsToAllocWords]
      omega
    · have := none jx (List.mem_range'_1.mpr ⟨above, by omega⟩)
      simpa using this

/-! ## Assignment -/

variable {idx : Nat}

theorem desiredSpace_some {fuel space desired : Nat}
    (found : desiredSpace fuel idx space = some desired) : idx < desired ∧ space ≤ desired := by
  induction fuel generalizing space with
  | zero => cases found
  | succ fuel ih =>
    unfold desiredSpace at found
    dsimp only at found
    split at found
    · split at found
      · cases found
      · next grown =>
        have := ih found
        omega
    · next inside =>
      cases found
      exact ⟨Nat.lt_of_not_le inside, Nat.le_refl _⟩

theorem getElem?_append_replicate_none (l : List (Option α)) (n i : Nat) :
    (l ++ List.replicate n none)[i]?.join = l[i]?.join := by
  rw [List.getElem?_append]
  split
  · rfl
  · next beyond =>
    rw [slot_replicate, List.getElem?_eq_none (Nat.le_of_not_lt beyond)]
    rfl

theorem getD_append_replicate_zero (l : List (BitVec 32)) (n i : Nat) :
    (l ++ List.replicate n 0).getD i 0 = l.getD i 0 := by
  rw [List.getD_eq_getElem?_getD, List.getD_eq_getElem?_getD, List.getElem?_append]
  split
  · rfl
  · next beyond =>
    rw [List.getElem?_replicate, List.getElem?_eq_none (Nat.le_of_not_lt beyond)]
    split <;> rfl

variable {i : Nat}

theorem getD_modify (l : List (BitVec 32)) (f : BitVec 32 → BitVec 32) (inside : i < l.length)
    (j : Nat) : (l.modify i f).getD j 0 = if j = i then f (l.getD j 0) else l.getD j 0 := by
  rw [List.getD_eq_getElem?_getD, List.getD_eq_getElem?_getD, List.getElem?_modify]
  by_cases same : j = i
  · subst same
    simp [inside]
  · simp [same, Ne.symm same]

theorem bit_getLsbD (inside : i < 32) : (1#32 <<< i).getLsbD j = decide (j = i) := by
  rw [BitVec.getLsbD_shiftLeft, BitVec.getLsbD_one]
  by_cases same : j = i
  · subst same
    simp [inside]
  · rcases Nat.lt_or_ge j i with less | more
    · simp [same, less]
    · have : j - i ≠ 0 := by omega
      simp [same, this]

theorem assignBit_getLsbD (word : BitVec 32) (used : Bool) (inside : i < 32) (below : j < 32) :
    (assignBit word i used).getLsbD j = if j = i then used else word.getLsbD j := by
  rw [assignBit]
  cases used with
  | false =>
    rw [if_neg (by simp), BitVec.getLsbD_and, BitVec.getLsbD_not, bit_getLsbD inside]
    by_cases same : j = i <;> simp [same, below]
  | true =>
    rw [if_pos rfl, BitVec.getLsbD_or, bit_getLsbD inside]
    by_cases same : j = i <;> simp [same]

variable {allocated : Bool}

theorem enlarge_spec (ok : dap.Ok) (run : dap.enlarge allocated idx = some dap') :
    dap'.Ok ∧ idx < dap'.ptrArray.length ∧ dap'.slot = dap.slot ∧
      ∀ p : Option α → Bool, p none = false → dap'.ptrArray.countP p = dap.ptrArray.countP p := by
  unfold DynArray.enlarge at run
  split at run
  · cases run
  next desired found =>
  obtain ⟨inside, larger⟩ := desiredSpace_some found
  split at run
  · split at run
    · cases run
      have slot : DynArray.slot { dap with
          ptrArray := dap.ptrArray ++ .replicate (desired - dap.ptrArray.length) none } =
          dap.slot := funext fun i => getElem?_append_replicate_none dap.ptrArray _ i
      have length : (dap.ptrArray ++ List.replicate (desired - dap.ptrArray.length) none).length =
          desired := by
        rw [List.length_append, List.length_replicate]
        omega
      refine ⟨⟨?_, ?_, fun i above => ?_, fun i => ?_, fun ix below => ?_⟩, ?_, slot,
        fun p unused => ?_⟩
      · dsimp only
        omega
      · dsimp only
        rw [length, List.length_append, List.length_replicate, ok.words]
        simp only [bitsToAllocWords]
        omega
      · exact (congrFun slot i).trans (ok.beyond i above)
      · dsimp only
        rw [getD_append_replicate_zero, ok.bits i]
        exact congrArg Option.isSome (congrFun slot i).symm
      · dsimp only
        rw [getD_append_replicate_zero]
        exact ok.full ix below
      · dsimp only
        rwa [length]
      · dsimp only
        rw [List.countP_append, List.countP_replicate, unused]
        rfl
    · cases run
  · next same =>
    cases run
    rw [not_not] at same
    exact ⟨ok, same ▸ inside, rfl, fun _ _ => rfl⟩

theorem assign_ok (ok : dap.Ok) (inside : idx < dap.ptrArray.length) (ptr : Option α) :
    (dap.assign idx ptr).Ok ∧
      ∀ i, (dap.assign idx ptr).slot i = if i = idx then ptr else dap.slot i := by
  have slot : ∀ i, (dap.assign idx ptr).slot i = if i = idx then ptr else dap.slot i := by
    intro i
    rw [DynArray.slot, DynArray.assign]
    by_cases same : i = idx
    · subst same
      rw [List.getElem?_set_self inside, if_pos rfl]
      rfl
    · rw [List.getElem?_set_ne (Ne.symm same), if_neg same]
      rfl
  have word : bitsToIndex idx < dap.available.length := by
    rw [ok.words]
    simp only [bitsToAllocWords, bitsToIndex]
    omega
  refine ⟨⟨?_, ?_, fun i above => ?_, fun i => ?_, fun ix below => ?_⟩, slot⟩
  · rw [DynArray.assign, List.length_set]
    exact ok.nonempty
  · rw [DynArray.assign]
    simp only [List.length_modify, List.length_set, ok.words]
  · rw [slot]
    simp only [DynArray.assign] at above
    rw [if_neg (by split at above <;> omega)]
    exact ok.beyond i (by split at above <;> omega)
  · rw [slot, DynArray.assign]
    dsimp only
    rw [getD_modify _ _ word]
    have offset : bitsToOffset idx < 32 := Nat.mod_lt _ (by decide)
    have index : i % 32 < 32 := Nat.mod_lt _ (by decide)
    by_cases same : i = idx
    · subst same
      have here : i / 32 = bitsToIndex i := rfl
      have there : i % 32 = bitsToOffset i := rfl
      rw [if_pos here, if_pos rfl, assignBit_getLsbD _ _ offset index, if_pos there]
    · rw [if_neg same]
      split
      · next here =>
        rw [assignBit_getLsbD _ _ offset index, if_neg, ok.bits]
        intro there
        simp only [bitsToIndex, bitsToOffset] at here there
        omega
      · exact ok.bits i
  · -- only the word of the slot has changed, and a set bit leaves a full word full
    have kept : ∀ jx, jx ≠ bitsToIndex idx →
        (dap.assign idx ptr).available.getD jx 0 = dap.available.getD jx 0 := by
      intro jx other
      rw [DynArray.assign]
      dsimp only
      rw [getD_modify _ _ word, if_neg other]
    simp only [DynArray.assign] at below
    split at below
    · next lowered =>
      rw [kept ix (Nat.ne_of_lt below)]
      exact ok.full ix (Nat.lt_trans below lowered.2)
    · next stays =>
      by_cases same : ix = bitsToIndex idx
      · subst same
        have used : ptr.isSome = true := by
          cases ptr with
          | none => exact absurd ⟨rfl, below⟩ stays
          | some p => rfl
        rw [DynArray.assign]
        dsimp only
        rw [getD_modify _ _ word, if_pos rfl, ok.full _ below, assignBit, used, if_pos rfl]
        exact BitVec.allOnes_or
      · rw [kept ix same]
        exact ok.full ix below

/-- What an assignment does to the slots. -/
structure Assigned (dap dap' : DynArray α) (idx : Nat) (ptr : Option α) : Prop where
  slot : ∀ i, dap'.slot i = if i = idx then ptr else dap.slot i
  count : ∀ p : Option α → Bool, p none = false →
    dap'.ptrArray.countP p + (if p (dap.slot idx) then 1 else 0) =
      dap.ptrArray.countP p + if p ptr then 1 else 0

theorem dynArraySet_spec (ok : dap.Ok) {ptr : Option α}
    (run : dynArraySet allocated dap idx ptr = some dap') :
    dap'.Ok ∧ Assigned dap dap' idx ptr := by
  obtain ⟨larger, grown, rfl⟩ := Option.map_eq_some_iff.mp run
  obtain ⟨ok', inside, same, counts⟩ := enlarge_spec ok grown
  obtain ⟨ok'', slot⟩ := assign_ok ok' inside ptr
  rw [same] at slot
  refine ⟨ok'', slot, fun p unused => ?_⟩
  have here : larger.ptrArray[idx] = dap.slot idx := by
    rw [← same, DynArray.slot, List.getElem?_eq_getElem inside, Option.join_some]
  have counted : (if p larger.ptrArray[idx] then 1 else 0) ≤ larger.ptrArray.countP p := by
    split
    · next holds => exact List.countP_pos_iff.mpr ⟨_, List.getElem_mem inside, holds⟩
    · exact Nat.zero_le _
  rw [DynArray.assign, List.countP_set inside, ← counts p unused, ← here]
  generalize (if p larger.ptrArray[idx] then 1 else 0) = old at *
  omega

/-! ## Runs -/

/-- The calls that change an array.  A lookup moves the hint. -/
inductive DynArrayCall (α : Type) where
  | set (allocated : Bool) (idx : Nat) (ptr : Option α)
  | firstAvail

/-- A call of `DynArraySet` that fails leaves the array. -/
def DynArrayCall.run (dap : DynArray α) : DynArrayCall α → DynArray α
  | .set allocated idx ptr => (dynArraySet allocated dap idx ptr).getD dap
  | .firstAvail => (dynArrayFirstAvail dap).2

theorem DynArrayCall.run_ok (ok : dap.Ok) (call : DynArrayCall α) : (call.run dap).Ok := by
  cases call with
  | set allocated idx ptr =>
    rw [DynArrayCall.run]
    cases assigned : dynArraySet allocated dap idx ptr with
    | none => exact ok
    | some dap' => exact (dynArraySet_spec ok assigned).1
  | firstAvail => exact (dynArrayFirstAvail_spec ok rfl).2.1

theorem DynArrayCall.runs_ok (calls : List (DynArrayCall α)) (ok : dap.Ok) :
    (calls.foldl DynArrayCall.run dap).Ok := by
  induction calls generalizing dap with
  | nil => exact ok
  | cons call calls ih => exact ih (call.run_ok ok)

/-- The first three slots are in use, after the array of two slots has grown. -/
example : (dynArrayFirstAvail ([0, 1, 2].foldl (fun dap i =>
    (DynArrayCall.set true i (some ())).run dap) (dynArrayCtor 2))).1 = 3 := by decide

end Spec

end SandboxTEE.DescTable
