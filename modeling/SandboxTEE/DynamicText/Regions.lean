import Mathlib.Algebra.Group.Int.Defs
import Mathlib.Algebra.Group.Nat.Defs
import Mathlib.Data.List.MinMax
import SandboxTEE.Lib.Run

/-! # The table of dynamic regions (`nacl_text.c`)

`nap->dynamic_regions` is an array sorted by `start`.  The regions of a table in order
(`Table.InOrder`) lie one behind the other, so the region that starts last at or below the end
of a range is the only one that can reach into it; that is all `NaClDynamicRegionCreate` and
`NaClDynamicRegionFind` look at.

`none` is `LOG_FATAL`, when `realloc` fails, or a region to delete that is not in the table.
-/

namespace SandboxTEE.DynamicText

open Lib

structure NaClDynamicRegion where
  start : Nat
  size : Nat
  deleteGeneration : Int
  isMmap : Bool
deriving DecidableEq

/-- `r->start + r->size`, a `uintptr_t`. -/
def NaClDynamicRegion.stop (r : NaClDynamicRegion) : Nat := (r.start + r.size) % 2 ^ 64

/-- A range of addresses as the callers pass it: not empty, and its end is an address. -/
structure Range where
  start : Nat
  size : Nat
  nonempty : 0 < size
  noWrap : start + size < 2 ^ 64

/-- `start + size - 1`, a `uintptr_t`. -/
def lastAddress (start size : Nat) : Nat := (start + size + (2 ^ 64 - 1)) % 2 ^ 64

structure Table where
  /-- The first `num_dynamic_regions` elements of the array. -/
  dynamicRegions : List NaClDynamicRegion
  dynamicRegionsAllocated : Nat

def Table.empty : Table := ⟨[], 0⟩

/-! ## The lookup -/

section Lookup

variable (regions : List NaClDynamicRegion) (ptr : Nat)

def startAt (i : Nat) : Nat := regions[i]?.elim 0 NaClDynamicRegion.start

def kBinarySearchToScanCutoff : Nat := 16

/-- The binary search, until the range is small: `begin` and `end`. -/
def binarySearch : Nat → Nat → Nat → Nat × Nat
  | 0, first, stop => (first, stop)
  | fuel + 1, first, stop =>
    if first + kBinarySearchToScanCutoff + 1 < stop then
      let mid := first + (stop - first) / 2
      if startAt regions mid ≤ ptr then binarySearch fuel mid stop
      else binarySearch fuel first mid
    else (first, stop)

/-- The linear scan. -/
def linearScan : Nat → Nat → Nat → Nat
  | 0, first, _ => first
  | fuel + 1, first, stop =>
    if first + 1 < stop ∧ startAt regions (first + 1) ≤ ptr then linearScan fuel (first + 1) stop
    else first

/-- `NaClDynamicRegionFindClosestLEQ`; a region is its index.  Neither loop takes more steps
    than there are regions. -/
def naClDynamicRegionFindClosestLEQ : Option Nat :=
  let num := regions.length
  if num = 0 then none
  -- as an optimization, check the last region first
  else if startAt regions (num - 1) ≤ ptr then some (num - 1)
  -- comes before everything
  else if ptr < startAt regions 0 then none
  else
    let (first, stop) := binarySearch regions ptr num 0 num
    some (linearScan regions ptr num first stop)

def naClDynamicRegionFind (size : Nat) : Option Nat :=
  (naClDynamicRegionFindClosestLEQ regions (lastAddress ptr size)).filter fun p =>
    ptr < regions[p]?.elim 0 NaClDynamicRegion.stop

end Lookup

/-! ## Changes of the table -/

def kMinDynamicRegionsAllocated : Nat := 32

/-- The number of regions a full buffer is enlarged for; `reallocated` tells whether `realloc`
    succeeds, which it cannot for a number that is no `int`. -/
def enlarge (reallocated : Bool) (t : Table) : Option Table :=
  if t.dynamicRegionsAllocated = t.dynamicRegions.length then
    let allocated := max (t.dynamicRegionsAllocated * 2) kMinDynamicRegionsAllocated
    if reallocated ∧ allocated < 2 ^ 31 then some { t with dynamicRegionsAllocated := allocated }
    else none
  else some t

/-- `NaClDynamicRegionCreate`: whether the target is free, and the table behind the call. -/
def naClDynamicRegionCreate (reallocated : Bool) (start size : Nat) (isMmap : Bool) (t : Table) :
    Option (Bool × Table) :=
  (enlarge reallocated t).map fun t =>
    let item : NaClDynamicRegion := ⟨start, size, -1, isMmap⟩
    let regions := t.dynamicRegions
    let found := naClDynamicRegionFindClosestLEQ regions (lastAddress start size)
    if found.any fun p => start < regions[p]?.elim 0 NaClDynamicRegion.stop then
      -- target already in use
      (false, t)
    else
      -- scroll to the insertion point, and shift what is behind it
      let p := found.getD 0
      let p := p + ((regions.drop p).takeWhile fun r => r.start < item.start).length
      (true, { t with dynamicRegions := regions.take p ++ item :: regions.drop p })

/-- `NaClDynamicRegionDelete`. -/
def naClDynamicRegionDelete (reallocated : Bool) (r : Nat) (t : Table) : Option Table :=
  if r < t.dynamicRegions.length then
    let regions := t.dynamicRegions.eraseIdx r
    if t.dynamicRegionsAllocated > kMinDynamicRegionsAllocated ∧
        t.dynamicRegionsAllocated / 4 > regions.length then
      -- too much waste, shrink buffer
      if reallocated then some ⟨regions, t.dynamicRegionsAllocated / 2⟩ else none
    else some ⟨regions, t.dynamicRegionsAllocated⟩
  else none

/-! ## Ranges -/

def NaClDynamicRegion.Has (r : NaClDynamicRegion) (a : Nat) : Prop :=
  r.start ≤ a ∧ a < r.start + r.size

def Range.Has (range : Range) (a : Nat) : Prop :=
  range.start ≤ a ∧ a < range.start + range.size

/-- The region and the range have an address in common. -/
def NaClDynamicRegion.Meets (r : NaClDynamicRegion) (range : Range) : Prop :=
  ∃ a, r.Has a ∧ range.Has a

structure NaClDynamicRegion.Proper (r : NaClDynamicRegion) : Prop where
  nonempty : 0 < r.size
  noWrap : r.start + r.size < 2 ^ 64

theorem NaClDynamicRegion.Proper.stop_eq {r : NaClDynamicRegion} (proper : r.Proper) :
    r.stop = r.start + r.size := Nat.mod_eq_of_lt proper.noWrap

theorem NaClDynamicRegion.Proper.meets_iff {r : NaClDynamicRegion} (proper : r.Proper)
    (range : Range) : r.Meets range ↔
      r.start < range.start + range.size ∧ range.start < r.start + r.size := by
  have := proper.nonempty
  have := range.nonempty
  constructor
  · rintro ⟨a, ⟨_, _⟩, ⟨_, _⟩⟩
    omega
  · rintro ⟨_, _⟩
    exact ⟨max r.start range.start, ⟨by omega, by omega⟩, ⟨by omega, by omega⟩⟩

theorem Range.lastAddress_eq (range : Range) :
    lastAddress range.start range.size = range.start + range.size - 1 := by
  have nonempty := range.nonempty
  have noWrap := range.noWrap
  unfold lastAddress
  generalize 2 ^ 64 = space at *
  have shifted : range.start + range.size + (space - 1) =
      (range.start + range.size - 1) + space := by omega
  rw [shifted, Nat.add_mod_right, Nat.mod_eq_of_lt (by omega)]

/-- Non-empty regions, one behind the other. -/
structure InOrder (regions : List NaClDynamicRegion) : Prop where
  proper : ∀ r ∈ regions, r.Proper
  ordered : regions.Pairwise fun r r' => r.start + r.size ≤ r'.start

variable {regions : List NaClDynamicRegion}

theorem InOrder.increasing (inOrder : InOrder regions) :
    regions.Pairwise fun r r' => r.start < r'.start :=
  inOrder.ordered.imp_of_mem fun {r r'} mem _ behind => by
    have := (inOrder.proper r mem).nonempty
    omega

/-! ## The lookup finds the closest region -/

section Lookup

variable {regions : List NaClDynamicRegion} {ptr : Nat}

variable {i : Nat}

theorem startAt_lt (increasing : regions.Pairwise fun r r' => r.start < r'.start) {j : Nat}
    (before : i < j) (inside : j < regions.length) : startAt regions i < startAt regions j := by
  have earlier : i < regions.length := Nat.lt_trans before inside
  simp only [startAt, List.getElem?_eq_getElem earlier, List.getElem?_eq_getElem inside,
    Option.elim_some]
  exact List.pairwise_iff_getElem.mp increasing i j earlier inside before

/-- The binary search stays between a region that starts at or below `ptr` and the regions that
    start above it. -/
theorem binarySearch_spec (fuel : Nat) {first stop : Nat} (range : first < stop)
    (inside : stop ≤ regions.length) (low : startAt regions first ≤ ptr)
    (high : ∀ j, stop ≤ j → j < regions.length → ptr < startAt regions j)
    (increasing : regions.Pairwise fun r r' => r.start < r'.start) :
    let found := binarySearch regions ptr fuel first stop
    found.1 < found.2 ∧ found.2 ≤ regions.length ∧ startAt regions found.1 ≤ ptr ∧
      ∀ j, found.2 ≤ j → j < regions.length → ptr < startAt regions j := by
  induction fuel generalizing first stop with
  | zero => exact ⟨range, inside, low, high⟩
  | succ fuel ih =>
    rw [binarySearch]
    split
    · next wide =>
      have middle : first < first + (stop - first) / 2 ∧ first + (stop - first) / 2 < stop := by
        simp only [kBinarySearchToScanCutoff] at wide
        omega
      dsimp only
      split
      · next below => exact ih middle.2 inside below high
      · next above =>
        refine ih middle.1 (by omega) low fun j from_mid inside' => ?_
        rcases Nat.eq_or_lt_of_le from_mid with rfl | behind
        · omega
        · have := startAt_lt increasing behind inside'
          omega
    · exact ⟨range, inside, low, high⟩

theorem linearScan_spec (fuel : Nat) {first stop : Nat} (enough : stop - first ≤ fuel)
    (range : first < stop) (low : startAt regions first ≤ ptr) :
    let found := linearScan regions ptr fuel first stop
    found < stop ∧ startAt regions found ≤ ptr ∧
      (found + 1 < stop → ptr < startAt regions (found + 1)) := by
  induction fuel generalizing first with
  | zero => omega
  | succ fuel ih =>
    rw [linearScan]
    split
    · next more => exact ih (by omega) more.1 more.2
    · next last => exact ⟨range, low, fun more => by omega⟩

/-- The region found starts at or below `ptr`, and those behind it start above. -/
theorem naClDynamicRegionFindClosestLEQ_some
    (increasing : regions.Pairwise fun r r' => r.start < r'.start)
    (found : naClDynamicRegionFindClosestLEQ regions ptr = some i) :
    i < regions.length ∧ startAt regions i ≤ ptr ∧
      ∀ j, i < j → j < regions.length → ptr < startAt regions j := by
  unfold naClDynamicRegionFindClosestLEQ at found
  dsimp only at found
  split_ifs at found with empty last first
  · cases found
    exact ⟨by omega, last, fun j behind inside => by omega⟩
  · rw [Option.some.injEq] at found
    obtain ⟨range, inside, low, high⟩ := binarySearch_spec regions.length
      (Nat.pos_of_ne_zero empty) (Nat.le_refl _) (Nat.le_of_not_lt first)
      (fun j _ _ => by omega) increasing
    obtain ⟨small, below, next⟩ := linearScan_spec regions.length (by omega) range low
    rw [found] at small below next
    refine ⟨Nat.lt_of_lt_of_le small inside, below, fun j behind inside' => ?_⟩
    by_cases tail : (binarySearch regions ptr regions.length 0 regions.length).2 ≤ j
    · exact high j tail inside'
    · have step := next (by omega)
      rcases Nat.eq_or_lt_of_le (Nat.succ_le_of_lt behind) with rfl | further
      · exact step
      · exact Nat.lt_trans step (startAt_lt increasing further inside')

theorem naClDynamicRegionFindClosestLEQ_none
    (increasing : regions.Pairwise fun r r' => r.start < r'.start)
    (found : naClDynamicRegionFindClosestLEQ regions ptr = none) :
    ∀ r ∈ regions, ptr < r.start := by
  unfold naClDynamicRegionFindClosestLEQ at found
  dsimp only at found
  intro r mem
  split_ifs at found with empty last first
  · rw [List.length_eq_zero_iff.mp empty] at mem
    cases mem
  · obtain ⟨i, inside, rfl⟩ := List.mem_iff_getElem.mp mem
    have here : startAt regions i = regions[i].start := by
      rw [startAt, List.getElem?_eq_getElem inside, Option.elim_some]
    rw [← here]
    cases i with
    | zero => exact first
    | succ i => exact Nat.lt_trans first (startAt_lt increasing (Nat.succ_pos i) inside)

theorem closest_split (increasing : regions.Pairwise fun r r' => r.start < r'.start)
    (found : naClDynamicRegionFindClosestLEQ regions ptr = some i) :
    ∃ before r after, regions = before ++ r :: after ∧ before.length = i ∧
      regions[i]? = some r ∧ r.start ≤ ptr ∧ ∀ x ∈ after, ptr < x.start := by
  obtain ⟨inside, below, above⟩ := naClDynamicRegionFindClosestLEQ_some increasing found
  have here : startAt regions i = regions[i].start := by
    rw [startAt, List.getElem?_eq_getElem inside, Option.elim_some]
  refine ⟨regions.take i, regions[i], regions.drop (i + 1), ?_, ?_,
    List.getElem?_eq_getElem inside, here ▸ below, fun x mem => ?_⟩
  · rw [← List.drop_eq_getElem_cons inside, List.take_append_drop]
  · rw [List.length_take, Nat.min_eq_left (Nat.le_of_lt inside)]
  · obtain ⟨k, hk, rfl⟩ := List.mem_iff_getElem.mp mem
    rw [List.length_drop] at hk
    have later := above (i + 1 + k) (by omega) (by omega)
    rwa [startAt, List.getElem?_eq_getElem (by omega), Option.elim_some,
      ← List.getElem_drop (h := by rw [List.length_drop]; exact hk)] at later

/-- The region with the greatest start at or below `ptr`. -/
theorem naClDynamicRegionFindClosestLEQ_eq
    (increasing : regions.Pairwise fun r r' => r.start < r'.start) :
    (naClDynamicRegionFindClosestLEQ regions ptr).bind (regions[·]?) =
      (regions.filter fun r => r.start ≤ ptr).argmax NaClDynamicRegion.start := by
  cases found : naClDynamicRegionFindClosestLEQ regions ptr with
  | none =>
    have above := naClDynamicRegionFindClosestLEQ_none increasing found
    have none : (regions.filter fun r => r.start ≤ ptr) = [] := by
      rw [List.filter_eq_nil_iff]
      intro r mem
      simpa using above r mem
    rw [none]
    rfl
  | some i =>
    obtain ⟨before, r, after, split, _, here, below, above⟩ := closest_split increasing found
    rw [Option.bind_some, here, eq_comm, List.argmax_eq_some_iff]
    have member : r ∈ regions := split ▸ List.mem_append_right _ List.mem_cons_self
    -- what is in front of the region starts before it, what is behind it starts above `ptr`
    have least : ∀ x ∈ regions.filter (fun r => r.start ≤ ptr), x.start < r.start ∨ x = r := by
      intro x mem
      obtain ⟨mem, low⟩ := List.mem_filter.mp mem
      rw [split] at mem increasing
      rcases List.mem_append.mp mem with front | back
      · exact Or.inl ((List.pairwise_append.mp increasing).2.2 x front r List.mem_cons_self)
      · rcases List.mem_cons.mp back with rfl | back
        · exact Or.inr rfl
        · have := above x back
          have := of_decide_eq_true low
          omega
    refine ⟨List.mem_filter.mpr ⟨member, decide_eq_true below⟩, fun x mem => ?_, fun x mem up => ?_⟩
    · rcases least x mem with before | rfl
      · exact Nat.le_of_lt before
      · exact Nat.le_refl _
    · rcases least x mem with before | rfl
      · omega
      · exact Nat.le_refl _

end Lookup

/-! ## Overlap -/

section Overlap

variable {regions : List NaClDynamicRegion} (inOrder : InOrder regions)

include inOrder

/-- A range meets a region just when the closest region to its end reaches into it. -/
theorem meets_iff_closest (range : Range) : (∃ r ∈ regions, r.Meets range) ↔
      (naClDynamicRegionFindClosestLEQ regions (lastAddress range.start range.size)).any
        (fun p => range.start < regions[p]?.elim 0 NaClDynamicRegion.stop) = true := by
  have nonempty := range.nonempty
  rw [range.lastAddress_eq]
  cases found : naClDynamicRegionFindClosestLEQ regions (range.start + range.size - 1) with
  | none =>
    have above := naClDynamicRegionFindClosestLEQ_none inOrder.increasing found
    simp only [Option.any_none, Bool.false_eq_true, iff_false]
    rintro ⟨r, mem, meets⟩
    have := above r mem
    have := ((inOrder.proper r mem).meets_iff range).mp meets
    omega
  | some i =>
    obtain ⟨before, r, after, split, _, here, below, above⟩ :=
      closest_split inOrder.increasing found
    have member : r ∈ regions := split ▸ List.mem_append_right _ List.mem_cons_self
    have proper := inOrder.proper r member
    rw [Option.any_some, here, Option.elim_some, proper.stop_eq, decide_eq_true_iff]
    constructor
    · rintro ⟨x, mem, meets⟩
      have meets := ((inOrder.proper x mem).meets_iff range).mp meets
      have ordered := inOrder.ordered
      rw [split] at mem ordered
      rcases List.mem_append.mp mem with front | back
      · have := (List.pairwise_append.mp ordered).2.2 x front r List.mem_cons_self
        omega
      · rcases List.mem_cons.mp back with rfl | back
        · exact meets.2
        · have := above x back
          omega
    · intro reaches
      exact ⟨r, member, (proper.meets_iff range).mpr ⟨by omega, reaches⟩⟩

theorem naClDynamicRegionFind_isSome (range : Range) :
    (naClDynamicRegionFind regions range.start range.size).isSome ↔
      ∃ r ∈ regions, r.Meets range := by
  rw [meets_iff_closest inOrder, naClDynamicRegionFind]
  cases naClDynamicRegionFindClosestLEQ regions (lastAddress range.start range.size) with
  | none => simp
  | some p => simp [Option.filter]

end Overlap

/-! ## Creation and deletion -/

variable {t t' : Table}

theorem enlarge_regions {reallocated : Bool} (enlarged : enlarge reallocated t = some t') :
    t'.dynamicRegions = t.dynamicRegions := by
  unfold enlarge at enlarged
  dsimp only at enlarged
  split_ifs at enlarged <;> cases enlarged <;> rfl

/-- A region that meets no other is put between those that end before and those that start
    behind it. -/
theorem InOrder.insert {before after : List NaClDynamicRegion}
    (inOrder : InOrder (before ++ after)) {item : NaClDynamicRegion} (proper : item.Proper)
    (below : ∀ r ∈ before, r.start + r.size ≤ item.start)
    (above : ∀ r ∈ after, item.start + item.size ≤ r.start) :
    InOrder (before ++ item :: after) where
  proper := by
    intro r mem
    rcases List.mem_append.mp mem with front | back
    · exact inOrder.proper r (List.mem_append_left _ front)
    · rcases List.mem_cons.mp back with rfl | back
      · exact proper
      · exact inOrder.proper r (List.mem_append_right _ back)
  ordered := by
    obtain ⟨left, right, between⟩ := List.pairwise_append.mp inOrder.ordered
    refine List.pairwise_append.mpr ⟨left, List.pairwise_cons.mpr ⟨above, right⟩, ?_⟩
    intro x front y back
    rcases List.mem_cons.mp back with rfl | back
    · exact below x front
    · exact between x front y back

theorem insertionPoint (inOrder : InOrder regions) {range : Range}
    (free : ¬ (naClDynamicRegionFindClosestLEQ regions (lastAddress range.start range.size)).any
      (fun p => range.start < regions[p]?.elim 0 NaClDynamicRegion.stop) = true) :
    let p := (naClDynamicRegionFindClosestLEQ regions (lastAddress range.start range.size)).getD 0
    ∃ before after, regions = before ++ after ∧
      p + ((regions.drop p).takeWhile fun r => r.start < range.start).length = before.length ∧
      (∀ r ∈ before, r.start + r.size ≤ range.start) ∧
      ∀ r ∈ after, range.start + range.size ≤ r.start := by
  have nonempty := range.nonempty
  rw [range.lastAddress_eq] at *
  -- a region behind the end of the range ends the scroll
  have stays : ∀ l : List NaClDynamicRegion,
      (∀ r ∈ l, range.start + range.size - 1 < r.start) →
        l.takeWhile (fun r => r.start < range.start) = [] := by
    intro l above
    cases l with
    | nil => rfl
    | cons r l =>
      have := above r List.mem_cons_self
      exact List.takeWhile_cons_of_neg (by simpa using by omega)
  cases found : naClDynamicRegionFindClosestLEQ regions (range.start + range.size - 1) with
  | none =>
    have above := naClDynamicRegionFindClosestLEQ_none inOrder.increasing found
    refine ⟨[], regions, rfl, ?_, fun r mem => (by cases mem), fun r mem => ?_⟩
    · rw [Option.getD_none, List.drop_zero, stays _ above]
      rfl
    · have := above r mem
      omega
  | some i =>
    obtain ⟨before, r, after, split, length, here, below, above⟩ :=
      closest_split inOrder.increasing found
    have member : r ∈ regions := split ▸ List.mem_append_right _ List.mem_cons_self
    have proper := inOrder.proper r member
    have pos := proper.nonempty
    have ends : r.start + r.size ≤ range.start := by
      rw [found, Option.any_some, here, Option.elim_some, proper.stop_eq, decide_eq_true_iff] at free
      omega
    refine ⟨before ++ [r], after, by rw [split, List.append_assoc]; rfl, ?_, ?_, fun x mem => ?_⟩
    · have rest : regions.drop i = r :: after := by rw [split, ← length, List.drop_left]
      rw [Option.getD_some, rest, List.takeWhile_cons_of_pos (by simpa using by omega),
        stays _ above, List.length_append, length]
    · have ordered := inOrder.ordered
      rw [split] at ordered
      intro x mem
      rcases List.mem_append.mp mem with front | last
      · have := (List.pairwise_append.mp ordered).2.2 x front r List.mem_cons_self
        omega
      · rw [List.mem_singleton.mp last]
        exact ends
    · have := above x mem
      omega

theorem naClDynamicRegionCreate_spec {t t' : Table} (inOrder : InOrder t.dynamicRegions)
    {reallocated isMmap ok : Bool} {range : Range}
    (run : naClDynamicRegionCreate reallocated range.start range.size isMmap t = some (ok, t')) :
    (ok = true ↔ ∀ r ∈ t.dynamicRegions, ¬ r.Meets range) ∧ InOrder t'.dynamicRegions ∧
      (ok = false → t'.dynamicRegions = t.dynamicRegions) ∧
      (ok = true → ∃ before after, t.dynamicRegions = before ++ after ∧
        t'.dynamicRegions = before ++ ⟨range.start, range.size, -1, isMmap⟩ :: after) := by
  obtain ⟨u, enlarged, outcome⟩ := Option.map_eq_some_iff.mp run
  rw [← enlarge_regions enlarged] at *
  have overlap := meets_iff_closest inOrder range
  dsimp only at outcome
  split at outcome
  · next inUse =>
    cases outcome
    have met := overlap.mpr inUse
    refine ⟨?_, inOrder, fun _ => rfl, nofun⟩
    simp only [Bool.false_eq_true, false_iff, not_forall, not_not]
    obtain ⟨r, mem, meets⟩ := met
    exact ⟨r, mem, meets⟩
  · next free =>
    cases outcome
    have apart : ∀ r ∈ u.dynamicRegions, ¬ r.Meets range := fun r mem meets =>
      free (overlap.mp ⟨r, mem, meets⟩)
    obtain ⟨before, after, split, length, below, above⟩ := insertionPoint inOrder free
    have taken : u.dynamicRegions.take before.length = before ∧
        u.dynamicRegions.drop before.length = after := by
      rw [split]
      exact ⟨List.take_left, List.drop_left⟩
    dsimp only
    rw [length, taken.1, taken.2]
    exact ⟨by simpa using apart, (split ▸ inOrder).insert ⟨range.nonempty, range.noWrap⟩ below above,
      nofun, fun _ => ⟨before, after, split, rfl⟩⟩

/-! ## Runs -/

inductive Call where
  | create (reallocated : Bool) (range : Range) (isMmap : Bool)
  | delete (reallocated : Bool) (r : Nat)

def Call.run (t : Table) : Call → Option Table
  | .create reallocated range isMmap =>
    (naClDynamicRegionCreate reallocated range.start range.size isMmap t).map Prod.snd
  | .delete reallocated r => naClDynamicRegionDelete reallocated r t

theorem naClDynamicRegionDelete_spec {reallocated : Bool} {r : Nat}
    (run : naClDynamicRegionDelete reallocated r t = some t') :
    r < t.dynamicRegions.length ∧ t'.dynamicRegions = t.dynamicRegions.eraseIdx r := by
  unfold naClDynamicRegionDelete at run
  dsimp only at run
  split_ifs at run with inside <;> cases run <;> exact ⟨inside, rfl⟩

theorem InOrder.delete (inOrder : InOrder regions) (r : Nat) : InOrder (regions.eraseIdx r) where
  proper := fun x mem => inOrder.proper x ((List.eraseIdx_sublist regions r).subset mem)
  ordered := inOrder.ordered.sublist (List.eraseIdx_sublist regions r)

theorem Call.run_inOrder (inOrder : InOrder t.dynamicRegions) {call : Call}
    (run : call.run t = some t') : InOrder t'.dynamicRegions := by
  cases call with
  | create reallocated range isMmap =>
    obtain ⟨⟨ok, u⟩, created, rfl⟩ := Option.map_eq_some_iff.mp run
    exact (naClDynamicRegionCreate_spec inOrder created).2.1
  | delete reallocated r =>
    rw [(naClDynamicRegionDelete_spec run).2]
    exact inOrder.delete r

theorem runCalls_inOrder {calls : List Call} (ran : calls.foldlM Call.run Table.empty = some t) :
    InOrder t.dynamicRegions := by
  have empty : InOrder Table.empty.dynamicRegions := ⟨fun r mem => (by cases mem), .nil⟩
  refine @foldlM_invariant _ _ _ (fun t => InOrder t.dynamicRegions) (fun _ _ => True) ?_ calls
    Table.empty t empty (fun _ _ _ _ _ => trivial) ran
  intro s call s' inOrder _ run
  exact Call.run_inOrder inOrder run

/-- In every table that calls make, the regions are in order, and creation and the lookups
    answer what a look at all regions would. -/
theorem dynamicRegions_table {calls : List Call} {t : Table}
    (ran : calls.foldlM Call.run Table.empty = some t) :
    InOrder t.dynamicRegions ∧
      (∀ reallocated range isMmap ok t', naClDynamicRegionCreate reallocated range.start
        range.size isMmap t = some (ok, t') →
          (ok = true ↔ ∀ r ∈ t.dynamicRegions, ¬ r.Meets range)) ∧
      (∀ ptr, (naClDynamicRegionFindClosestLEQ t.dynamicRegions ptr).bind (t.dynamicRegions[·]?) =
        (t.dynamicRegions.filter fun r => r.start ≤ ptr).argmax NaClDynamicRegion.start) ∧
      ∀ range : Range, (naClDynamicRegionFind t.dynamicRegions range.start range.size).isSome ↔
        ∃ r ∈ t.dynamicRegions, r.Meets range := by
  have inOrder := runCalls_inOrder ran
  exact ⟨inOrder, fun _ _ _ _ _ created => (naClDynamicRegionCreate_spec inOrder created).1,
    fun ptr => naClDynamicRegionFindClosestLEQ_eq inOrder.increasing,
    naClDynamicRegionFind_isSome inOrder⟩

/-- Two regions, created in the other order. -/
theorem dynamicRegions_table_two : InOrder [⟨0x20000, 32, -1, false⟩, ⟨0x20040, 64, -1, true⟩] := by
  have ran : [Call.create true ⟨0x20040, 64, by decide, by decide⟩ true,
      Call.create true ⟨0x20000, 32, by decide, by decide⟩ false].foldlM Call.run Table.empty =
      some ⟨[⟨0x20000, 32, -1, false⟩, ⟨0x20040, 64, -1, true⟩], 32⟩ := by rfl
  exact (dynamicRegions_table ran).1

end SandboxTEE.DynamicText
