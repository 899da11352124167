import SandboxTEE.DebugStub.Target
import SandboxTEE.Lib.Run

/-! # Breakpoints do not show

With the saved bytes put back, the memory of a target is the memory of one without breakpoints
(`Target.original`).  Packets about breakpoints leave it alone, `m` reads it, and `M` writes it,
as long as every packet meets a condition (`Clean`).
-/

namespace SandboxTEE.DebugStub

open SandboxTEE.Lib
open SandboxTEE.Runtime

variable {nap : Nap} {os : Os} {t : Target} {orig : Nat → Char8}

namespace Target

/-- The byte saved for a user address. -/
def saved (t : Target) (addr : Nat) : Option Char8 :=
  (find addr t.breakpointMap).bind List.head?

/-- The memory with every saved byte put back. -/
def original (nap : Nap) (t : Target) : Nat → Char8 := fun p =>
  if nap.memStart ≤ p then (t.saved (p - nap.memStart)).getD (t.mem p) else t.mem p

structure WellFormed (nap : Nap) (t : Target) : Prop where
  sorted : SortedKeys t.breakpointMap
  each : ∀ addr data, find addr t.breakpointMap = some data →
    (∃ b, data = [b]) ∧ 0 < addr ∧ addr < 2 ^ nap.addrBits

namespace WellFormed

theorem one (wf : t.WellFormed nap) : ∀ bp ∈ t.breakpointMap, ∃ b, bp.2 = [b] :=
  fun bp member => (wf.each bp.1 bp.2 (find_eq_some_of_mem wf.sorted member)).1

theorem inside (wf : t.WellFormed nap) :
    ∀ bp ∈ t.breakpointMap, 0 < bp.1 ∧ bp.1 < 2 ^ nap.addrBits :=
  fun bp member => (wf.each bp.1 bp.2 (find_eq_some_of_mem wf.sorted member)).2

end WellFormed

end Target

theorem Nap.two_pow_addrBits_le (nap : Nap) : 2 ^ nap.addrBits ≤ 2 ^ 32 :=
  Nat.pow_le_pow_right (by decide) nap.addrBits_le

/-! ## Reading -/

section Erase

variable {userAddress k : Nat} {data : List Char8} {b : Char8}

/-- One breakpoint, where the range of the copy ends below 2^32. -/
theorem eraseBreakpoint_eq (noWrap : userAddress + data.length < 2 ^ 32) (small : k < 2 ^ 32) :
    Target.eraseBreakpoint userAddress ((userAddress + data.length) % 2 ^ 32) data (k, [b]) =
      if userAddress ≤ k then data.set (k - userAddress) b else data := by
  rw [Nat.mod_eq_of_lt noWrap]
  change (if max userAddress k < min (userAddress + data.length) ((k + 1) % 2 ^ 32) then
    writeAt Ch.nul data (max userAddress k - userAddress)
      (([b].drop (max userAddress k - k)).take
        (min (userAddress + data.length) ((k + 1) % 2 ^ 32) - max userAddress k)) else data) = _
  by_cases last : k + 1 = 2 ^ 32
  · -- the end of the last address of the space is zero
    rw [last, Nat.mod_self, Nat.min_zero, if_neg (Nat.not_lt_zero _), List.set_eq_of_length_le,
      ite_self]
    omega
  · rw [Nat.mod_eq_of_lt (by omega)]
    by_cases overlap : userAddress ≤ k ∧ k < userAddress + data.length
    · have start : max userAddress k = k := Nat.max_eq_right overlap.1
      have stop : min (userAddress + data.length) (k + 1) = k + 1 := Nat.min_eq_right overlap.2
      rw [start, stop, if_pos (Nat.lt_succ_self k), if_pos overlap.1, Nat.sub_self,
        Nat.add_sub_cancel_left]
      exact writeAt_singleton _ (by omega)
    · rw [if_neg (by omega)]
      split
      · rw [List.set_eq_of_length_le (by omega)]
      · rfl

theorem length_eraseBreakpoint (noWrap : userAddress + data.length < 2 ^ 32) (small : k < 2 ^ 32) :
    (Target.eraseBreakpoint userAddress ((userAddress + data.length) % 2 ^ 32) data
      (k, [b])).length = data.length := by
  rw [eraseBreakpoint_eq noWrap small]
  split
  · exact List.length_set
  · rfl

variable {i : Nat}

theorem getElem?_eraseBreakpoint (noWrap : userAddress + data.length < 2 ^ 32) (small : k < 2 ^ 32)
    (inside : i < data.length) :
    (Target.eraseBreakpoint userAddress ((userAddress + data.length) % 2 ^ 32) data (k, [b]))[i]? =
      if k = userAddress + i then some b else data[i]? := by
  rw [eraseBreakpoint_eq noWrap small]
  by_cases above : userAddress ≤ k
  · rw [if_pos above, List.getElem?_set]
    by_cases here : k = userAddress + i
    · rw [if_pos (by omega), if_pos here, if_pos (by omega)]
    · rw [if_neg (by omega), if_neg here]
  · rw [if_neg above, if_neg (by omega)]

variable {map : List (Nat × List Char8)}

/-- The loop, where the range of the copy ends below 2^32. -/
theorem getElem?_erase (sorted : SortedKeys map) (one : ∀ bp ∈ map, ∃ b, bp.2 = [b])
    (small : ∀ bp ∈ map, bp.1 < 2 ^ 32) (noWrap : userAddress + data.length < 2 ^ 32)
    (inside : i < data.length) :
    (map.foldl (Target.eraseBreakpoint userAddress ((userAddress + data.length) % 2 ^ 32))
      data)[i]? = ((find (userAddress + i) map).bind List.head?).or data[i]? := by
  induction map generalizing data with
  | nil => rfl
  | cons bp map ih =>
    obtain ⟨k, bytes⟩ := bp
    obtain ⟨b, rfl⟩ := one (k, bytes) (by simp)
    obtain ⟨above, sortedTail⟩ := SortedKeys.cons_iff.mp sorted
    have length := length_eraseBreakpoint (b := b) noWrap (small (k, [b]) (by simp))
    have rest := ih sortedTail
      (fun bp member => one bp (by simp [member])) (fun bp member => small bp (by simp [member]))
      (by rw [length]; exact noWrap) (by rw [length]; exact inside)
    rw [length] at rest
    rw [List.foldl_cons, rest, getElem?_eraseBreakpoint noWrap (small (k, [b]) (by simp)) inside,
      find_cons]
    by_cases here : k = userAddress + i
    · have absent : find (userAddress + i) map = none := find_eq_none_of_lt (here ▸ above)
      rw [if_pos here, if_pos here, absent]
      rfl
    · rw [if_neg here, if_neg here]

theorem length_erase {map : List (Nat × List Char8)} (one : ∀ bp ∈ map, ∃ b, bp.2 = [b])
    (small : ∀ bp ∈ map, bp.1 < 2 ^ 32) (noWrap : userAddress + data.length < 2 ^ 32) :
    (map.foldl (Target.eraseBreakpoint userAddress ((userAddress + data.length) % 2 ^ 32))
      data).length = data.length := by
  induction map generalizing data with
  | nil => rfl
  | cons bp map ih =>
    obtain ⟨k, bytes⟩ := bp
    obtain ⟨b, rfl⟩ := one (k, bytes) (by simp)
    have length := length_eraseBreakpoint (b := b) noWrap (small (k, [b]) (by simp))
    have rest := ih
      (fun bp member => one bp (by simp [member])) (fun bp member => small bp (by simp [member]))
      (by rw [length]; exact noWrap)
    rw [length] at rest
    rw [List.foldl_cons, rest]

/-- A breakpoint below the range is not looked at, wherever the range ends. -/
theorem eraseBreakpoint_of_lt {bp : Nat × List Char8} (below : bp.1 < userAddress) (userEnd : Nat) :
    Target.eraseBreakpoint userAddress userEnd data bp = data := by
  have stop : (bp.1 + breakpointCode.length) % 2 ^ 32 ≤ bp.1 + 1 := Nat.mod_le _ _
  rw [Target.eraseBreakpoint, if_neg]
  omega

theorem erase_of_lt (below : ∀ bp ∈ map, bp.1 < userAddress) (userEnd : Nat) :
    map.foldl (Target.eraseBreakpoint userAddress userEnd) data = data := by
  induction map with
  | nil => rfl
  | cons bp map ih =>
    rw [List.foldl_cons, eraseBreakpoint_of_lt (below bp (by simp)),
      ih fun bp member => below bp (by simp [member])]

end Erase

variable {len : Nat}

/-- The copy of a range shows the original bytes, unless the range reaches up to 2^32 and has a
    breakpoint in it. -/
theorem erase_original (wf : t.WellFormed nap) {addr : Nat} (fits : addr + len ≤ 2 ^ 32)
    (clear : addr + len < 2 ^ 32 ∨ ∀ bp ∈ t.breakpointMap, bp.1 < addr) :
    t.eraseBreakpointsFromCopyOfMemory (addr % 2 ^ 32) (bytesAt t.mem (addr + nap.memStart) len) =
      bytesAt (t.original nap) (addr + nap.memStart) len := by
  have back : ∀ i, addr + nap.memStart + i - nap.memStart = addr + i := by omega
  have original : ∀ i, t.original nap (addr + nap.memStart + i) =
      (t.saved (addr + i)).getD (t.mem (addr + nap.memStart + i)) := fun i => by
    rw [Target.original, if_pos (by omega), back]
  have inSpace : ∀ bp ∈ t.breakpointMap, bp.1 < 2 ^ 32 := fun bp member =>
    (wf.inside bp member).2.trans_le nap.two_pow_addrBits_le
  rw [Target.eraseBreakpointsFromCopyOfMemory]
  cases clear with
  | inl noWrap =>
    rw [Nat.mod_eq_of_lt (show addr < 2 ^ 32 by omega)]
    refine List.ext_getElem? fun i => ?_
    by_cases inside : i < len
    · rw [getElem?_erase wf.sorted wf.one inSpace (by simpa using noWrap) (by simpa using inside),
        getElem?_bytesAt, getElem?_bytesAt, if_pos inside, if_pos inside, original, Target.saved]
      cases (find (addr + i) t.breakpointMap).bind List.head? <;> rfl
    · rw [List.getElem?_eq_none, List.getElem?_eq_none]
      · simpa using inside
      · rw [length_erase wf.one inSpace (by simpa using noWrap), length_bytesAt]
        omega
  | inr below =>
    have unsaved : ∀ i, t.saved (addr + i) = none := fun i => by
      rw [Target.saved, find_eq_none_of_forall fun bp member => ?_, Option.bind_none]
      have := below bp member
      omega
    have same : bytesAt t.mem (addr + nap.memStart) len =
        bytesAt (t.original nap) (addr + nap.memStart) len :=
      bytesAt_congr fun i _ => by rw [original, unsaved, Option.getD_none]
    rw [← same]
    by_cases small : addr < 2 ^ 32
    · rw [Nat.mod_eq_of_lt small]
      exact erase_of_lt below _
    · -- nothing is read at 2^32
      have nothing : len = 0 := by omega
      rw [nothing, show addr % 2 ^ 32 = 0 by omega]
      have kept := @length_erase 0 [] _ wf.one inSpace (by decide)
      exact List.eq_nil_of_length_eq_zero kept

/-! ## Writing -/

/-- Something is copied into the module. -/
def Os.Stores (nap : Nap) (os : Os) (virt len : Nat) : Prop :=
  0 < len ∧ len ≤ kPipeBufferBound ∧ (isCode nap virt len = true → os.protect = true) ∧
    ∃ got, os.stored = some got ∧ 0 < got

/-- A copy that is begun is finished, and the protection of the code comes back. -/
def Os.Atomic (nap : Nap) (os : Os) (virt len : Nat) : Prop :=
  os.Stores nap virt len → (∀ got, os.stored = some got → len ≤ got) ∧
    (isCode nap virt len = true → os.restore = true)

/-- How many bytes of a copy reach the module. -/
def Os.count (nap : Nap) (os : Os) (virt len : Nat) : Nat :=
  if isCode nap virt len = true ∧ os.protect = false ∨ kPipeBufferBound < len then 0
  else os.stored.getD 0

def Os.succeeds (nap : Nap) (os : Os) (virt len : Nat) : Bool :=
  !(isCode nap virt len && (!os.protect || !os.restore)) && decide (len ≤ kPipeBufferBound) &&
    os.stored.any (decide <| len ≤ ·)

theorem setMemory_eq (mem : Nat → Char8) (virt : Nat) (src : List Char8) :
    setMemory nap os mem virt src = (os.succeeds nap virt src.length,
      store mem virt (src.take (os.count nap virt src.length))) := by
  rw [setMemory, safeMemoryStore, Os.succeeds, Os.count]
  by_cases long : kPipeBufferBound < src.length
  · simp [long]
  · cases os.stored <;> cases os.protect <;> cases os.restore <;>
      cases isCode nap virt src.length <;> simp [long] <;> omega

variable {virt : Nat}

theorem Os.succeeds_iff : os.succeeds nap virt len = true ↔
    (isCode nap virt len = true → os.protect = true ∧ os.restore = true) ∧
      len ≤ kPipeBufferBound ∧ ∃ got, os.stored = some got ∧ len ≤ got := by
  rw [succeeds]
  cases os.stored <;> cases os.protect <;> cases os.restore <;> cases isCode nap virt len <;> simp

theorem Os.count_of_stored {got : Nat} (code : isCode nap virt len = true → os.protect = true)
    (short : len ≤ kPipeBufferBound) (stored : os.stored = some got) :
    os.count nap virt len = got := by
  rw [count, if_neg, stored, Option.getD_some]
  intro either
  cases either with
  | inl unprotected => simp [code unprotected.1] at unprotected
  | inr long => omega

theorem Os.stores_of_count (some : len ≠ 0) (count : os.count nap virt len ≠ 0) :
    os.Stores nap virt len := by
  rw [Os.count] at count
  split at count
  · exact absurd rfl count
  · next allowed =>
    rw [not_or, not_and, Bool.not_eq_false] at allowed
    cases stored : os.stored with
    | none => simp [stored] at count
    | some got =>
      rw [stored, Option.getD_some] at count
      exact ⟨Nat.pos_of_ne_zero some, not_lt.mp allowed.2, allowed.1, got, stored,
        Nat.pos_of_ne_zero count⟩

/-- A copy that fails changes nothing, and one that succeeds is complete. -/
theorem setMemory_cases {virt : Nat} {src : List Char8} (atomic : os.Atomic nap virt src.length)
    (mem : Nat → Char8) :
    os.succeeds nap virt src.length = false ∧ setMemory nap os mem virt src = (false, mem) ∨
      os.succeeds nap virt src.length = true ∧
        setMemory nap os mem virt src = (true, store mem virt src) := by
  rw [setMemory_eq]
  cases succeeds : os.succeeds nap virt src.length with
  | true =>
    obtain ⟨code, short, got, stored, long⟩ := Os.succeeds_iff.mp succeeds
    rw [Os.count_of_stored (fun inside => (code inside).1) short stored,
      List.take_of_length_le long]
    exact .inr ⟨rfl, rfl⟩
  | false =>
    refine .inl ⟨rfl, ?_⟩
    have nothing : src.take (os.count nap virt src.length) = [] := by
      rw [List.take_eq_nil_iff]
      by_contra begun
      rw [not_or] at begun
      have stores : os.Stores nap virt src.length :=
        Os.stores_of_count (mt List.eq_nil_of_length_eq_zero begun.2) begun.1
      obtain ⟨complete, restored⟩ := atomic stores
      obtain ⟨-, short, code, got, stored, -⟩ := stores
      have finished : os.succeeds nap virt src.length = true := Os.succeeds_iff.mpr
        ⟨fun inside => ⟨code inside, restored inside⟩, short, got, stored, complete got stored⟩
      rw [finished] at succeeds
      cases succeeds
    rw [nothing, store_nil]

/-! ## The original memory -/

/-- A target without breakpoints. -/
def Target.plain (mem : Nat → Char8) : Target := ⟨mem, [], 0⟩

/-- A target that behaves as one without breakpoints over `orig`. -/
structure Shows (nap : Nap) (orig : Nat → Char8) (t : Target) : Prop where
  wellFormed : t.WellFormed nap
  original : t.original nap = orig

namespace Target

variable {p : Nat}

theorem original_of_unsaved (unsaved : ∀ bp ∈ t.breakpointMap, bp.1 + nap.memStart ≠ p) :
    t.original nap p = t.mem p := by
  rw [original]
  split
  · rw [saved, find_eq_none_of_forall fun bp member same => unsaved bp member (by omega)]
    rfl
  · rfl

theorem original_of_no_breakpoints (none : t.breakpointMap = []) : t.original nap = t.mem := by
  funext p
  exact original_of_unsaved (by simp [none])

theorem original_of_below (below : p < nap.memStart) : t.original nap p = t.mem p := by
  rw [original, if_neg (by omega)]

theorem original_at (addr : Nat) :
    t.original nap (addr + nap.memStart) = (t.saved addr).getD (t.mem (addr + nap.memStart)) := by
  rw [original, if_pos (by omega), Nat.add_sub_cancel]

theorem original_store {addr : Nat} {bs : List Char8}
    (apart : ∀ bp ∈ t.breakpointMap, bp.1 < addr ∨ addr + bs.length ≤ bp.1) :
    original nap { t with mem := store t.mem (addr + nap.memStart) bs } =
      store (t.original nap) (addr + nap.memStart) bs := by
  funext p
  by_cases below : p < nap.memStart
  · rw [original_of_below below, store_congr (original_of_below below)]
  · obtain ⟨a, rfl⟩ := Nat.exists_eq_add_of_le' (not_lt.mp below)
    rw [original_at]
    cases found : find a t.breakpointMap with
    | none =>
      have unsaved : t.saved a = none := by rw [saved, found, Option.bind_none]
      have old := @original_at nap t a
      rw [unsaved] at old
      rw [store_congr old]
      exact congrArg (Option.getD · _) unsaved
    | some data =>
      have outside := apart (a, data) (mem_of_find_eq_some found)
      dsimp only at outside
      rw [store_of_outside (by omega), original_at]
      exact congrArg (t.saved a).getD (store_of_outside (by omega))

end Target

/-! ### Setting and removing -/

section Change

variable {addr : Nat} {data : List Char8}

/-- A change of one byte and of its saved byte only. -/
theorem shows_of_change (shows : Shows nap orig t) {t' : Target} {b : Char8}
    (mem : t'.mem = store t.mem (addr + nap.memStart) [b])
    (other : ∀ a, a ≠ addr → find a t'.breakpointMap = find a t.breakpointMap)
    (sorted : SortedKeys t'.breakpointMap) (here : ∀ data, find addr t'.breakpointMap = some data →
      (∃ b, data = [b]) ∧ 0 < addr ∧ addr < 2 ^ nap.addrBits)
    (same : (t'.saved addr).getD b = (t.saved addr).getD (t.mem (addr + nap.memStart))) :
    Shows nap orig t' := by
  refine ⟨⟨sorted, fun a data found => ?_⟩, ?_⟩
  · by_cases changed : a = addr
    · subst changed
      exact here data found
    · rw [other a changed] at found
      exact shows.wellFormed.each a data found
  · rw [← shows.original]
    funext p
    by_cases below : p < nap.memStart
    · rw [Target.original_of_below below, Target.original_of_below below, mem,
        store_of_outside (by omega)]
    · obtain ⟨a, rfl⟩ := Nat.exists_eq_add_of_le' (not_lt.mp below)
      rw [Target.original_at, Target.original_at, mem, store_singleton]
      by_cases changed : a = addr
      · rw [if_pos (by rw [changed]), changed, same]
      · rw [if_neg (by omega), Target.saved, Target.saved, other a changed]

theorem shows_insert (shows : Shows nap orig t) (range : 0 < addr ∧ addr < 2 ^ nap.addrBits)
    (absent : find addr t.breakpointMap = none) :
    Shows nap orig { t with
      mem := store t.mem (addr + nap.memStart) breakpointCode
      breakpointMap := insertWith (fun _ new => new) addr
        (bytesAt t.mem (addr + nap.memStart) 1) t.breakpointMap } := by
  have found := @find_insertWith _ _ _ (fun _ new => new) addr
    (bytesAt t.mem (addr + nap.memStart) 1) _ shows.wellFormed.sorted
  refine shows_of_change shows rfl (fun a other => ?_) shows.wellFormed.sorted.insertWith
    (fun data here => ?_) ?_
  · rw [found, if_neg other]
  · rw [found, if_pos rfl, absent] at here
    cases here
    exact ⟨⟨_, rfl⟩, range⟩
  · rw [Target.saved, Target.saved, found, if_pos rfl, absent]
    rfl

theorem shows_remove (shows : Shows nap orig t) (present : find addr t.breakpointMap = some data) :
    Shows nap orig { t with
      mem := store t.mem (addr + nap.memStart) data
      breakpointMap := updateAt (fun _ => none) addr t.breakpointMap } := by
  have found := find_updateAt (f := fun _ => none) (k := addr) shows.wellFormed.sorted
  obtain ⟨⟨b, rfl⟩, -⟩ := shows.wellFormed.each addr data present
  have gone : find addr (updateAt (fun _ => none) addr t.breakpointMap) = none := by
    rw [found, if_pos rfl, present, Option.bind_some]
  refine shows_of_change shows rfl (fun a other => ?_) shows.wellFormed.sorted.updateAt
    (fun data here => ?_) ?_
  · rw [found, if_neg other]
  · rw [gone] at here
    cases here
  · rw [Target.saved, Target.saved, gone, present]
    rfl

/-- `AddBreakpoint` gets as far as to write. -/
structure Inserts (nap : Nap) (os : Os) (t : Target) (addr : Nat) : Prop where
  boundary : t.isOnValidInstBoundary nap os addr = true
  absent : find addr t.breakpointMap = none
  range : 0 < addr ∧ addr < 2 ^ nap.addrBits
  text : (addr + 1) % 2 ^ 32 ≤ nap.dynamicTextEnd
  readable : os.readable (addr + nap.memStart) 1 = true

theorem getMemory_some {mem : Nat → Char8} {virt len : Nat}
    (read : getMemory os mem virt len = some data) :
    os.readable virt len = true ∧ data = bytesAt mem virt len := by
  rw [getMemory] at read
  split at read
  · cases read
  · split at read
    · next readable =>
      cases read
      exact ⟨readable, rfl⟩
    · cases read

theorem addBreakpoint_cases (nap : Nap) (os : Os) (t : Target) (addr : Nat) :
    t.addBreakpoint nap os addr = (false, t) ∨ Inserts nap os t addr ∧ t.addBreakpoint nap os addr =
        let out := setMemory nap os t.mem (addr + nap.memStart) breakpointCode
        if out.1 = false then (false, { t with mem := out.2 })
        else (true, { t with
          mem := out.2
          breakpointMap := insertWith (fun _ new => new) addr
            (bytesAt t.mem (addr + nap.memStart) 1) t.breakpointMap }) := by
  rw [Target.addBreakpoint]
  split
  · exact .inl rfl
  · next boundary =>
    split
    · exact .inl rfl
    · next absent =>
      split
      · exact .inl rfl
      · next sysaddr range =>
        split
        · exact .inl rfl
        · next text =>
          split
          · exact .inl rfl
          · next data read =>
            obtain ⟨nonzero, fits, rfl⟩ := naClUserToSysAddrRange_some range
            obtain ⟨readable, rfl⟩ := getMemory_some read
            exact .inr ⟨⟨by simpa using boundary, by simpa using absent, ⟨Nat.pos_of_ne_zero nonzero, fits⟩,
              not_lt.mp text, readable⟩, rfl⟩

/-- Setting a breakpoint does not show, and does nothing when it fails. -/
theorem addBreakpoint_shows (shows : Shows nap orig t)
    (atomic : Inserts nap os t addr → os.Atomic nap (addr + nap.memStart) 1) :
    t.addBreakpoint nap os addr = (false, t) ∨
      ∃ t', t.addBreakpoint nap os addr = (true, t') ∧ Shows nap orig t' ∧
        t'.initialBreakpointAddr = t.initialBreakpointAddr := by
  cases addBreakpoint_cases nap os t addr with
  | inl refused => exact .inl refused
  | inr reached =>
    obtain ⟨inserts, added⟩ := reached
    rw [added]
    cases @setMemory_cases _ _ _ breakpointCode (atomic inserts) t.mem with
    | inl failed =>
      rw [failed.2]
      exact .inl rfl
    | inr written =>
      rw [written.2]
      exact .inr ⟨_, rfl, shows_insert shows inserts.range inserts.absent, rfl⟩

theorem removeBreakpoint_shows (shows : Shows nap orig t)
    (atomic : (find addr t.breakpointMap).isSome → os.Atomic nap (addr + nap.memStart) 1) :
    t.removeBreakpoint nap os addr = some (false, t) ∨
      ∃ t', t.removeBreakpoint nap os addr = some (true, t') ∧ Shows nap orig t' ∧
        t'.initialBreakpointAddr = t.initialBreakpointAddr := by
  rw [Target.removeBreakpoint]
  split
  · exact .inl rfl
  · next data present =>
    obtain ⟨⟨b, single⟩, pos, inside⟩ := shows.wellFormed.each addr data present
    have translated : naClUserToSysAddr nap.toAddressSpace addr = some (addr + nap.memStart) := by
      rw [naClUserToSysAddr, if_neg (by omega)]
    have whole : os.Atomic nap (addr + nap.memStart) data.length := by
      rw [single]
      exact atomic (by rw [present]; rfl)
    rw [translated]
    cases setMemory_cases whole t.mem with
    | inl failed => exact .inl (by simp [failed.2])
    | inr written => exact .inr ⟨_, by simp [written.2], shows_remove shows present, rfl⟩

end Change

end SandboxTEE.DebugStub
