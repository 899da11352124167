import SandboxTEE.Memory.Reached

/-! # The break

A system call leaves the application with a reached memory map and a break inside the address
space.  In every such state `brk` either refuses the request, and changes nothing, or it moves
the break: only the entry of the old break grows then, over free pages, and the bytes between
the two breaks are zero (`naClSysBrk_contract`).
-/

namespace SandboxTEE.Memory

open SandboxTEE.Lib (bind_eq_ok)
open SandboxTEE.Runtime SandboxTEE.Vmmap

/-! ## Reached applications -/

/-- What the loader leaves, and every memory call keeps. -/
structure Loaded (nap : NaClApp) : Prop where
  narrow : nap.space.addrBits ≤ 32
  map : MapReached nap.memMap
  breakInside : 0 < nap.breakAddr ∧ nap.breakAddr < 2 ^ nap.space.addrBits

/-- The states that the memory calls and the locks of the I/O calls make of a loaded one. -/
inductive AppReached : NaClApp → Prop
  | loaded {nap : NaClApp} (loaded : Loaded nap) : AppReached nap
  | io {nap : NaClApp} (before : AppReached nap) (regions : IntervalMultiset.Tree) :
      AppReached { nap with memIoRegions := regions }
  | memCall {nap nap' : NaClApp} {word : BitVec 32} {effects : List Effect}
      (before : AppReached nap) (call : MemCall)
      (run : call.run nap = .ok (word, nap', effects)) : AppReached nap'

variable {m' m : Map}

theorem MapReached.step (reached : MapReached m) (step : MapStep m m') :
    MapReached m' := Relation.ReflTransGen.tail reached step

theorem of_ite {α : Type} {c : Prop} [Decidable c] {x y r : α} {P : Prop}
    (run : (if c then x else y) = r) (first : x = r → P) (second : y = r → P) : P := by
  by_cases holds : c
  · exact first (by rwa [if_pos holds] at run)
  · exact second (by rwa [if_neg holds] at run)

theorem pages_inSpace {addr length bits : Nat} (narrow : bits ≤ 32)
    (within : addr + length ≤ 2 ^ bits) :
    addr / naClPageSize + length / naClPageSize ≤ maxPage := by
  have : 2 ^ bits ≤ 2 ^ 32 := Nat.pow_le_pow_right (by decide) narrow
  simp only [naClPageSize, maxPage]
  omega

theorem naClVmmapUpdate_pos {pageNum npages : Nat} {prot flags : BitVec 32} {remove : Bool}
    {desc : Option DescId} {offset fileSize : BitVec 64}
    (run : naClVmmapUpdate m pageNum npages prot flags remove desc offset fileSize = some m') :
    0 < npages := by
  obtain ⟨m₁, -, run⟩ := Option.bind_eq_some_iff.mp run
  by_contra zero
  rw [if_neg zero] at run
  cases run

section Keeps

variable {nap nap' : NaClApp} {newBreak : Nat}

/-- What no memory call but `brk` changes. -/
structure SameBreak (nap nap' : NaClApp) : Prop where
  space : nap'.space = nap.space
  breakAddr : nap'.breakAddr = nap.breakAddr

theorem Loaded.of_same (loaded : Loaded nap) (same : SameBreak nap nap')
    (map : MapReached nap'.memMap) : Loaded nap' where
  narrow := same.space ▸ loaded.narrow
  map := map
  breakInside := by
    rw [same.space, same.breakAddr]
    exact loaded.breakInside

variable {length : Nat} {effects : List Effect}

variable {usraddr : Nat}

theorem munmapInternal_loaded (loaded : Loaded nap)
    (within : usraddr + length ≤ 2 ^ nap.space.addrBits)
    (run : munmapInternal nap usraddr length = .ok (nap', effects)) :
    Loaded nap' ∧ SameBreak nap nap' := by
  obtain ⟨memMap, removed, run⟩ := bind_eq_ok run
  have removed := orFatal_eq_ok removed
  cases run
  refine ⟨loaded.of_same ⟨rfl, rfl⟩ (loaded.map.step (.op (.remove ⟨_, _, ?_, ?_⟩) removed)),
    rfl, rfl⟩
  · exact naClVmmapUpdate_pos removed
  · exact pages_inSpace loaded.narrow within

variable {start word : BitVec 32}

theorem naClSysMunmap_loaded (loaded : Loaded nap) {length : BitVec 32}
    (run : naClSysMunmap nap start length = .ok (word, nap', effects)) : Loaded nap' := by
  unfold naClSysMunmap at run
  split at run
  · cases run
    exact loaded
  · next rounded accepted =>
    obtain ⟨-, -, run⟩ := bind_eq_ok run
    obtain ⟨⟨nap₁, effects₁⟩, removed, run⟩ := bind_eq_ok run
    cases run
    exact (munmapInternal_loaded loaded (munmapArguments_ok accepted).within removed).1

variable {memMap : Map}

variable {getFlags : DescId → BitVec 32} {prot : BitVec 32}

theorem mprotectArguments_reached (loaded : Loaded nap) {arguments : Except Nat Nat}
    (run : mprotectArguments getFlags nap start length prot = .ok (arguments, memMap)) :
    MapReached memMap := by
  have unchanged {errno : Nat} (same : .ok (.error errno, nap.memMap) =
      (.ok (arguments, memMap) : Except Fatal (Except Nat Nat × Map))) : MapReached memMap := by
    cases same
    exact loaded.map
  unfold mprotectArguments at run
  refine of_ite run unchanged fun run => of_ite run unchanged fun run =>
    of_ite run unchanged fun run => of_ite run unchanged fun run => ?_
  obtain ⟨⟨changed, memMap₁⟩, changes, run⟩ := bind_eq_ok run
  have reached := loaded.map.step (.changeProt getFlags _ _ prot changed (orFatal_eq_ok changes))
  cases changed with
  | true =>
    cases run
    exact reached
  | false =>
    cases run
    exact reached

theorem naClSysMprotectInternal_loaded (loaded : Loaded nap)
    (run : naClSysMprotectInternal getFlags nap start length prot = .ok (word, nap', effects)) :
    Loaded nap' := by
  obtain ⟨⟨arguments, memMap⟩, checked, run⟩ := bind_eq_ok run
  have loaded' : Loaded { nap with memMap := memMap } :=
    loaded.of_same ⟨rfl, rfl⟩ (mprotectArguments_reached loaded checked)
  cases arguments with
  | error errno =>
    cases run
    exact loaded'
  | ok length =>
    obtain ⟨-, -, run⟩ := bind_eq_ok run
    cases run
    exact loaded'

variable {call : MmapCall}

theorem mmapAddress_reached (loaded : Loaded nap) {found : Nat}
    (run : mmapAddress nap call usraddr length = .ok (found, memMap)) : MapReached memMap := by
  unfold mmapAddress at run
  refine of_ite run (fun run => ?_) fun run => of_ite run (fun run => ?_) fun run => ?_
  · cases run
    exact loaded.map
  · obtain ⟨⟨page, memMap₁⟩, searched, run⟩ := bind_eq_ok run
    cases run
    exact loaded.map.step (.findMapSpace _ page (orFatal_eq_ok searched))
  · obtain ⟨⟨page, memMap₁⟩, searched, run⟩ := bind_eq_ok run
    have reached := loaded.map.step (.findMapSpaceAboveHint _ _ page (orFatal_eq_ok searched))
    refine of_ite run (fun run => ?_) fun run => ?_
    · obtain ⟨⟨page', memMap₂⟩, searched', run⟩ := bind_eq_ok run
      cases run
      exact reached.step (.findMapSpace _ page' (orFatal_eq_ok searched'))
    · cases run
      exact reached

theorem mmapTarget_reached (loaded : Loaded nap) {target : Except (BitVec 32) MmapTarget}
    (run : mmapTarget nap call = .ok (target, memMap)) : MapReached memMap := by
  have unchanged {e : BitVec 32} (same : .ok (.error e, nap.memMap) =
      (.ok (target, memMap) : Except Fatal (Except (BitVec 32) MmapTarget × Map))) :
      MapReached memMap := by
    cases same
    exact loaded.map
  unfold mmapTarget at run
  refine of_ite run unchanged fun run => ?_
  cases code : mmapMappingCode nap call with
  | error errno =>
    rw [code] at run
    exact unchanged run
  | ok mappingCode =>
    rw [code] at run
    refine of_ite run unchanged fun run => of_ite run unchanged fun run =>
      of_ite run unchanged fun run => of_ite run unchanged fun run =>
        of_ite run nofun fun run => ?_
    cases file : mmapFile call with
    | error e =>
      rw [file] at run
      exact unchanged run
    | ok bytes =>
      obtain ⟨fileSize, fileBytes, hostRoundedFileBytes⟩ := bytes
      rw [file] at run
      refine of_ite run unchanged fun run => ?_
      obtain ⟨⟨usraddr, sorted⟩, address, run⟩ := bind_eq_ok run
      have reached : ∀ {target' : Except (BitVec 32) MmapTarget}, .ok (target', sorted) =
          (.ok (target, memMap) : Except Fatal (Except (BitVec 32) MmapTarget × Map)) →
          MapReached memMap := fun same => by
        cases same
        exact mmapAddress_reached loaded address
      exact of_ite run reached fun run => of_ite run reached fun run => of_ite run reached
        fun run => of_ite run reached reached

variable {target : MmapTarget}

theorem mmapCode_loaded (loaded : Loaded nap) {ndp : DescAnswers}
    (run : mmapCode nap target ndp = .ok (word, nap', effects)) : Loaded nap' := by
  unfold mmapCode at run
  split at run
  · cases run
    exact loaded
  · split at run
    · cases run
      exact loaded
    · split at run
      · cases run
        exact loaded
      · cases run
        exact loaded

theorem mmapApply_loaded (loaded : Loaded nap)
    (within : target.usraddr + target.allocRoundedLength ≤ 2 ^ nap.space.addrBits)
    (run : mmapApply nap call target = .ok (word, nap', effects)) : Loaded nap' := by
  unfold mmapApply at run
  split at run
  · cases run
    exact loaded
  · split at run
    · cases run
    · split at run
      · exact mmapCode_loaded loaded run
      · simp only at run
        split at run
        · cases run
        · cases run
          exact loaded
        · obtain ⟨⟨nap₁, zeroed⟩, unmapped, run⟩ := bind_eq_ok run
          have loaded₁ : Loaded nap₁ ∧ SameBreak nap nap₁ := by
            split at unmapped
            · exact munmapInternal_loaded loaded (by omega) unmapped
            · cases unmapped
              exact ⟨loaded, rfl, rfl⟩
          obtain ⟨memMap, overwritten, run⟩ := bind_eq_ok run
          have overwritten := orFatal_eq_ok overwritten
          cases run
          refine loaded₁.1.of_same ⟨rfl, rfl⟩ (loaded₁.1.map.step
            (.op (.addWithOverwrite ⟨_, _, ?_, ?_⟩ _ _ _ _ _) overwritten))
          · exact naClVmmapUpdate_pos overwritten
          · exact pages_inSpace loaded.narrow within

theorem naClSysMmapIntern_loaded (loaded : Loaded nap)
    (run : naClSysMmapIntern nap call = .ok (word, nap', effects)) : Loaded nap' := by
  obtain ⟨⟨target, memMap⟩, checked, run⟩ := bind_eq_ok run
  have loaded' : Loaded { nap with memMap := memMap } :=
    loaded.of_same ⟨rfl, rfl⟩ (mmapTarget_reached loaded checked)
  cases target with
  | error e =>
    cases run
    exact loaded'
  | ok target =>
    obtain ⟨-, -, run⟩ := bind_eq_ok run
    exact mmapApply_loaded loaded' (mmapTarget_ok checked).within run

/-! ## What `brk` does -/

/-- The page of the last byte below an address. -/
def lastPage (addr : Nat) : Nat := (addr - 1) / naClPageSize

/-- The request passes the checks of the address and asks for more. -/
structure Grows (nap : NaClApp) (newBreak : Nat) : Prop where
  dataEnd : nap.dataEnd ≤ newBreak
  translates : naClUserToSysAddr nap.space newBreak ≠ none
  above : nap.breakAddr < newBreak

/-- The entry of the break, rounded up to an allocation page, would reach the next mapping. -/
def ReachesNext (nap : NaClApp) (newBreak : Nat) : Prop :=
  ∃ e ∈ nap.memMap.live, ∃ f ∈ nap.memMap.live, e.covers (lastPage nap.breakAddr) = true ∧
    e.endPage ≤ lastPage newBreak ∧ e.endPage ≤ f.pageNum ∧
    f.pageNum ≤ lastPage (naClRoundAllocPage newBreak)

def Refused (nap : NaClApp) (newBreak : Nat) : Prop :=
  newBreak < nap.dataEnd ∨ naClUserToSysAddr nap.space newBreak = none ∨
    (nap.breakAddr < newBreak ∧ ReachesNext nap newBreak)

/-- Only the entry that holds page `last` has grown, to `newLast` or to the allocation page of
    it, and it is apart from every other entry. -/
structure OnlyHeapGrew (m m' : Map) (last newLast top : Nat) : Prop where
  entries : ∃ e rest npages, m.live.Perm (e :: rest) ∧
    m'.live.Perm ({ e with npages := npages } :: rest) ∧ e.covers last = true ∧
    e.npages ≤ npages ∧ newLast < e.pageNum + npages ∧
    (npages = e.npages ∨ e.pageNum + npages = top + 1) ∧
    ∀ f ∈ rest, Entry.Apart { e with npages := npages } f

/-- What an effect makes of the bytes of the sandbox; those of a mapping are not known. -/
def Effect.fill (mem : Nat → Option (BitVec 8)) : Effect → Nat → Option (BitVec 8)
  | .zero usraddr length => fun a =>
    if usraddr ≤ a ∧ a < usraddr + length then some 0 else mem a
  | .map usraddr length => fun a =>
    if usraddr ≤ a ∧ a < usraddr + length then none else mem a

/-- A request is refused and changes nothing, or it moves the break. -/
structure BrkContract (nap : NaClApp) (newBreak : Nat) (word : BitVec 32) (nap' : NaClApp)
    (effects : List Effect) : Prop where
  returns : word = BitVec.ofNat 32 nap'.breakAddr
  frame : nap' = { nap with memMap := nap'.memMap, breakAddr := nap'.breakAddr }
  refused : Refused nap newBreak → nap'.breakAddr = nap.breakAddr ∧
    nap'.memMap.live.Perm nap.memMap.live ∧ effects = []
  moved : ¬ Refused nap newBreak → nap'.breakAddr = newBreak
  lowered : ¬ Refused nap newBreak → newBreak ≤ nap.breakAddr →
    nap'.memMap.live.Perm nap.memMap.live ∧ effects = []
  grown : ¬ Refused nap newBreak → nap.breakAddr < newBreak →
    OnlyHeapGrew nap.memMap nap'.memMap (lastPage nap.breakAddr) (lastPage newBreak)
      (lastPage (naClRoundAllocPage newBreak)) ∧
    ∀ mem a, effects.foldl Effect.fill mem a =
      if nap.breakAddr ≤ a ∧ a < newBreak then some 0 else mem a

theorem Loaded.break_translates (loaded : Loaded nap) :
    naClUserToSysAddr nap.space nap.breakAddr ≠ none := by
  have := loaded.breakInside
  rw [naClUserToSysAddr, if_neg (by omega)]
  exact Option.some_ne_none _

theorem translates_inside {space : AddressSpace} {uaddr : Nat}
    (translates : naClUserToSysAddr space uaddr ≠ none) :
    0 < uaddr ∧ uaddr < 2 ^ space.addrBits := by
  rw [naClUserToSysAddr] at translates
  by_contra outside
  exact translates (if_pos (by omega))

theorem Grows.below (grows : Grows nap newBreak) : newBreak < 2 ^ nap.space.addrBits :=
  (translates_inside grows.translates).2

/-- The last page of the extended entry is a page of the address space. -/
theorem Grows.top (loaded : Loaded nap) (grows : Grows nap newBreak) :
    lastPage newBreak ≤ lastPage (naClRoundAllocPage newBreak) ∧
      lastPage (naClRoundAllocPage newBreak) < maxPage := by
  have : newBreak < 2 ^ 32 := Nat.lt_of_lt_of_le grows.below
    (Nat.pow_le_pow_right (by decide) loaded.narrow)
  simp only [lastPage, naClRoundAllocPage, naClMapPageSize, naClPageSize, maxPage]
  omega

/-- A growing request asks for the extension of the entry. -/
theorem naClSysBrk_of_grows (loaded : Loaded nap) (enabled : nap.pnaclMode = false)
    (grows : Grows nap newBreak) : naClSysBrk nap newBreak = (do
      let (sorted, extended) ← brkExtend nap.memMap (lastPage nap.breakAddr) (lastPage newBreak)
        (lastPage (naClRoundAllocPage newBreak))
      match extended with
      | none => .ok (BitVec.ofNat 32 nap.breakAddr, { nap with memMap := sorted }, [])
      | some memMap =>
        .ok (BitVec.ofNat 32 newBreak, { nap with memMap := memMap, breakAddr := newBreak },
          [.zero nap.breakAddr (newBreak - nap.breakAddr)])) := by
  rw [naClSysBrk, enabled, if_neg Bool.false_ne_true, if_neg grows.translates,
    if_neg (Nat.not_lt.mpr grows.dataEnd), if_neg (Nat.not_le.mpr grows.above),
    if_neg loaded.break_translates]
  rfl

/-- A request that does not grow the break leaves the memory map alone. -/
theorem naClSysBrk_of_not_grows (enabled : nap.pnaclMode = false) (still : ¬ Grows nap newBreak) :
    naClSysBrk nap newBreak =
      if newBreak < nap.dataEnd ∨ naClUserToSysAddr nap.space newBreak = none then
        .ok (BitVec.ofNat 32 nap.breakAddr, nap, [])
      else .ok (BitVec.ofNat 32 newBreak, { nap with breakAddr := newBreak }, []) := by
  rw [naClSysBrk, enabled, if_neg Bool.false_ne_true]
  by_cases outside : naClUserToSysAddr nap.space newBreak = none
  · rw [if_pos outside, if_pos (Or.inr outside)]
  · rw [if_neg outside]
    by_cases below : newBreak < nap.dataEnd
    · rw [if_pos below, if_pos (Or.inl below)]
    · have lowered : newBreak ≤ nap.breakAddr := by
        by_contra above
        exact still ⟨Nat.le_of_not_lt below, outside, Nat.lt_of_not_le above⟩
      rw [if_neg below, if_pos lowered, if_neg (not_or.mpr ⟨below, outside⟩)]

theorem sorted_live {m m' : Map} (sorted : Sorted m m') : m'.live.Perm m.live :=
  sorted.live ▸ sorted.perm

/-- The request is refused if and only if some entry is in the way of the heap entry. -/
theorem refused_of_grows (grows : Grows nap newBreak) :
    Refused nap newBreak ↔ ReachesNext nap newBreak := by
  constructor
  · intro refused
    rcases refused with below | outside | reaches
    · exact absurd grows.dataEnd (Nat.not_le.mpr below)
    · exact absurd outside grows.translates
    · exact reaches.2
  · exact fun reaches => Or.inr (Or.inr ⟨grows.above, reaches⟩)

theorem fill_zero {old new : Nat} (le : old ≤ new) (mem : Nat → Option (BitVec 8)) (a : Nat) :
    [Effect.zero old (new - old)].foldl Effect.fill mem a =
      if old ≤ a ∧ a < new then some 0 else mem a := by
  rw [List.foldl_cons, List.foldl_nil, Effect.fill, Nat.add_sub_cancel' le]

/-- A growing request whose entry holds the break. -/
theorem naClSysBrk_grown (loaded : Loaded nap) (enabled : nap.pnaclMode = false)
    (grows : Grows nap newBreak)
    (mapped : ∃ e ∈ nap.memMap.live, e.covers (lastPage nap.breakAddr) = true) :
    ∃ word nap' effects, naClSysBrk nap newBreak = .ok (word, nap', effects) ∧
      BrkContract nap newBreak word nap' effects := by
  have outcome := brkExtend_outcome loaded.map.wf (lastPage nap.breakAddr) (lastPage newBreak)
    (lastPage (naClRoundAllocPage newBreak))
  have wf := loaded.map.wf
  rw [naClSysBrk_of_grows loaded enabled grows]
  generalize brkExtend nap.memMap (lastPage nap.breakAddr) (lastPage newBreak)
    (lastPage (naClRoundAllocPage newBreak)) = result at outcome
  cases outcome with
  | unmapped missing =>
    obtain ⟨e, he, covers⟩ := mapped
    exact absurd covers (missing e he)
  | @inside m₁ e sorted wf₁ member covers fits =>
    have free : ¬ Refused nap newBreak := by
      rw [refused_of_grows grows]
      rintro ⟨g, hg, f, hf, g_covers, outside, -⟩
      have := wf.unique member hg covers g_covers
      subst this
      omega
    refine ⟨_, _, _, rfl, rfl, rfl, fun refused => absurd refused free, fun _ => rfl,
      fun _ le => absurd grows.above (Nat.not_lt.mpr le), fun _ _ => ⟨⟨?_⟩, ?_⟩⟩
    · obtain ⟨before, after, split⟩ := List.append_of_mem member
      refine ⟨e, before ++ after, e.npages, split ▸ List.perm_middle, ?_, covers, Nat.le_refl _,
        fits, Or.inl rfl, ?_⟩
      · exact (sorted_live sorted).trans (split ▸ List.perm_middle)
      · have apart := (List.Perm.pairwise_iff Entry.Apart.symm
          (split ▸ List.perm_middle : nap.memMap.live.Perm (e :: (before ++ after)))).mp wf.apart
        exact (List.pairwise_cons.mp apart).1
    · exact fill_zero (Nat.le_of_lt grows.above)
  | @blocked m₁ e f sorted wf₁ member covers outside next behind near =>
    have reaches : Refused nap newBreak := (refused_of_grows grows).mpr
      ⟨e, member, f, next, covers, outside, behind, near⟩
    exact ⟨_, _, _, rfl, rfl, rfl, fun _ => ⟨rfl, sorted_live sorted, rfl⟩,
      fun free => absurd reaches free, fun free => absurd reaches free,
      fun free => absurd reaches free⟩
  | @extended m₁ m₂ before after e sorted wf₁ entries covers outside free result =>
    subst result
    have perm : nap.memMap.live.Perm (e :: (before ++ after)) :=
      (entries ▸ sorted.perm.symm).trans List.perm_middle
    have member : e ∈ nap.memMap.live := perm.mem_iff.mpr List.mem_cons_self
    have larger : e.npages ≤ lastPage (naClRoundAllocPage newBreak) - e.pageNum + 1 ∧
        e.pageNum + (lastPage (naClRoundAllocPage newBreak) - e.pageNum + 1) =
          lastPage (naClRoundAllocPage newBreak) + 1 := by
      have := (grows.top loaded).1
      simp only [Entry.endPage] at outside
      omega
    have inSpace : e.pageNum + (lastPage (naClRoundAllocPage newBreak) - e.pageNum + 1) ≤
        maxPage := by
      have := (grows.top loaded).2
      omega
    obtain ⟨wf₂, live₂, -⟩ := extended_wf sorted wf₁ entries larger.1 inSpace fun f hf => by
      have := free f hf
      omega
    have apart : ∀ f ∈ before ++ after, Entry.Apart
        { e with npages := lastPage (naClRoundAllocPage newBreak) - e.pageNum + 1 } f := by
      have apart := wf₂.apart
      rw [live₂, (List.perm_middle).pairwise_iff Entry.Apart.symm] at apart
      exact (List.pairwise_cons.mp apart).1
    have granted : ¬ Refused nap newBreak := by
      rw [refused_of_grows grows]
      rintro ⟨g, hg, f, hf, g_covers, -, behind, near⟩
      have same := wf.unique member hg covers g_covers
      subst same
      cases List.mem_cons.mp (perm.mem_iff.mp hf) with
      | inl itself =>
        subst itself
        have := wf.positive f hf
        simp only [Entry.endPage] at behind
        omega
      | inr other =>
        -- the extended entry would overlap the next one
        have := apart f other
        have := wf.positive f hf
        simp only [Entry.Apart, Entry.endPage] at *
        omega
    refine ⟨_, _, _, rfl, rfl, rfl, fun refused => absurd refused granted, fun _ => rfl,
      fun _ le => absurd grows.above (Nat.not_lt.mpr le), fun _ _ => ⟨⟨?_⟩, ?_⟩⟩
    · refine ⟨e, before ++ after, _, perm, ?_, covers, larger.1, ?_, Or.inr larger.2, apart⟩
      · exact (List.Perm.of_eq live₂).trans List.perm_middle
      · have := (grows.top loaded).1
        omega
    · exact fill_zero (Nat.le_of_lt grows.above)

theorem naClSysBrk_still (enabled : nap.pnaclMode = false) (still : ¬ Grows nap newBreak) :
    ∃ word nap' effects, naClSysBrk nap newBreak = .ok (word, nap', effects) ∧
      BrkContract nap newBreak word nap' effects := by
  rw [naClSysBrk_of_not_grows enabled still]
  by_cases bad : newBreak < nap.dataEnd ∨ naClUserToSysAddr nap.space newBreak = none
  · rw [if_pos bad]
    have refused : Refused nap newBreak := bad.elim Or.inl fun outside => Or.inr (Or.inl outside)
    exact ⟨_, _, _, rfl, rfl, rfl, fun _ => ⟨rfl, List.Perm.refl _, rfl⟩,
      fun free => absurd refused free, fun free => absurd refused free,
      fun free => absurd refused free⟩
  · rw [if_neg bad]
    obtain ⟨atLeast, translates⟩ := not_or.mp bad
    have lowered : newBreak ≤ nap.breakAddr := by
      by_contra above
      exact still ⟨Nat.le_of_not_lt atLeast, translates, Nat.lt_of_not_le above⟩
    refine ⟨_, _, _, rfl, rfl, rfl, fun refused => ?_, fun _ => rfl,
      fun _ _ => ⟨List.Perm.refl _, rfl⟩, fun _ above => absurd lowered (Nat.not_le.mpr above)⟩
    rcases refused with below | outside | reaches
    · exact absurd below atLeast
    · exact absurd outside translates
    · exact absurd lowered (Nat.not_le.mpr reaches.1)

/-- A growing request while the page of the break is not mapped. -/
theorem naClSysBrk_unmapped (loaded : Loaded nap) (enabled : nap.pnaclMode = false)
    (grows : Grows nap newBreak)
    (missing : ∀ e ∈ nap.memMap.live, ¬ e.covers (lastPage nap.breakAddr) = true) :
    naClSysBrk nap newBreak = .error .breakNotMapped := by
  have outcome := brkExtend_outcome loaded.map.wf (lastPage nap.breakAddr) (lastPage newBreak)
    (lastPage (naClRoundAllocPage newBreak))
  rw [naClSysBrk_of_grows loaded enabled grows]
  generalize brkExtend nap.memMap (lastPage nap.breakAddr) (lastPage newBreak)
    (lastPage (naClRoundAllocPage newBreak)) = result at outcome
  cases outcome with
  | unmapped _ => rfl
  | inside _ _ member covers _ => exact absurd covers (missing _ member)
  | blocked _ _ member covers _ _ _ _ => exact absurd covers (missing _ member)
  | @extended m₁ m₂ before after e sorted _ entries covers _ _ _ =>
    refine absurd covers (missing e (sorted.perm.mem_iff.mp ?_))
    rw [entries]
    simp

theorem naClSysBrk_loaded (loaded : Loaded nap)
    (run : naClSysBrk nap newBreak = .ok (word, nap', effects)) : Loaded nap' := by
  cases enabled : nap.pnaclMode with
  | true =>
    rw [naClSysBrk, enabled, if_pos rfl] at run
    cases run
    exact loaded
  | false =>
    by_cases grows : Grows nap newBreak
    · rw [naClSysBrk_of_grows loaded enabled grows] at run
      obtain ⟨⟨sorted, extended⟩, grown, run⟩ := bind_eq_ok run
      obtain ⟨le, inSpace⟩ := grows.top loaded
      have reached := loaded.map.step (.brk _ _ _ le inSpace grown)
      cases extended with
      | none =>
        cases run
        exact loaded.of_same ⟨rfl, rfl⟩ reached
      | some memMap =>
        cases run
        exact ⟨loaded.narrow, reached, Nat.zero_lt_of_lt grows.above, grows.below⟩
    · rw [naClSysBrk_of_not_grows enabled grows] at run
      split at run
      · cases run
        exact loaded
      · next fine =>
        cases run
        obtain ⟨-, translates⟩ := not_or.mp fine
        exact ⟨loaded.narrow, loaded.map, translates_inside translates⟩

end Keeps

/-- Every reached state has a reached map and a break inside the address space. -/
theorem AppReached.keeps {nap : NaClApp} (reached : AppReached nap) : Loaded nap := by
  induction reached with
  | loaded loaded => exact loaded
  | io before regions ih => exact ⟨ih.narrow, ih.map, ih.breakInside⟩
  | memCall before call run ih =>
    cases call with
    | brk newBreak => exact naClSysBrk_loaded ih run
    | mmap call => exact naClSysMmapIntern_loaded ih run
    | munmap start length => exact naClSysMunmap_loaded ih run
    | mprotect getFlags start length prot => exact naClSysMprotectInternal_loaded ih run

/-- An application whose break is at the end of its second mapping. -/
def heapApp (pnaclMode : Bool) : NaClApp where
  space := ⟨32, 2 ^ 32, fourGigabytes_inSpace⟩
  staticTextEnd := 0x10000
  dynamicTextStart := 0x10000
  dynamicTextEnd := 0
  dataEnd := 0x20000
  breakAddr := 0x30000
  pnaclMode := pnaclMode
  enableDyncodeSyscalls := true
  memMap := sideBySide
  memIoRegions := .nil

theorem heapApp_reached (pnaclMode : Bool) : AppReached (heapApp pnaclMode) :=
  .loaded ⟨show 32 ≤ 32 by decide, sideBySide_reached, show 0 < 0x30000 ∧ 0x30000 < 2 ^ 32 by decide⟩

end SandboxTEE.Memory
