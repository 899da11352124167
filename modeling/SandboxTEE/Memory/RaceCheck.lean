import SandboxTEE.Memory.IoCalls

/-! # What a memory call asks the race detector

A memory call asks about at most one interval, and ends in the race abort exactly when
the tree of pending I/O ranges says that the interval is in use.
-/

namespace SandboxTEE.Memory

open SandboxTEE.Lib SandboxTEE.Runtime SandboxTEE.Vmmap
open SandboxTEE.IntervalMultiset

/-! ## What a memory call asks -/

/-- The call does not end in the race abort, and leaves the I/O ranges and the address
    space as they are. -/
structure Quiet (nap : NaClApp) (result : CallResult) : Prop where
  noRace : result ≠ .error .memWriteRace
  frame : ∀ r nap' effects, result = .ok (r, nap', effects) →
    nap'.memIoRegions = nap.memIoRegions ∧ nap'.space = nap.space

variable {nap : NaClApp}

variable {nap' : NaClApp}

theorem Quiet.ok {r : BitVec 32} {effects : List Effect}
    (regions : nap'.memIoRegions = nap.memIoRegions) (space : nap'.space = nap.space) :
    Quiet nap (.ok (r, nap', effects)) where
  noRace := by simp
  frame := by
    intro _ _ _ same
    cases same
    exact ⟨regions, space⟩

theorem Quiet.error {failure : Fatal} (other : failure ≠ .memWriteRace) :
    Quiet nap (.error failure) where
  noRace := fun same => other (Except.error.inj same)
  frame := by intro _ _ _ same; cases same

theorem Quiet.fail (errno : Nat) (regions : nap'.memIoRegions = nap.memIoRegions)
    (space : nap'.space = nap.space) : Quiet nap (Memory.fail nap' errno) := Quiet.ok regions space

variable {α : Type}

theorem Quiet.bind {x : Except Fatal α} {f : α → CallResult} (noRace : x ≠ .error .memWriteRace)
    (rest : ∀ a, x = .ok a → Quiet nap (f a)) : Quiet nap (x >>= f) := by
  cases x with
  | error failure => exact Quiet.error fun same => noRace (congrArg Except.error same)
  | ok a => exact rest a rfl

theorem orFatal_noRace (result : Option α) : orFatal result ≠ .error .memWriteRace := by
  cases result <;> simp [orFatal]

/-- The outcome of a check that is followed by quiet steps. -/
theorem pendingCheck_bind_race {first last : Nat} {nap' : NaClApp} {rest : Unit → CallResult}
    (regions : nap'.memIoRegions = nap.memIoRegions) (quiet : Quiet nap (rest ())) :
    ((naClVmIoPendingCheckMu nap' first last >>= rest) = .error .memWriteRace ↔
      naClIntervalRangeTreeOverlapsWith nap.memIoRegions first last = true) ∧
    ∀ r nap'' effects, (naClVmIoPendingCheckMu nap' first last >>= rest) = .ok (r, nap'', effects) →
      nap''.memIoRegions = nap.memIoRegions ∧ nap''.space = nap.space := by
  rw [naClVmIoPendingCheckMu, regions]
  by_cases overlaps : naClIntervalRangeTreeOverlapsWith nap.memIoRegions first last = true
  · rw [if_pos overlaps]
    refine ⟨iff_of_true rfl overlaps, fun _ _ _ same => ?_⟩
    cases same
  · rw [if_neg overlaps]
    exact ⟨iff_of_false quiet.noRace overlaps, quiet.frame⟩

theorem munmapInternal_noRace (usraddr length : Nat) :
    munmapInternal nap usraddr length ≠ .error .memWriteRace := by
  rw [munmapInternal]
  cases naClVmmapRemove nap.memMap (usraddr / naClPageSize) (length / naClPageSize) <;>
    simp [orFatal, bind, Except.bind]

theorem munmapInternal_frame {usraddr length : Nat} {effects : List Effect}
    (run : munmapInternal nap usraddr length = .ok (nap', effects)) :
    nap'.memIoRegions = nap.memIoRegions ∧ nap'.space = nap.space := by
  rw [munmapInternal] at run
  cases removed : naClVmmapRemove nap.memMap (usraddr / naClPageSize) (length / naClPageSize) with
  | none => simp [removed, orFatal, bind, Except.bind] at run
  | some memMap =>
    simp only [removed, orFatal, bind, Except.bind, Except.ok.injEq, Prod.mk.injEq] at run
    exact ⟨run.1 ▸ rfl, run.1 ▸ rfl⟩

theorem mmapCode_quiet (target : MmapTarget) (ndp : DescAnswers)
    (regions : nap'.memIoRegions = nap.memIoRegions) (space : nap'.space = nap.space) :
    Quiet nap (mmapCode nap' target ndp) := by
  rw [mmapCode]
  split
  · exact Quiet.fail _ regions space
  · split
    · exact Quiet.ok regions space
    · split
      · exact Quiet.fail _ regions space
      · exact Quiet.ok regions space

theorem mmapApply_quiet (call : MmapCall) (target : MmapTarget)
    (regions : nap'.memIoRegions = nap.memIoRegions) (space : nap'.space = nap.space) :
    Quiet nap (mmapApply nap' call target) := by
  unfold mmapApply
  split
  · exact Quiet.fail _ regions space
  · split
    · exact Quiet.error (by simp)
    · split
      · exact mmapCode_quiet target _ regions space
      · simp only
        split
        · exact Quiet.error (by simp)
        · exact Quiet.ok regions space
        · refine Quiet.bind ?_ fun unmapped result => ?_
          · split
            · exact munmapInternal_noRace _ _
            · simp
          · have kept : unmapped.1.memIoRegions = nap'.memIoRegions ∧
                unmapped.1.space = nap'.space := by
              split at result
              · exact munmapInternal_frame result
              · cases result
                exact ⟨rfl, rfl⟩
            exact Quiet.bind (orFatal_noRace _) fun memMap _ =>
              Quiet.ok (kept.1.trans regions) (kept.2.trans space)

/-- The interval that a memory call asks the detector about, when it gets that far. -/
def MemCall.checked (nap : NaClApp) : MemCall → Option (Nat × Nat)
  | .brk _ => none
  | .mmap call =>
    match mmapTarget nap call with
    | .ok (.ok target, _) =>
      some (target.usraddr % 2 ^ 32, lastByte target.usraddr target.length)
    | _ => none
  | .munmap start length =>
    match munmapArguments nap start length with
    | .ok length => some (start.toNat, lastByte start.toNat length)
    | .error _ => none
  | .mprotect getFlags start length prot =>
    match mprotectArguments getFlags nap start length.toNat prot with
    | .ok (.ok length, _) => some (start.toNat, lastByte start.toNat length)
    | _ => none

/-- The call asks nothing, or its outcome depends on the answer as it should. -/
structure Asks (nap : NaClApp) (result : CallResult) (checked : Option (Nat × Nat)) : Prop where
  race_iff : result = .error .memWriteRace ↔ ∃ first last, checked = some (first, last) ∧
    naClIntervalRangeTreeOverlapsWith nap.memIoRegions first last = true
  frame : ∀ r nap' effects, result = .ok (r, nap', effects) →
    nap'.memIoRegions = nap.memIoRegions ∧ nap'.space = nap.space

theorem Quiet.asks {result : CallResult} (quiet : Quiet nap result) : Asks nap result none where
  race_iff := iff_of_false quiet.noRace (by simp)
  frame := quiet.frame

theorem asks_of_check {first last : Nat} {rest : Unit → CallResult}
    (regions : nap'.memIoRegions = nap.memIoRegions) (quiet : Quiet nap (rest ())) :
    Asks nap (naClVmIoPendingCheckMu nap' first last >>= rest) (some (first, last)) := by
  obtain ⟨race, frame⟩ := @pendingCheck_bind_race nap first last nap' rest regions quiet
  refine ⟨race.trans ⟨fun overlaps => ⟨first, last, rfl, overlaps⟩, ?_⟩, frame⟩
  intro ⟨_, _, same, overlaps⟩
  cases same
  exact overlaps

theorem brkExtend_noRace (memMap : Map) (old new last : Nat) :
    brkExtend memMap old new last ≠ .error .memWriteRace := by
  rw [brkExtend]
  cases naClVmmapFindPageIter memMap old with
  | none => simp [orFatal, bind, Except.bind]
  | some found =>
    simp only [orFatal, bind, Except.bind]
    split
    · simp
    · split
      · simp
      · split <;> simp

theorem naClSysBrk_quiet (nap : NaClApp) (newBreak : Nat) : Quiet nap (naClSysBrk nap newBreak) := by
  unfold naClSysBrk
  split
  · exact Quiet.fail _ rfl rfl
  · split
    · exact Quiet.ok rfl rfl
    · split
      · exact Quiet.ok rfl rfl
      · split
        · exact Quiet.ok rfl rfl
        · split
          · exact Quiet.error (by simp)
          · refine Quiet.bind (brkExtend_noRace _ _ _ _) fun found _ => ?_
            obtain ⟨sorted, extended⟩ := found
            cases extended with
            | none => exact Quiet.ok rfl rfl
            | some memMap => exact Quiet.ok rfl rfl

theorem mmapAddress_noRace (call : MmapCall) (usraddr length : Nat) :
    mmapAddress nap call usraddr length ≠ .error .memWriteRace := by
  rw [mmapAddress]
  split
  · simp
  · simp only
    split
    · cases naClVmmapFindMapSpace nap.memMap (length / naClPageSize) <;>
        simp [orFatal, bind, Except.bind]
    · cases naClVmmapFindMapSpaceAboveHint nap.memMap usraddr (length / naClPageSize) with
      | none => simp [orFatal, bind, Except.bind]
      | some found =>
        simp only [orFatal, bind, Except.bind]
        split
        · cases naClVmmapFindMapSpace found.2 (length / naClPageSize) <;> simp
        · simp

theorem ite_avoids {c : Prop} [Decidable c] {x y bad : α} (first : x ≠ bad) (second : y ≠ bad) :
    (if c then x else y) ≠ bad := by
  by_cases holds : c
  · rwa [if_pos holds]
  · rwa [if_neg holds]

theorem mmapTarget_noRace (call : MmapCall) : mmapTarget nap call ≠ .error .memWriteRace := by
  unfold mmapTarget
  refine ite_avoids nofun ?_
  cases mmapMappingCode nap call with
  | error errno => nofun
  | ok mappingCode =>
    refine ite_avoids nofun (ite_avoids nofun (ite_avoids nofun (ite_avoids nofun
      (ite_avoids nofun ?_))))
    cases mmapFile call with
    | error e => nofun
    | ok file =>
      obtain ⟨fileSize, fileBytes, hostRoundedFileBytes⟩ := file
      refine ite_avoids nofun ?_
      cases found : mmapAddress nap call (naClTruncAllocPage call.start)
          (naClRoundAllocPage call.length) with
      | error failure =>
        intro race
        simp only [bind, Except.bind, Except.error.injEq] at race
        exact mmapAddress_noRace call _ _ (found.trans (congrArg _ race))
      | ok pair =>
        exact ite_avoids nofun (ite_avoids nofun (ite_avoids nofun (ite_avoids nofun nofun)))

theorem mprotectArguments_noRace (getFlags : DescId → BitVec 32) (start prot : BitVec 32)
    (length : Nat) : mprotectArguments getFlags nap start length prot ≠ .error .memWriteRace := by
  unfold mprotectArguments
  split
  · simp
  · simp only
    split
    · simp
    · split
      · simp
      · split
        · simp
        · cases naClVmmapChangeProt getFlags nap.memMap (start.toNat / naClPageSize)
              (naClRoundAllocPage length / naClPageSize) prot with
          | none => simp [orFatal, bind, Except.bind]
          | some found =>
            simp only [orFatal, bind, Except.bind]
            split <;> simp

/-- Every memory call ends in the race abort exactly when the detector says that the
    interval it asks about is in use. -/
theorem memCall_asks (nap : NaClApp) (call : MemCall) :
    Asks nap (call.run nap) (call.checked nap) := by
  cases call with
  | brk newBreak => exact (naClSysBrk_quiet nap _).asks
  | munmap start length =>
    simp only [MemCall.run, MemCall.checked, naClSysMunmap]
    cases munmapArguments nap start length with
    | error errno => exact (Quiet.fail errno rfl rfl).asks
    | ok rounded =>
      refine asks_of_check rfl (Quiet.bind (munmapInternal_noRace _ _) fun unmapped result => ?_)
      obtain ⟨regions, space⟩ := munmapInternal_frame result
      exact Quiet.ok regions space
  | mprotect getFlags start length prot =>
    simp only [MemCall.run, MemCall.checked, naClSysMprotectInternal]
    have noRace : mprotectArguments getFlags nap start length.toNat prot ≠
      .error .memWriteRace := mprotectArguments_noRace _ _ _ _
    cases arguments : mprotectArguments getFlags nap start length.toNat prot with
    | error failure =>
      exact (Quiet.error fun same => noRace (arguments.trans (congrArg _ same))).asks
    | ok found =>
      obtain ⟨outcome, memMap⟩ := found
      cases outcome with
      | error errno =>
        have quiet : Quiet nap (fail { nap with memMap := memMap } errno) :=
          Quiet.fail errno rfl rfl
        exact quiet.asks
      | ok rounded =>
        have quiet : Quiet nap (.ok (0, { nap with memMap := memMap }, [])) := Quiet.ok rfl rfl
        exact asks_of_check rfl quiet
  | mmap call =>
    simp only [MemCall.run, MemCall.checked, naClSysMmapIntern]
    have noRace : mmapTarget nap call ≠ .error .memWriteRace := mmapTarget_noRace call
    cases found : mmapTarget nap call with
    | error failure =>
      exact (Quiet.error fun same => noRace (found.trans (congrArg _ same))).asks
    | ok pair =>
      obtain ⟨outcome, memMap⟩ := pair
      cases outcome with
      | error e =>
        have quiet : Quiet nap (.ok (e, { nap with memMap := memMap }, [])) := Quiet.ok rfl rfl
        exact quiet.asks
      | ok target =>
        have quiet : Quiet nap (mmapApply { nap with memMap := memMap } call target) :=
          mmapApply_quiet call target rfl rfl
        exact asks_of_check rfl quiet

end SandboxTEE.Memory
