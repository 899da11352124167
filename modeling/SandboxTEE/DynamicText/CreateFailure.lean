import SandboxTEE.DynamicText.Create

/-! # When creating dynamic code fails (`NaClTextDyncodeCreate`)

Validation comes before the region is created, so that nothing has to be deleted when it fails.
Mapping the text comes after it, and when that fails the region stays: the call returns `-ENOMEM`,
and no code can be created there any more (`naClTextDyncodeCreate_failsClean_iff`).
-/

namespace SandboxTEE.DynamicText

open SandboxTEE.Runtime

/-- A call that returns a negative number leaves the table of regions, the text and the bitmap
    as they are. -/
def Outcome.FailsClean (nap : NaClApp) (o : Outcome) : Prop :=
  ∀ retval, o.retval = some retval → retval < 0 →
    o.nap.regions.dynamicRegions = nap.regions.dynamicRegions ∧ o.copied = none ∧ o.bits = [] ∧
      o.nap.dynamicPageBitmap = nap.dynamicPageBitmap

/-- The pages of the range are neither the ones of the last mapping nor can they be mapped. -/
def Unmapped (env : Environment) (nap : NaClApp) (dest size : Nat) : Prop :=
  shmMapRange nap dest size ≠ (nap.dynamicMapcacheOffset, nap.dynamicMapcacheSize) ∧
    naClDescImcShmMap env.mapped (shmMapRange nap dest size).2 (shmMapRange nap dest size).1 = none

/-- The range is admitted and free, the table has room for it, and its pages cannot be mapped. -/
structure Leaks (env : Environment) (nap : NaClApp) (dest size : Nat) : Prop where
  admitted : Admitted env nap dest size
  room : enlarge env.reallocated nap.regions ≠ none
  free : ∀ r ∈ nap.regions.dynamicRegions,
    ¬ r.Meets (nap.sysRange dest size admitted.nonempty admitted.fits)
  unmapped : Unmapped env nap dest size

section Create

variable {env : Environment} {nap : NaClApp} {dest size : Nat}

theorem returns_failsClean (retval : Int) : (nap.returns retval).FailsClean nap :=
  fun _ _ _ => ⟨rfl, rfl, rfl, rfl⟩

@[simp] theorem clearMapcache_regions (nap : NaClApp) : nap.clearMapcache.regions = nap.regions := by
  unfold NaClApp.clearMapcache
  split <;> rfl

theorem mapWritableText_none_iff {offset size : Nat} :
    (mapWritableText env nap offset size).1 = .mapped none ↔
      naClDescImcShmMap env.mapped size offset = none := by
  rw [mapWritableText]
  cases naClDescImcShmMap env.mapped size offset with
  | none => simp
  | some mapping =>
    dsimp only
    split <;> simp

theorem cachedMapWritableText_none_iff (shared : nap.Shared) {offset size : Nat}
    (nonempty : 0 < size) : (cachedMapWritableText env nap offset size).1 = .mapped none ↔
      (offset, size) ≠ (nap.dynamicMapcacheOffset, nap.dynamicMapcacheSize) ∧
        naClDescImcShmMap env.mapped size offset = none := by
  have differs : (offset, size) ≠ (nap.dynamicMapcacheOffset, nap.dynamicMapcacheSize) ↔
      offset ≠ nap.dynamicMapcacheOffset ∨ size ≠ nap.dynamicMapcacheSize := by
    rw [ne_eq, Prod.mk.injEq, not_and_or]
  unfold cachedMapWritableText
  rw [differs, if_pos nonempty]
  split
  · next miss => rw [mapWritableText_none_iff, and_iff_right miss]
  · next hit =>
    -- what is cached has been mapped
    have here : size = nap.dynamicMapcacheSize := by
      rw [not_or, not_not, not_not] at hit
      exact hit.2
    obtain ⟨ret, cached⟩ := Option.isSome_iff_exists.mp (shared.cached (here ▸ nonempty)).1
    simp [cached, hit]

theorem cachedMapWritableText_sameRegions (offset size : Nat) :
    (cachedMapWritableText env nap offset size).2.2.regions = nap.regions := by
  unfold cachedMapWritableText mapWritableText
  split
  · split
    · cases naClDescImcShmMap env.mapped size offset with
      | none => exact clearMapcache_regions nap
      | some mapping =>
        dsimp only
        split <;> exact clearMapcache_regions nap
    · exact clearMapcache_regions nap
  · rfl

theorem createRegion_failsClean_iff (shared : nap.Shared) (admitted : Admitted env nap dest size) :
    (createRegion env nap (dest + nap.space.memStart) dest size).FailsClean nap ↔
      ¬ Leaks env nap dest size := by
  have addrBits : 2 ^ nap.space.addrBits ≤ 2 ^ 32 :=
    Nat.pow_le_pow_right (by decide) shared.addrBits
  obtain ⟨-, pos, -⟩ := shmMapRange_eq shared admitted.low (Nat.le_trans admitted.fits addrBits)
    admitted.nonempty
  cases created : naClDynamicRegionCreate env.reallocated (dest + nap.space.memStart) size false
    nap.regions with
  | none =>
    rw [createRegion_aborted created]
    -- without room the process is stopped
    have full : enlarge env.reallocated nap.regions = none := Option.map_eq_none_iff.mp created
    exact iff_of_true (fun retval returned => by cases returned) fun leaks => leaks.room full
  | some outcome =>
    obtain ⟨ok, regions⟩ := outcome
    have spec := @naClDynamicRegionCreate_spec _ _ shared.inOrder _ _ _
      (nap.sysRange dest size admitted.nonempty admitted.fits) created
    cases ok with
    | false =>
      rw [createRegion_inUse created]
      refine iff_of_true (fun retval _ _ => ⟨spec.2.2.1 rfl, rfl, rfl, rfl⟩) fun leaks => ?_
      exact Bool.false_ne_true (spec.1.mpr leaks.free)
    | true =>
      obtain ⟨before, after, old, new⟩ := spec.2.2.2 rfl
      have room : enlarge env.reallocated nap.regions ≠ none := fun full => by
        rw [naClDynamicRegionCreate, full] at created
        cases created
      have none_iff := @cachedMapWritableText_none_iff env _ (shared.withRegions spec.2.1)
        (shmMapRange nap dest size).1 (shmMapRange nap dest size).2 pos
      rw [createRegion_created created]
      have leaks_iff : Leaks env nap dest size ↔ (cachedMapWritableText env
          { nap with regions := regions } (shmMapRange nap dest size).1
          (shmMapRange nap dest size).2).1 = .mapped none := by
        rw [none_iff]
        exact ⟨fun leaks => leaks.unmapped, fun unmapped =>
          ⟨admitted, room, spec.1.mp rfl, unmapped⟩⟩
      have kept := @cachedMapWritableText_sameRegions env { nap with regions := regions }
        (shmMapRange nap dest size).1 (shmMapRange nap dest size).2
      rw [leaks_iff]
      generalize cachedMapWritableText env { nap with regions := regions }
        (shmMapRange nap dest size).1 (shmMapRange nap dest size).2 = result at kept
      obtain ⟨mapping, bits, nap'⟩ := result
      cases mapping with
      | aborted => exact iff_of_true (fun retval returned => by cases returned) (by simp)
      | mapped ret =>
        cases ret with
        | none =>
          -- the region stays in the table
          refine iff_of_false (fun clean => ?_) (by simp)
          have same := (clean _ rfl (by decide)).1
          change nap'.regions = regions at kept
          change nap'.regions.dynamicRegions = nap.regions.dynamicRegions at same
          rw [kept, new, old] at same
          have := congrArg List.length same
          simp only [List.length_append, List.length_cons] at this
          omega
        | some ret =>
          refine iff_of_true (fun retval returned negative => ?_) (by simp)
          rw [Outcome.ofMapping] at returned
          split at returned
          · cases returned
            exact absurd negative (by decide)
          · cases returned

/-- Whatever the code, the validator and the host are: a call that fails leaves the regions, the
    text and the bitmap as they are, unless its range is admitted and free and the table has room
    for it, but its pages cannot be mapped. -/
theorem naClTextDyncodeCreate_failsClean_iff (shared : nap.Shared) (env : Environment)
    (dest size : Nat) :
    (naClTextDyncodeCreate env nap dest size).FailsClean nap ↔ ¬ Leaks env nap dest size := by
  cases naClTextDyncodeCreate_cases env nap dest size with
  | inl refused =>
    obtain ⟨not_admitted, retval, same⟩ := refused
    rw [same]
    exact iff_of_true (returns_failsClean retval) fun leaks => not_admitted leaks.admitted
  | inr reached =>
    obtain ⟨admitted, same⟩ := reached
    rw [same]
    exact createRegion_failsClean_iff shared admitted

theorem naClTextDyncodeCreate_failsClean_iff_farText :
    (naClTextDyncodeCreate ⟨true, true, none, true⟩ farText 0x90000000 32).FailsClean farText ↔
      ¬ Leaks ⟨true, true, none, true⟩ farText 0x90000000 32 :=
  naClTextDyncodeCreate_failsClean_iff farText_shared ⟨true, true, none, true⟩ 0x90000000 32

/-- When the host does not map the text, the call fails and the region is registered; the same
    call is refused from then on, when the host maps again. -/
theorem naClTextDyncodeCreate_leaks :
    farText.Shared ∧
    (naClTextDyncodeCreate ⟨true, true, none, true⟩ farText 0x90000000 32).retval = some (-12) ∧
      (naClTextDyncodeCreate ⟨true, true, none, true⟩ farText 0x90000000 32).nap.regions.dynamicRegions =
        [⟨0x90000000, 32, -1, false⟩] ∧
      farText.regions.dynamicRegions = [] ∧
      (naClTextDyncodeCreate ⟨true, true, some 1, true⟩
        (naClTextDyncodeCreate ⟨true, true, none, true⟩ farText 0x90000000 32).nap
        0x90000000 32).retval = some (-22) := by
  refine ⟨farText_shared, ?_⟩
  decide +kernel

end Create

end SandboxTEE.DynamicText
