import SandboxTEE.Validator.Acceptance

/-! # Runs that report each instruction

With `CALL_USER_CALLBACK_ON_EACH_INSTRUCTION`, what is reported of a chunk whose bundles the DFA accepts
does not depend on the callback (`chunkReports`), and the result is what the callback says of these
reports in turn (`approved`).  They cover the chunk (`chunkReports_cover`).
-/

namespace SandboxTEE.Validator

/-- What the callback says of some reports, the last one first. -/
def approved (userCallback : Callback) : List Report → Bool
  | [] => true
  | r :: earlier => approved userCallback earlier && userCallback earlier r

/-- `ValidateChunkAMD64` with the reports it has made. -/
def validateChunkReports (userCallback : Callback) (dfa : Dfa) (allocated : Bool)
    (code : Nat → BitVec 8) (size : Nat) (options : Options) : Option (Bool × List Report) :=
  if size % kBundleSize ≠ 0 then none
  else if ¬ size + 1 ≤ naclHostWordsize ∧ allocated = false then some (false, [])
  else
    let s : State :=
      ⟨bitmapAllocate (size + 1), bitmapAllocate (size + 1), true, [], 0, 0, ncNoReg⟩
    let endPosition :=
      if options &&& processChunkAsAContiguousStream ≠ 0 then size else kBundleSize
    let s := bundleLoop userCallback code size options dfa size 0 endPosition s
    let s := processInvalidJumpTargets userCallback size s
    some (s.result, s.reports)

theorem validateChunkReports_fst (userCallback : Callback) (dfa : Dfa) (allocated : Bool)
    (code : Nat → BitVec 8) (size : Nat) (options : Options) :
    (validateChunkReports userCallback dfa allocated code size options).map Prod.fst =
      validateChunkAMD64 userCallback dfa allocated code size options := by
  unfold validateChunkReports validateChunkAMD64
  split_ifs <;> rfl

/-- The instructions of a chunk as they are reported, in order. -/
def chunkReports (dfa : Dfa) (code : Nat → BitVec 8) (size : Nat) : List Report :=
  (List.range (size / kBundleSize)).flatMap fun c =>
    (bundleDescriptions dfa code c).map (Description.report size)

section Run

variable {userCallback : Callback} {size : Nat} {options : Options} {dfa : Dfa}
  {code : Nat → BitVec 8}

/-- The result is what the callback has said so far. -/
def State.Judged (userCallback : Callback) (s : State) : Prop :=
  s.result = approved userCallback s.reports

theorem State.Judged.report {s : State} (judged : s.Judged userCallback) (r : Report) :
    (s.report userCallback r).Judged userCallback := by
  simp only [Judged, State.report, approved]
  rw [judged]

theorem foldl_apply_each (each : options &&& callUserCallbackOnEachInstruction ≠ 0)
    (ds : List Description) {s : State} (judged : s.Judged userCallback) :
    (ds.foldl (State.apply userCallback size options) s).Judged userCallback ∧
      (ds.foldl (State.apply userCallback size options) s).reports =
        (ds.map (Description.report size)).reverse ++ s.reports := by
  induction ds generalizing s with
  | nil => exact ⟨judged, rfl⟩
  | cons d ds ih =>
    have applied : (s.apply userCallback size options d).result =
          (s.report userCallback (d.report size)).result ∧
        (s.apply userCallback size options d).reports = d.report size :: s.reports := by
      unfold State.apply
      rw [if_pos (Or.inr each)]
      exact ⟨rfl, rfl⟩
    have judged' : (s.apply userCallback size options d).Judged userCallback := by
      unfold State.Judged
      rw [applied.1, applied.2]
      exact judged.report _
    obtain ⟨rest, reports⟩ := ih judged'
    refine ⟨rest, ?_⟩
    rw [List.foldl_cons, reports, applied.2, List.map_cons, List.reverse_cons, List.append_assoc]
    rfl

theorem runBundle_each (fresh : extractRestrictedRegisterInitialValue options = ncNoReg)
    (each : options &&& callUserCallbackOnEachInstruction ≠ 0) {Fine : Description → Prop} {c : Nat}
    (inOrder : BundleInOrder Fine dfa code c) {s : State} (judged : s.Judged userCallback) :
    let t := runBundle userCallback code size options dfa (c * kBundleSize)
      (c * kBundleSize + kBundleSize) s
    t.Judged userCallback ∧ t.reports =
      ((bundleDescriptions dfa code c).map (Description.report size)).reverse ++ s.reports := by
  have restricted := foldl_apply_restrictedRegister userCallback size options
    (bundleDescriptions dfa code c) (s.enter (c * kBundleSize))
  have entered : (s.enter (c * kBundleSize)).Judged userCallback := judged
  rw [runBundle_accept fresh inOrder.parsed, checkEndOfBundle,
    if_neg (by rw [restricted]; exact inOrder.rbp),
    if_neg (by rw [restricted]; exact inOrder.rsp)]
  exact foldl_apply_each each _ entered

/-- In a chunk whose bundles are in order, whatever the callback. -/
theorem bundlesState_each (fresh : extractRestrictedRegisterInitialValue options = ncNoReg)
    (each : options &&& callUserCallbackOnEachInstruction ≠ 0) {Fine : Description → Prop}
    (inOrder : ∀ c < size / kBundleSize, BundleInOrder Fine dfa code c) :
    let s := bundlesState userCallback size options dfa code
    s.Judged userCallback ∧ s.reports = (chunkReports dfa code size).reverse := by
  have upTo : ∀ n ≤ size / kBundleSize, ∀ s, s = (List.range n).foldl (fun s c =>
        runBundle userCallback code size options dfa (c * kBundleSize) (c * kBundleSize + kBundleSize) s)
        (initialState size) → s.Judged userCallback ∧ s.reports =
          ((List.range n).flatMap fun c =>
            (bundleDescriptions dfa code c).map (Description.report size)).reverse := by
    intro n hn
    induction n with
    | zero =>
      rintro s rfl
      exact ⟨rfl, rfl⟩
    | succ n ih =>
      rintro s rfl
      obtain ⟨judged, reports⟩ := ih (Nat.le_of_lt hn) _ rfl
      obtain ⟨judged', reports'⟩ := @runBundle_each userCallback size options dfa code fresh each Fine n
        (inOrder n hn) _ judged
      rw [List.range_succ, List.foldl_append]
      refine ⟨judged', reports'.trans ?_⟩
      rw [reports, List.flatMap_append, List.reverse_append, List.flatMap_singleton]
  exact upTo _ (Nat.le_refl _) _ rfl

/-- In a chunk whose bundles are in order, with direct jumps to valid targets only, any callback gets
    the instructions reported in turn, and the result is what it says of them. -/
theorem validateChunkReports_inOrder (fresh : extractRestrictedRegisterInitialValue options = ncNoReg)
    (each : options &&& callUserCallbackOnEachInstruction ≠ 0)
    (bundles : options &&& processChunkAsAContiguousStream = 0) {Fine : Description → Prop}
    (multiple : kBundleSize ∣ size)
    (passed : ∀ c < size / kBundleSize, BundleInOrder Fine dfa code c ∧
      ∀ d ∈ bundleDescriptions dfa code c, ∀ target ∈ d.jumps, ¬ kBundleSize ∣ target →
        target < size → ValidTarget dfa code target) {allocated : Bool}
    (memory : size + 1 ≤ naclHostWordsize ∨ allocated = true) :
    validateChunkReports userCallback dfa allocated code size options =
      some (approved userCallback (chunkReports dfa code size).reverse,
        (chunkReports dfa code size).reverse) := by
  obtain ⟨judged, reports⟩ := @bundlesState_each userCallback size options dfa code fresh each _
    fun c hc => (passed c hc).1
  have ran := @bundlesState_ran userCallback size options dfa code fresh
    fun c hc => (passed c hc).1.parsed
  have loop := @chunkState_eq userCallback size options dfa code bundles multiple
  have clean : processInvalidJumpTargets userCallback size
      (bundlesState userCallback size options dfa code) =
        bundlesState userCallback size options dfa code := by
    apply processInvalidJumpTargets_clean
    intro k recorded
    obtain ⟨inside, unaligned, c, hc, d, mem, found⟩ := (ran.jumps k).mp recorded
    exact (ran.valid k unaligned).mpr ⟨Nat.div_lt_div_of_lt_of_dvd multiple inside,
      (passed c hc).2 d mem k found unaligned inside⟩
  rw [← loop] at clean judged reports
  rw [← reports, ← show _ = _ from judged]
  unfold validateChunkReports
  rw [if_neg (not_not.mpr (Nat.mod_eq_zero_of_dvd multiple)),
    if_neg (by rintro ⟨large, failed⟩; simp [large, failed] at memory)]
  change some ((processInvalidJumpTargets userCallback size
    (chunkState userCallback size options dfa code)).result, (processInvalidJumpTargets userCallback size
      (chunkState userCallback size options dfa code)).reports) = _
  rw [clean]

/-- Once some callback has accepted a chunk in this mode, any callback gets its instructions reported
    in turn, and the result is what it says of them. -/
theorem validateChunkReports_each {p : Callback} (breaks : RejectsBreaks p)
    (fresh : extractRestrictedRegisterInitialValue options = ncNoReg)
    (each : options &&& callUserCallbackOnEachInstruction ≠ 0)
    (bundles : options &&& processChunkAsAContiguousStream = 0) {allocated allocated' : Bool}
    (accepted : validateChunkAMD64 p dfa allocated code size options = some true)
    (memory : size + 1 ≤ naclHostWordsize ∨ allocated' = true) :
    validateChunkReports userCallback dfa allocated' code size options =
      some (approved userCallback (chunkReports dfa code size).reverse,
        (chunkReports dfa code size).reverse) := by
  obtain ⟨multiple, passed⟩ := validateChunkAMD64_passed breaks fresh bundles accepted
  exact validateChunkReports_inOrder fresh each bundles multiple passed memory

/-- A callback that accepts a chunk in this mode accepts each of its instructions. -/
theorem validateChunkAMD64_approved (breaks : RejectsBreaks userCallback)
    (fresh : extractRestrictedRegisterInitialValue options = ncNoReg)
    (each : options &&& callUserCallbackOnEachInstruction ≠ 0)
    (bundles : options &&& processChunkAsAContiguousStream = 0) {allocated : Bool}
    (accepted : validateChunkAMD64 userCallback dfa allocated code size options = some true) :
    approved userCallback (chunkReports dfa code size).reverse = true := by
  have run := accepted
  rw [← validateChunkReports_fst] at run
  by_cases memory : size + 1 ≤ naclHostWordsize ∨ allocated = true
  · rw [validateChunkReports_each breaks fresh each bundles accepted memory] at run
    exact Option.some.inj run
  · rw [not_or, Bool.not_eq_true] at memory
    unfold validateChunkReports at run
    rw [if_pos memory] at run
    split at run <;> cases run

theorem approved_forall {reports : List Report} (ok : approved userCallback reports = true) :
    ∀ r ∈ reports, ∃ earlier, userCallback earlier r = true := by
  induction reports with
  | nil => simp
  | cons r earlier ih =>
    obtain ⟨before, here⟩ := Bool.and_eq_true_iff.mp ok
    exact List.forall_mem_cons.mpr ⟨⟨earlier, here⟩, ih before⟩

end Run

/-! ## The reports cover the chunk -/

section Cover

variable {dfa : Dfa} {code : Nat → BitVec 8} {size : Nat}

theorem Step.describe_start_le (b : Nat) (restricted : OperandName) (step : Step) :
    (step.describe code b restricted).start ≤ b := by
  unfold Step.describe
  cases step.merge with
  | none => exact Nat.le_refl _
  | some merge =>
    dsimp only
    split
    · exact Nat.sub_le ..
    · exact Nat.le_refl _

theorem describeSteps_cover {b : Nat} {restricted : OperandName} {l : List Step} {i : Nat}
    (first : b ≤ i) (last : i < b + totalLength (l.map Step.instruction)) :
    ∃ d ∈ describeSteps code b restricted l, d.start ≤ i ∧ i < d.stop := by
  induction l generalizing b restricted with
  | nil =>
    simp only [List.map_nil, totalLength, List.sum_nil] at last
    omega
  | cons step l ih =>
    rw [List.map_cons, totalLength_cons] at last
    by_cases here : i < b + step.instruction.length
    · refine ⟨_, List.mem_cons_self, Nat.le_trans (Step.describe_start_le b restricted step) first, ?_⟩
      rwa [Step.describe_stop]
    · obtain ⟨d, mem, found⟩ := @ih (step.describe code b restricted).stop
        (step.describe code b restricted).restricted (by rw [Step.describe_stop]; omega)
        (by rw [Step.describe_stop]; omega)
      exact ⟨d, List.mem_cons_of_mem _ mem, found⟩

theorem mem_chunkReports {r : Report} : r ∈ chunkReports dfa code size ↔
    ∃ c < size / kBundleSize, ∃ d ∈ bundleDescriptions dfa code c, d.report size = r := by
  simp only [chunkReports, List.mem_flatMap, List.mem_range, List.mem_map]

theorem chunkReports_cover (parsed : ∀ c < size / kBundleSize,
      (dfa code (c * kBundleSize) (c * kBundleSize + kBundleSize)).Accepts)
    (multiple : kBundleSize ∣ size) {i : Nat} (inside : i < size) :
    ∃ r ∈ chunkReports dfa code size, r.instructionBegin ≤ i ∧ i < r.instructionEnd := by
  have hc : i / kBundleSize < size / kBundleSize := Nat.div_lt_div_of_lt_of_dvd multiple inside
  have whole := bundlePieces_totalLength dfa code (parsed _ hc)
  have low : i / kBundleSize * kBundleSize ≤ i := Nat.div_mul_le_self ..
  have high : i < i / kBundleSize * kBundleSize + kBundleSize := by
    simp only [kBundleSize]
    omega
  obtain ⟨d, mem, found⟩ := @describeSteps_cover code _ ncNoReg _ _ low
    (by rw [whole]; exact high)
  exact ⟨d.report size, mem_chunkReports.mpr ⟨_, hc, d, mem, rfl⟩, found⟩

theorem chunkReports_inside {r : Report} (mem : r ∈ chunkReports dfa code size) :
    r.instructionEnd ≤ size := by
  obtain ⟨c, hc, d, described, rfl⟩ := mem_chunkReports.mp mem
  have inside := (bundleDescriptions_inside dfa code described).last
  have bundle : c * kBundleSize + kBundleSize ≤ size := by
    rw [← Nat.succ_mul]
    exact (Nat.le_div_iff_mul_le (by decide)).mp hc
  exact Nat.le_trans inside bundle

end Cover

end SandboxTEE.Validator
