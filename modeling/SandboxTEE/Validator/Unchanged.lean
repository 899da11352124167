import SandboxTEE.Validator.Acceptance
import SandboxTEE.Validator.Rewriting

/-! # Runs that change nothing

The callbacks record in `did_rewrite` that they have changed the text
(`TextCallback.Honest`).  A run at whose end it is not set has never changed the text, and
is a run of the validator on a fixed text (`validateText_unchanged`).
-/

namespace SandboxTEE.Validator

/-- A callback that has changed the text has set `did_rewrite`, and never clears it. -/
def TextCallback.Honest (callback : TextCallback) : Prop :=
  ∀ text r, (callback text r).2.didRewrite = false → (callback text r).2 = text

/-- The callback on a fixed text, where setting `did_rewrite` counts as rejecting. -/
def unchangedCallback (callback : TextCallback) (text : Text) : Callback := fun _ r =>
  (callback text r).1 && !(callback text r).2.didRewrite

theorem replay_nil (callback : TextCallback) (text : Text) : replay callback text [] = text := rfl

section Replay

variable {callback : TextCallback} (honest : callback.Honest) {text : Text}

include honest

theorem replay_eq {reports : List Report}
    (unset : (replay callback text reports).didRewrite = false) :
    replay callback text reports = text := by
  induction reports with
  | nil => rfl
  | cons r earlier ih =>
    have same := honest _ r unset
    rw [replay, same] at unset ⊢
    exact ih unset

/-- What holds at the end of a run has held throughout. -/
theorem replay_suffix {reports reports' : List Report} (suffix : reports <:+ reports')
    (unset : (replay callback text reports').didRewrite = false) :
    (replay callback text reports).didRewrite = false := by
  obtain ⟨later, rfl⟩ := suffix
  induction later with
  | nil => exact unset
  | cons r later ih =>
    have same := honest (replay callback text (later ++ reports)) r unset
    rw [List.cons_append, replay, same] at unset
    exact ih unset

theorem asCallback_eq {earlier : List Report} {r : Report}
    (unset : (replay callback text (r :: earlier)).didRewrite = false) :
    asCallback callback text earlier r = unchangedCallback callback text earlier r := by
  have before := replay_eq honest (replay_suffix honest (List.suffix_cons r earlier) unset)
  rw [replay, before] at unset
  rw [asCallback, unchangedCallback, before, unset, Bool.not_false, Bool.and_true]

end Replay

/-! ## Reports of a run -/

section Reports

variable (userCallback userCallback' : Callback) (code : Nat → BitVec 8) (size : Nat)
  (options : Options)

/-- What `userCallback` reports from `s` on, `userCallback'` judges alike. -/
def AgreeFrom (s t : State) : Prop :=
  ∀ r, r :: s.reports <:+ t.reports → userCallback s.reports r = userCallback' s.reports r

/-- An instruction up to its end. -/
def stepBody (s : State) (step : Step) : State :=
  let instructionEnd := s.instructionBegin + step.instruction.length
  let s := runActions code size instructionEnd step.instruction.actions s
  step.merge.elim s fun (kind, sandboxInstructionsSize) =>
    mergeSuperinstruction code kind sandboxInstructionsSize (instructionEnd - 1) s

theorem stepBody_reports (s : State) (step : Step) :
    (stepBody code size s step).reports = s.reports := by
  simp only [stepBody, runActions_eq]
  cases step.merge with
  | none => rfl
  | some merge =>
    obtain ⟨kind, n⟩ := merge
    cases kind with
    | memoryAccess => rfl
    | callOrJmpAddToRM =>
      simp only [Option.elim_some, mergeSuperinstruction]
      split <;> rfl
    | callOrJmpAddToReg =>
      simp only [Option.elim_some, mergeSuperinstruction]
      split <;> rfl

theorem endOfInstructionCleanup_suffix (e : Nat) (s : State) :
    s.reports <:+ (endOfInstructionCleanup userCallback options e s).reports := by
  unfold endOfInstructionCleanup
  dsimp only
  split
  · exact List.suffix_cons ..
  · exact List.suffix_refl _

theorem runStep_suffix (s : State) (step : Step) :
    s.reports <:+ (runStep userCallback code size options s step).reports := by
  have body := endOfInstructionCleanup_suffix userCallback options
    (s.instructionBegin + step.instruction.length) (stepBody code size s step)
  rw [stepBody_reports] at body
  exact body

variable {userCallback userCallback'}

variable (userCallback') in
theorem runStep_congr {s t : State} {step : Step}
    (later : (runStep userCallback code size options s step).reports <:+ t.reports)
    (agree : AgreeFrom userCallback userCallback' s t) :
    runStep userCallback code size options s step =
      runStep userCallback' code size options s step := by
  have unfolded : ∀ u : Callback, runStep u code size options s step =
      endOfInstructionCleanup u options (s.instructionBegin + step.instruction.length)
        (stepBody code size s step) := fun _ => rfl
  rw [unfolded] at later
  rw [unfolded, unfolded]
  have reports := stepBody_reports code size s step
  generalize stepBody code size s step = b at later reports ⊢
  unfold AgreeFrom at agree
  rw [← reports] at agree
  unfold endOfInstructionCleanup at later ⊢
  dsimp only at later ⊢
  split
  · next reported =>
    rw [if_pos reported] at later
    rw [State.report, State.report, agree _ later]
  · rfl

theorem finishBundle_suffix (userCallback : Callback) (stop : Nat) {n : Nat} (parse : Parse n)
    (s : State) : s.reports <:+ (finishBundle userCallback code size stop parse s).reports := by
  cases parse with
  | accept pieces total =>
    unfold finishBundle checkEndOfBundle
    dsimp only
    split_ifs
    · exact List.suffix_cons ..
    · exact List.suffix_cons ..
    · exact List.suffix_refl _
  | error pieces pending pendingLength within =>
    simp only [finishBundle, runActions_eq]
    exact List.suffix_cons ..

theorem finishBundle_congr {s t : State} {stop : Nat} {n : Nat} {parse : Parse n}
    (later : (finishBundle userCallback code size stop parse s).reports <:+ t.reports)
    (agree : AgreeFrom userCallback userCallback' s t) :
    finishBundle userCallback code size stop parse s =
      finishBundle userCallback' code size stop parse s := by
  cases parse with
  | accept pieces total =>
    unfold finishBundle checkEndOfBundle at *
    dsimp only at later ⊢
    split
    · next rbp =>
      rw [if_pos rbp] at later
      rw [State.report, State.report, agree _ later]
    · next rbp =>
      rw [if_neg rbp] at later
      split
      · next rsp =>
        rw [if_pos rsp] at later
        rw [State.report, State.report, agree _ later]
      · rfl
  | error pieces pending pendingLength within =>
    simp only [finishBundle, runActions_eq] at later ⊢
    have same := agree _ later
    simp only [State.report]
    rw [show (s.applyEffect size _).reports = s.reports from rfl, same]

theorem runBundle_eq (userCallback : Callback) (dfa : Dfa) (start stop : Nat) (s : State) :
    runBundle userCallback code size options dfa start stop s =
      finishBundle userCallback code size stop (dfa code start stop)
        (((dfa code start stop).pieces.flatMap Piece.steps).foldl
          (runStep userCallback code size options)
          { s with instructionBegin := start, info := 0,
                   restrictedRegister := extractRestrictedRegisterInitialValue options }) := by
  unfold runBundle
  cases dfa code start stop with
  | accept pieces total =>
    simp only [runPieces_eq]
    rfl
  | error pieces pending pendingLength within =>
    simp only [runPieces_eq]
    rfl

end Reports

/-! ## Scans -/

theorem steps_length_le (pieces : List Piece) :
    (pieces.flatMap Piece.steps).length ≤ (pieces.map Piece.length).sum := by
  have one : ∀ l : List Instruction, l.length ≤ totalLength l := by
    intro l
    induction l with
    | nil => exact Nat.zero_le _
    | cons i l ih =>
      have pos := i.length_pos
      rw [totalLength_cons, List.length_cons]
      omega
  induction pieces with
  | nil => exact Nat.zero_le _
  | cons p pieces ih =>
    have here := one (p.steps.map Step.instruction)
    rw [totalLength_steps, List.length_map] at here
    rw [List.flatMap_cons, List.length_append, piecesLength_cons]
    omega

section Scan

variable {callback : TextCallback} {text : Text} {dfa : Dfa} {size : Nat} {options : Options}

theorem scanSteps_suffix (start stop fuel : Nat) (stream : Nat → BitVec 8) (k : Nat) (s : State) :
    s.reports <:+
      (scanSteps callback text dfa size options start stop fuel stream k s).reports := by
  induction fuel generalizing stream k s with
  | zero => exact List.suffix_refl _
  | succ fuel ih =>
    rw [scanSteps]
    dsimp only
    split
    · exact (runStep_suffix ..).trans (ih _ _ _)
    · exact finishBundle_suffix _ _ _ stop (dfa stream start stop) s

theorem scanLoop_suffix (fuel current stop : Nat) (s : State) :
    s.reports <:+ (scanLoop callback text dfa size options fuel current stop s).reports := by
  induction fuel generalizing current stop s with
  | zero => exact List.suffix_refl _
  | succ fuel ih =>
    rw [scanLoop]
    split
    · exact (scanSteps_suffix current stop _ _ _
        { s with instructionBegin := current, info := 0, restrictedRegister :=
          extractRestrictedRegisterInitialValue options }).trans (ih _ _ _)
    · exact List.suffix_refl _

variable (honest : callback.Honest) {last : State}
  (unset : (replay callback text last.reports).didRewrite = false)

include honest unset

theorem agreeFrom_unchanged (s : State) :
    AgreeFrom (asCallback callback text) (unchangedCallback callback text) s last := by
  intro r later
  exact asCallback_eq honest (replay_suffix honest later unset)

variable {s : State}

/-- A scan of a bundle in a run that changes nothing. -/
theorem scanSteps_unchanged (start stop fuel : Nat) {k : Nat}
    (inside : k ≤ ((dfa text.code start stop).pieces.flatMap Piece.steps).length)
    (enough : ((dfa text.code start stop).pieces.flatMap Piece.steps).length < k + fuel)
    (later : (scanSteps callback text dfa size options start stop fuel text.code k s).reports <:+
      last.reports) : scanSteps callback text dfa size options start stop fuel text.code k s =
      finishBundle (unchangedCallback callback text) text.code size stop (dfa text.code start stop)
        ((((dfa text.code start stop).pieces.flatMap Piece.steps).drop k).foldl
          (runStep (unchangedCallback callback text) text.code size options) s) := by
  have agree := agreeFrom_unchanged honest unset
  have same : ∀ {t : State}, t.reports <:+ last.reports →
      replay callback text t.reports = text :=
    fun later => replay_eq honest (replay_suffix honest later unset)
  induction fuel generalizing k s with
  | zero => omega
  | succ fuel ih =>
    have here := same ((scanSteps_suffix ..).trans later)
    cases found : ((dfa text.code start stop).pieces.flatMap Piece.steps)[k]? with
    | none =>
      rw [scanSteps_none _ _ _ _ _ found, here] at later ⊢
      rw [List.drop_eq_nil_of_le (List.getElem?_eq_none_iff.mp found)]
      exact finishBundle_congr _ _ later (agree s)
    | some step =>
      obtain ⟨lt, get⟩ := List.getElem?_eq_some_iff.mp found
      rw [scanSteps_some _ _ _ _ _ found, here] at later ⊢
      dsimp only at later ⊢
      have stepLater := (scanSteps_suffix ..).trans later
      have stream : ∀ position, readAhead text.code position text.code = text.code := by
        intro position
        funext i
        exact ite_self _
      rw [same stepLater, stream] at later ⊢
      rw [runStep_congr _ _ _ _ stepLater (agree s)] at later ⊢
      rw [ih (by omega) (by omega) later, List.drop_eq_getElem_cons lt, get, List.foldl_cons]

theorem scanBundle_unchanged (start stop : Nat)
    (later : (scanBundle callback text dfa size options start stop s).reports <:+ last.reports) :
    scanBundle callback text dfa size options start stop s =
      runBundle (unchangedCallback callback text) text.code size options dfa start stop s := by
  have begun := (@scanSteps_suffix callback text dfa size options start stop (stop - start + 1)
    (replay callback text s.reports).code 0 { s with
      instructionBegin := start, info := 0
      restrictedRegister := extractRestrictedRegisterInitialValue options }).trans later
  have here := replay_eq honest (replay_suffix honest begun unset)
  dsimp only at here
  have fits : ((dfa text.code start stop).pieces.flatMap Piece.steps).length <
      0 + (stop - start + 1) := by
    have bound := steps_length_le (dfa text.code start stop).pieces
    have total : ((dfa text.code start stop).pieces.map Piece.length).sum ≤ stop - start := by
      cases dfa text.code start stop with
      | accept pieces total => exact Nat.le_of_eq total
      | error pieces pending pendingLength within => exact Nat.le_trans (Nat.le_add_right _ _) within
    omega
  unfold scanBundle at later ⊢
  dsimp only at later ⊢
  rw [here] at later ⊢
  rw [scanSteps_unchanged honest unset start stop _ (Nat.zero_le _) fits later, runBundle_eq,
    List.drop_zero]

theorem scanLoop_unchanged (fuel : Nat) {current stop : Nat}
    (later : (scanLoop callback text dfa size options fuel current stop s).reports <:+
      last.reports) : scanLoop callback text dfa size options fuel current stop s =
      bundleLoop (unchangedCallback callback text) text.code size options dfa fuel current stop
        s := by
  induction fuel generalizing current stop s with
  | zero => rfl
  | succ fuel ih =>
    rw [scanLoop] at later ⊢
    rw [bundleLoop]
    split
    · next more =>
      rw [if_pos more] at later
      have bundle := scanBundle_unchanged honest unset _ _ ((scanLoop_suffix ..).trans later)
      rw [bundle] at later ⊢
      exact ih later
    · rfl

end Scan

/-! ## The check of the jumps -/

section Jumps

variable {userCallback userCallback' : Callback} {last : State}
  (agree : ∀ s, AgreeFrom userCallback userCallback' s last)

theorem foldl_suffix (check : State → Nat → State) (suffix : ∀ s i, s.reports <:+ (check s i).reports)
    (l : List Nat) (s : State) : s.reports <:+ (l.foldl check s).reports := by
  induction l generalizing s with
  | nil => exact List.suffix_refl _
  | cons i l ih => exact (suffix s i).trans (ih _)

/-- Two folds of checks are the same if the checks are, up to the end of the run. -/
theorem foldl_congr_of_suffix {check check' : State → Nat → State}
    (suffix : ∀ s i, s.reports <:+ (check s i).reports)
    (congr : ∀ s i, (check s i).reports <:+ last.reports → check s i = check' s i) (l : List Nat)
    {s : State} (later : (l.foldl check s).reports <:+ last.reports) :
    l.foldl check s = l.foldl check' s := by
  induction l generalizing s with
  | nil => rfl
  | cons i l ih =>
    have here := congr s i ((foldl_suffix check suffix l _).trans later)
    rw [List.foldl_cons, here] at later ⊢
    exact ih later

theorem reportInvalidTargets_suffix (userCallback : Callback) (i : Nat) (s : State) :
    s.reports <:+ (reportInvalidTargets userCallback i s).reports := by
  apply foldl_suffix
  intro s j
  split
  · exact List.suffix_cons ..
  · exact List.suffix_refl _

theorem processInvalidJumpTargets_suffix (userCallback : Callback) (size : Nat) (s : State) :
    s.reports <:+ (processInvalidJumpTargets userCallback size s).reports := by
  apply foldl_suffix
  intro s i
  split
  · exact reportInvalidTargets_suffix userCallback i s
  · exact List.suffix_refl _

include agree

theorem processInvalidJumpTargets_congr {size : Nat} {s : State}
    (later : (processInvalidJumpTargets userCallback size s).reports <:+ last.reports) :
    processInvalidJumpTargets userCallback size s =
      processInvalidJumpTargets userCallback' size s := by
  refine foldl_congr_of_suffix (fun s i => ?_) (fun s i here => ?_) _ later
  · split
    · exact reportInvalidTargets_suffix userCallback i s
    · exact List.suffix_refl _
  · split
    · next bad =>
      rw [if_pos bad] at here
      refine foldl_congr_of_suffix (fun s j => ?_) (fun s j here => ?_) _ here
      · split
        · exact List.suffix_cons ..
        · exact List.suffix_refl _
      · split
        · next invalid =>
          rw [if_pos invalid] at here
          rw [State.report, State.report, agree s _ here]
        · rfl
    · rfl

end Jumps

/-- A run that does not set `did_rewrite` is a run on a fixed text. -/
theorem validateText_unchanged {callback : TextCallback} (honest : callback.Honest)
    {text text' : Text} {dfa : Dfa} {size : Nat} {options : Options} {allocated ok : Bool}
    (run : validateText callback text dfa size options allocated = some (ok, text'))
    (unset : text'.didRewrite = false) :
    text' = text ∧ validateChunkAMD64 (unchangedCallback callback text) dfa allocated text.code
      size options = some ok := by
  unfold validateText at run
  unfold validateChunkAMD64
  split at run
  · cases run
  next multiple =>
  split at run
  · next failed =>
    cases run
    exact ⟨rfl, by rw [if_neg multiple, if_pos failed]⟩
  next memory =>
  simp only [Option.some.injEq, Prod.mk.injEq] at run
  obtain ⟨result, rfl⟩ := run
  have agree := agreeFrom_unchanged honest unset
  have loop := scanLoop_unchanged honest unset _ (processInvalidJumpTargets_suffix ..)
  have jumps := processInvalidJumpTargets_congr agree (List.suffix_refl _)
  refine ⟨replay_eq honest unset, ?_⟩
  rw [if_neg multiple, if_neg memory, ← result, jumps, loop]

/-! ## Silent runs -/

section Silent

variable {callback callback' : TextCallback} {text : Text} {dfa : Dfa} {size : Nat}
  {options : Options}

theorem agreeFrom_silent {last : State} (silent : last.reports = [])
    (userCallback userCallback' : Callback) (s : State) :
    AgreeFrom userCallback userCallback' s last := by
  intro r later
  rw [silent] at later
  exact absurd (List.suffix_nil.mp later) (List.cons_ne_nil _ _)

variable {s : State}

theorem silent_of_suffix {last : State} (suffix : s.reports <:+ last.reports)
    (silent : last.reports = []) : s.reports = [] := by
  rw [silent] at suffix
  exact List.suffix_nil.mp suffix

variable (callback') in
/-- The callback does not matter to a scan that never calls it. -/
theorem scanSteps_silent (start stop fuel : Nat) {stream : Nat → BitVec 8} {k : Nat}
    (silent : (scanSteps callback text dfa size options start stop fuel stream k s).reports = []) :
    scanSteps callback text dfa size options start stop fuel stream k s =
      scanSteps callback' text dfa size options start stop fuel stream k s := by
  induction fuel generalizing stream k s with
  | zero => rfl
  | succ fuel ih =>
    have here := silent_of_suffix (scanSteps_suffix ..) silent
    cases found : ((dfa stream start stop).pieces.flatMap Piece.steps)[k]? with
    | none =>
      rw [scanSteps_none _ _ _ _ _ found] at silent
      rw [scanSteps_none _ _ _ _ _ found, scanSteps_none _ _ _ _ _ found, here, replay_nil,
        replay_nil]
      rw [here, replay_nil] at silent
      exact finishBundle_congr _ _ (List.suffix_refl _) (agreeFrom_silent silent _ _ s)
    | some step =>
      rw [scanSteps_some _ _ _ _ _ found] at silent
      rw [scanSteps_some _ _ _ _ _ found, scanSteps_some _ _ _ _ _ found, here, replay_nil,
        replay_nil]
      rw [here, replay_nil] at silent
      dsimp only at silent ⊢
      have stepSilent := silent_of_suffix (scanSteps_suffix ..) silent
      have same := runStep_congr (asCallback callback' text) _ _ _
        (List.suffix_refl _) (agreeFrom_silent stepSilent _ _ s)
      rw [stepSilent, replay_nil] at silent ⊢
      rw [ih silent, same]
      rw [same] at stepSilent
      rw [stepSilent, replay_nil]

variable (callback') in
theorem scanLoop_silent (fuel : Nat) {current stop : Nat}
    (silent : (scanLoop callback text dfa size options fuel current stop s).reports = []) :
    scanLoop callback text dfa size options fuel current stop s =
      scanLoop callback' text dfa size options fuel current stop s := by
  induction fuel generalizing current stop s with
  | zero => rfl
  | succ fuel ih =>
    have here := silent_of_suffix (scanLoop_suffix ..) silent
    rw [scanLoop] at silent ⊢
    rw [scanLoop]
    split
    · next more =>
      rw [if_pos more] at silent
      have bundleSilent := silent_of_suffix (scanLoop_suffix ..) silent
      unfold scanBundle at silent bundleSilent ⊢
      dsimp only at silent bundleSilent ⊢
      rw [here, replay_nil] at silent bundleSilent ⊢
      have bundle := scanSteps_silent callback' _ _ _ bundleSilent
      rw [ih silent]
      exact congrArg _ bundle
    · rfl

/-- A callback that rejects everything and changes nothing. -/
def rejectAll : TextCallback := fun text _ => (false, text)

theorem replay_rejectAll (text : Text) (reports : List Report) :
    replay rejectAll text reports = text := by
  induction reports with
  | nil => rfl
  | cons r earlier ih => exact ih

/-- An acceptable chunk is accepted with any callback, and not changed. -/
theorem ChunkAccepted.validateText (accepted : ChunkAccepted dfa text.code size)
    (unset : text.didRewrite = false) (callback : TextCallback) {allocated : Bool}
    (memory : size + 1 ≤ naclHostWordsize ∨ allocated = true) :
    Validator.validateText callback text dfa size 0 allocated = some (true, text) := by
  have fixed : scanLoop rejectAll text dfa size 0 size 0 kBundleSize (initialState size) =
      bundlesState (unchangedCallback rejectAll text) size 0 dfa text.code := by
    rw [← chunkState_eq (by decide) accepted.1]
    exact scanLoop_unchanged (fun _ _ _ => rfl) (by rwa [replay_rejectAll]) size
      (List.suffix_refl _)
  obtain ⟨reports, result⟩ := accepted.silent (unchangedCallback rejectAll text)
  have valid := accepted.targetsValid (unchangedCallback rejectAll text)
  rw [← fixed] at reports result valid
  have same := scanLoop_silent callback size reports
  rw [same] at reports result valid
  unfold Validator.validateText
  rw [if_neg (not_not.mpr (Nat.mod_eq_zero_of_dvd accepted.1)),
    if_neg (by rintro ⟨large, failed⟩; simp [large, failed] at memory)]
  dsimp only
  rw [if_neg (by decide)]
  change some ((processInvalidJumpTargets _ size (scanLoop callback text dfa size 0 size 0 _
    (initialState size))).result, _) = _
  rw [processInvalidJumpTargets_clean valid, result]
  change some (true, replay callback text (processInvalidJumpTargets _ size (scanLoop callback text
    dfa size 0 size 0 _ (initialState size))).reports) = _
  rw [processInvalidJumpTargets_clean valid, reports, replay_nil]

end Silent

end SandboxTEE.Validator
