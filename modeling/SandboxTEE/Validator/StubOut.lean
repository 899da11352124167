import SandboxTEE.Validator.Unchanged

/-! # Validation with stubbing out, when nothing is stubbed out

`NaClDfaStubOutUnsupportedInstruction` lets an instruction pass only after a run over its
bundle that rewrites it.  A run that succeeds without a rewrite has met no such instruction,
and the chunk is acceptable as it stands (`validateText_acceptable`).

`RewriteAndRevalidateBundle` runs the DFA on a pointer to the bundle:  what the DFA makes of
a bundle must be a function of the bytes of this bundle (`Dfa.OfBytes`).
-/

namespace SandboxTEE.Validator

/-- A parse without its bounds: whether it accepts, the pieces, the unfinished instruction. -/
def Parse.outline {n : Nat} : Parse n → Bool × List Piece × List Action × Nat
  | .accept pieces _ => (true, pieces, [], 0)
  | .error pieces pending pendingLength _ => (false, pieces, pending, pendingLength)

theorem Parse.pieces_of_outline {n m : Nat} {p : Parse n} {q : Parse m}
    (same : p.outline = q.outline) : p.pieces = q.pieces := by
  cases p <;> cases q <;> simp_all [Parse.outline, Parse.pieces]

/-- The DFA reads the bytes from `start` to `stop`, through a pointer to them. -/
def Dfa.OfBytes (dfa : Dfa) : Prop :=
  ∀ {code code' : Nat → BitVec 8} {start start' n : Nat},
    (∀ i < n, code (start + i) = code' (start' + i)) →
      (dfa code start (start + n)).outline = (dfa code' start' (start' + n)).outline

/-! ## The callbacks are honest -/

theorem bundleValidationApplyRewrite_honest (flags : BitVec 32) :
    (bundleValidationApplyRewrite flags).Honest := by
  intro text r unset
  unfold bundleValidationApplyRewrite at unset ⊢
  split at unset
  · cases unset
  next notCpuid =>
  rw [if_neg notCpuid]
  split at unset
  · next unsupported =>
    rw [if_pos unsupported]
    cases rewritten : rewriteNonTemporal r.instructionBegin r.instructionEnd r.info text.code with
    | none => rfl
    | some code =>
      rw [rewritten] at unset
      cases unset
  · next supported => rw [if_neg supported]

theorem Text.from_withBundle (b : Nat) (text : Text) : (text.from b).withBundle b text = text := by
  obtain ⟨code, didRewrite⟩ := text
  simp only [Text.withBundle, Text.from, Text.mk.injEq, and_true]
  funext i
  split
  · next inside => rw [Nat.add_sub_cancel' inside.1]
  · rfl

/-- The start of the bundle of an instruction. -/
def bundleOf (instructionBegin : Nat) : Nat :=
  instructionBegin - (instructionBegin &&& kBundleMask)

theorem bundleOf_eq {c instructionBegin : Nat} (first : c * kBundleSize ≤ instructionBegin)
    (last : instructionBegin < c * kBundleSize + kBundleSize) :
    bundleOf instructionBegin = c * kBundleSize := by
  rw [bundleOf, and_kBundleMask]
  simp only [kBundleSize] at *
  omega

section Callbacks

variable {dfa : Dfa} {flags : BitVec 32}

variable {text : Text} {instructionBegin : Nat}

theorem rewriteAndRevalidateBundle_none
    (run : validateText (bundleValidationApplyRewrite flags) (text.from (bundleOf instructionBegin))
      dfa kBundleSize 0 true = none) :
    rewriteAndRevalidateBundle dfa flags instructionBegin text = (false, text) := by
  unfold bundleOf at run
  unfold rewriteAndRevalidateBundle
  dsimp only
  rw [run]

theorem rewriteAndRevalidateBundle_some {bundle : Text} {rewritten : Bool}
    (run : validateText (bundleValidationApplyRewrite flags) (text.from (bundleOf instructionBegin))
      dfa kBundleSize 0 true = some (rewritten, bundle)) :
    rewriteAndRevalidateBundle dfa flags instructionBegin text =
      (rewritten && validateChunkAMD64 bundleValidationCheckAfterRewrite dfa true bundle.code
        kBundleSize 0 == some true, bundle.withBundle (bundleOf instructionBegin) text) := by
  unfold bundleOf at run ⊢
  unfold rewriteAndRevalidateBundle
  dsimp only
  rw [run]

/-- A bundle whose rewriting does not set `did_rewrite` is unchanged. -/
theorem rewriteAndRevalidateBundle_unset
    (unset : (rewriteAndRevalidateBundle dfa flags instructionBegin text).2.didRewrite = false) :
    (rewriteAndRevalidateBundle dfa flags instructionBegin text).2 = text ∧
      ((rewriteAndRevalidateBundle dfa flags instructionBegin text).1 = true →
        validateChunkAMD64 (unchangedCallback (bundleValidationApplyRewrite flags)
          (text.from (bundleOf instructionBegin))) dfa true
          (text.from (bundleOf instructionBegin)).code kBundleSize 0 = some true) := by
  cases run : validateText (bundleValidationApplyRewrite flags)
    (text.from (bundleOf instructionBegin)) dfa kBundleSize 0 true with
  | none =>
    rw [rewriteAndRevalidateBundle_none run]
    exact ⟨rfl, nofun⟩
  | some outcome =>
    obtain ⟨rewritten, bundle⟩ := outcome
    rw [rewriteAndRevalidateBundle_some run] at unset ⊢
    obtain ⟨rfl, fixed⟩ := validateText_unchanged (bundleValidationApplyRewrite_honest flags) run
      unset
    refine ⟨Text.from_withBundle _ text, fun ok => ?_⟩
    rw [fixed, (Bool.and_eq_true_iff.mp ok).1]

variable (dfa flags)

theorem naClDfaStubOutUnsupportedInstruction_honest :
    (naClDfaStubOutUnsupportedInstruction dfa flags).Honest := by
  intro text r unset
  unfold naClDfaStubOutUnsupportedInstruction at unset ⊢
  split_ifs at unset ⊢
  · exact (rewriteAndRevalidateBundle_unset unset).1
  · exact (rewriteAndRevalidateBundle_unset unset).1
  · rfl

/-- Neither callback lets a report pass that is not about an instruction. -/
theorem unchangedCallback_breaks {callback : TextCallback} (text : Text)
    (refuses : ∀ r : Report, r.info &&& validationErrorsMask ≠ cpuidUnsupportedInstruction →
      r.info &&& validationErrorsMask ≠ unsupportedInstruction →
      r.info &&& validationErrorsMask ≠ directJumpOutOfRange → (callback text r).1 = false) :
    RejectsBreaks (unchangedCallback callback text) where
  fatal := fun earlier b e => by
    rw [unchangedCallback, refuses _ (by dsimp only; decide) (by dsimp only; decide)
      (by dsimp only; decide), Bool.false_and]
  rbp := fun earlier e => by
    rw [unchangedCallback, refuses _ (by dsimp only; decide) (by dsimp only; decide)
      (by dsimp only; decide), Bool.false_and]
  rsp := fun earlier e => by
    rw [unchangedCallback, refuses _ (by dsimp only; decide) (by dsimp only; decide)
      (by dsimp only; decide), Bool.false_and]
  jump := fun earlier j => by
    rw [unchangedCallback, refuses _ (by dsimp only; decide) (by dsimp only; decide)
      (by dsimp only; decide), Bool.false_and]

theorem bundleValidationApplyRewrite_refuses (text : Text) (r : Report)
    (notCpuid : r.info &&& validationErrorsMask ≠ cpuidUnsupportedInstruction)
    (notUnsupported : r.info &&& validationErrorsMask ≠ unsupportedInstruction)
    (notRange : r.info &&& validationErrorsMask ≠ directJumpOutOfRange) :
    (bundleValidationApplyRewrite flags text r).1 = false := by
  rw [bundleValidationApplyRewrite, if_neg notCpuid, if_neg (fun both => notUnsupported both.1)]
  exact beq_eq_false_iff_ne.mpr notRange

theorem naClDfaStubOutUnsupportedInstruction_refuses (text : Text) (r : Report)
    (notCpuid : r.info &&& validationErrorsMask ≠ cpuidUnsupportedInstruction)
    (notUnsupported : r.info &&& validationErrorsMask ≠ unsupportedInstruction) :
    (naClDfaStubOutUnsupportedInstruction dfa flags text r).1 = false := by
  rw [naClDfaStubOutUnsupportedInstruction, if_neg notCpuid,
    if_neg (fun both => notUnsupported both.1)]

/-- What the rewriting callback lets pass without a rewrite is a jump out of the bundle. -/
theorem bundleValidationApplyRewrite_passes {r : Report} {earlier : List Report}
    (passes : unchangedCallback (bundleValidationApplyRewrite flags) text earlier r = true) :
    r.info &&& validationErrorsMask = directJumpOutOfRange := by
  unfold unchangedCallback bundleValidationApplyRewrite at passes
  split_ifs at passes
  · cases passes
  · cases rewritten : rewriteNonTemporal r.instructionBegin r.instructionEnd r.info text.code with
    | none => rw [rewritten] at passes; cases passes
    | some code => rw [rewritten] at passes; cases passes
  · exact beq_iff_eq.mp (Bool.and_eq_true_iff.mp passes).1

end Callbacks

/-! ## The same bundle elsewhere -/

section Elsewhere

variable (code code' : Nat → BitVec 8)

theorem Action.effect_alike (rip rip' : Nat) (restricted : OperandName) (a : Action) :
    (a.effect code rip restricted).info = (a.effect code' rip' restricted).info ∧
      (a.effect code rip restricted).restricted = (a.effect code' rip' restricted).restricted := by
  cases a with
  | rel8Operand => exact ⟨rfl, rfl⟩
  | rel32Operand => exact ⟨rfl, rfl⟩
  | _ => exact ⟨rfl, rfl⟩

theorem actionsEffect_alike (rip rip' : Nat) (restricted : OperandName) (actions : List Action) :
    (actionsEffect code rip restricted actions).info =
        (actionsEffect code' rip' restricted actions).info ∧
      (actionsEffect code rip restricted actions).restricted =
        (actionsEffect code' rip' restricted actions).restricted := by
  induction actions generalizing restricted with
  | nil => exact ⟨rfl, rfl⟩
  | cons a actions ih =>
    obtain ⟨info, same⟩ := a.effect_alike code code' rip rip' restricted
    obtain ⟨rest, same'⟩ := ih (a.effect code' rip' restricted).restricted
    rw [actionsEffect, actionsEffect, Effect.andThen, Effect.andThen, info, same]
    dsimp only
    exact ⟨by rw [rest], same'⟩

/-- Only the check of sandboxing instructions reads the code. -/
theorem Step.describe_alike {bits : Info} (apart : unrecognizedInstruction &&& bits = 0#32)
    (b b' : Nat) (restricted : OperandName) (step : Step) :
    (step.describe code b restricted).info &&& bits =
        (step.describe code' b' restricted).info &&& bits ∧
      (step.describe code b restricted).restricted =
        (step.describe code' b' restricted).restricted := by
  obtain ⟨info, same⟩ := actionsEffect_alike code code' (b + step.instruction.length)
    (b' + step.instruction.length) restricted step.instruction.actions
  have added : ∀ i : Info, (i ||| unrecognizedInstruction) &&& bits = i &&& bits := fun i => by
    rw [BitVec.and_or_distrib_right, apart, BitVec.or_zero]
  unfold Step.describe
  cases step.merge with
  | none => exact ⟨congrArg (· &&& bits) info, same⟩
  | some merge =>
    obtain ⟨kind, n⟩ := merge
    dsimp only
    split_ifs <;> simp only [info, same, added, and_self]

theorem describeSteps_alike {bits : Info} (apart : unrecognizedInstruction &&& bits = 0#32)
    {b : Nat} (b' : Nat) {restricted : OperandName} {l : List Step} {d : Description}
    (mem : d ∈ describeSteps code b restricted l) :
    ∃ d' ∈ describeSteps code' b' restricted l, d'.info &&& bits = d.info &&& bits := by
  induction l generalizing b b' restricted with
  | nil => cases mem
  | cons step l ih =>
    obtain ⟨info, same⟩ := step.describe_alike code code' apart b b' restricted
    rw [describeSteps] at mem ⊢
    rcases List.mem_cons.mp mem with rfl | mem
    · exact ⟨_, List.mem_cons_self, info.symm⟩
    · rw [same] at mem
      obtain ⟨d', mem', found⟩ := ih _ mem
      exact ⟨d', List.mem_cons_of_mem _ mem', found⟩

variable {code}

/-- A bundle that starts at a pointer to it is the same bundle. -/
theorem bundlePieces_from {dfa : Dfa} (ofBytes : dfa.OfBytes) (text : Text) (c : Nat) :
    bundlePieces dfa (text.from (c * kBundleSize)).code 0 = bundlePieces dfa text.code c := by
  have same := @ofBytes (text.from (c * kBundleSize)).code text.code 0 (c * kBundleSize) kBundleSize
    fun i _ => by rw [Text.from, Nat.zero_add]
  rw [bundlePieces, bundlePieces, Nat.zero_mul]
  exact Parse.pieces_of_outline same

end Elsewhere

theorem Step.describe_start {code : Nat → BitVec 8} {b : Nat} {restricted : OperandName}
    {step : Step} (unmerged : (step.describe code b restricted).merged = none) :
    (step.describe code b restricted).start = b := by
  unfold Step.describe at unmerged ⊢
  cases hm : step.merge with
  | none => rfl
  | some merge =>
    obtain ⟨kind, n⟩ := merge
    rw [hm] at unmerged
    dsimp only at unmerged ⊢
    split_ifs at unmerged ⊢
    rfl

/-- What is reported about an instruction starts in its bundle. -/
theorem bundleDescriptions_start {dfa : Dfa} {code : Nat → BitVec 8} {c : Nat} {d : Description}
    (mem : d ∈ bundleDescriptions dfa code c) :
    c * kBundleSize ≤ d.start ∧ d.start < c * kBundleSize + kBundleSize := by
  obtain ⟨first, nonempty, last, merged⟩ := bundleDescriptions_inside dfa code mem
  cases hm : d.merged with
  | none =>
    obtain ⟨step, _, b, restricted, rfl⟩ := describeSteps_mem code mem
    have start := Step.describe_start hm
    rw [Step.describe_lastStart] at first nonempty
    omega
  | some n =>
    obtain ⟨before, behind⟩ := merged n hm
    omega

section Acceptable

variable {dfa : Dfa} (ofBytes : dfa.OfBytes) {flags : BitVec 32} {text : Text}

/-- A bit that does not concern jumps is set by the actions. -/
theorem Description.errors_and {bit : Info} (notRange : directJumpOutOfRange &&& bit = 0#32)
    (d : Description) (size : Nat) : d.errors size &&& bit = d.info &&& bit := by
  have range : rangeError size d.jumps &&& bit = 0#32 := by
    unfold rangeError
    split
    · exact notRange
    · exact BitVec.zero_and
  rw [Description.errors, BitVec.and_or_distrib_right, range, BitVec.or_zero]

/-- The restricted register in a report is no error. -/
theorem Description.report_errors (size : Nat) (d : Description) :
    (d.report size).info &&& validationErrorsMask = d.errors size &&& validationErrorsMask := by
  have apart : restrictedRegisterMask &&& validationErrorsMask = 0#32 := by decide
  rw [Description.report, BitVec.and_or_distrib_right, BitVec.and_assoc, apart, BitVec.and_zero,
    BitVec.or_zero]

include ofBytes

/-- In a bundle that is rewritten without a rewrite no instruction is unsupported. -/
theorem rewriteAndRevalidateBundle_supported {c : Nat} {bit : Info}
    (inMask : validationErrorsMask &&& bit = bit) (notRange : directJumpOutOfRange &&& bit = 0#32)
    (apart : unrecognizedInstruction &&& bit = 0#32) (nonzero : bit ≠ 0)
    (fixed : validateChunkAMD64 (unchangedCallback (bundleValidationApplyRewrite flags)
      (text.from (c * kBundleSize))) dfa true (text.from (c * kBundleSize)).code kBundleSize 0 =
        some true) {d : Description} (mem : d ∈ bundleDescriptions dfa text.code c) (size : Nat) :
    d.errors size &&& validationErrorsMask ≠ bit := by
  intro errors
  have set : d.info &&& bit = bit := by
    rw [← d.errors_and notRange size, ← inMask, ← BitVec.and_assoc, errors, inMask,
      BitVec.and_self]
  have breaks := unchangedCallback_breaks (text.from (c * kBundleSize)) fun r =>
    bundleValidationApplyRewrite_refuses flags _ r
  obtain ⟨_, passed⟩ := validateChunkAMD64_passed breaks (by decide) (by decide) fixed
  obtain ⟨inOrder, _⟩ := passed 0 (by decide)
  obtain ⟨d', mem', same⟩ := describeSteps_alike text.code (text.from (c * kBundleSize)).code apart
    (0 * kBundleSize) mem
  rw [← bundlePieces_from ofBytes text c] at mem'
  have set' : d'.errors kBundleSize &&& bit = bit := by
    rw [d'.errors_and notRange, same, set]
  -- so the run over the bundle meets an error that it does not let pass
  have other : ∀ {errors : Info}, d'.errors kBundleSize &&& validationErrorsMask = errors →
      errors &&& bit = bit := by
    rintro _ rfl
    rw [BitVec.and_assoc, inMask, set']
  rcases inOrder.fine d' mem' with clean | ⟨earlier, passes⟩
  · have zero := other clean
    exact nonzero (zero.symm.trans BitVec.zero_and)
  · have range := other ((d'.report_errors kBundleSize).symm.trans
      (bundleValidationApplyRewrite_passes flags passes))
    rw [notRange] at range
    exact nonzero range.symm

theorem unchangedCallback_rejectsInstructions (size : Nat) :
    RejectsInstructions (unchangedCallback (naClDfaStubOutUnsupportedInstruction dfa flags) text)
      dfa text.code size := by
  intro c _ d mem erroneous earlier
  rw [← Bool.not_eq_true]
  intro passes
  obtain ⟨first, last⟩ := bundleDescriptions_start mem
  have bundle : bundleOf (d.report size).instructionBegin = c * kBundleSize :=
    bundleOf_eq first last
  unfold unchangedCallback naClDfaStubOutUnsupportedInstruction at passes
  rw [d.report_errors] at passes
  obtain ⟨ok, unset⟩ := Bool.and_eq_true_iff.mp passes
  rw [Bool.not_eq_true'] at unset
  split_ifs at ok unset with cpuid unsupported
  · have fixed := (rewriteAndRevalidateBundle_unset unset).2 ok
    rw [bundle] at fixed
    exact rewriteAndRevalidateBundle_supported ofBytes (by decide) (by decide) (by decide)
      (by decide) fixed mem size cpuid
  · have fixed := (rewriteAndRevalidateBundle_unset unset).2 ok
    rw [bundle] at fixed
    exact rewriteAndRevalidateBundle_supported ofBytes (by decide) (by decide) (by decide)
      (by decide) fixed mem size unsupported.1

/-- Code that is accepted without being changed is acceptable as it stands. -/
theorem validateText_acceptable {text' : Text} {size : Nat} {allocated : Bool}
    (run : validateText (naClDfaStubOutUnsupportedInstruction dfa flags) text dfa size 0 allocated =
      some (true, text')) (unset : text'.didRewrite = false) :
    text' = text ∧ ChunkAccepted dfa text.code size := by
  obtain ⟨same, fixed⟩ := validateText_unchanged
    (naClDfaStubOutUnsupportedInstruction_honest dfa flags) run unset
  have breaks := unchangedCallback_breaks text fun r notCpuid notUnsupported _ =>
    naClDfaStubOutUnsupportedInstruction_refuses dfa flags text r notCpuid notUnsupported
  exact ⟨same, validateChunkAMD64_acceptable breaks
    (unchangedCallback_rejectsInstructions ofBytes size) (by decide) (by decide) fixed⟩

end Acceptable

end SandboxTEE.Validator
