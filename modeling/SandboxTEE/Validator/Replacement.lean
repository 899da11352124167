import SandboxTEE.Validator.EachInstruction
import SandboxTEE.Validator.ValidationCache

/-! # Replacing code (`dfa_validate_64.c`, `dfa_validate_common.c`)

New code is first compared with what it replaces, instruction by instruction, and then copied in a second
run of the validator over it.  How an instruction is copied is up to the caller.  Offsets are from the
start of the new code, `data_new`, and of what it replaces, `data_existing`.
-/

namespace SandboxTEE.Validator

def modifiableInstruction : Info := 0x08000000
def immediate2Bit : Info := 0x20000010
def lastByteIsNotImmediate : Info := 0x20000000
def immediatesSizeMask : Info := 0x0000000f

def maxInstructionLength : Nat := 17

/-- `INFO_ANYFIELDS_SIZE` -/
def infoAnyfieldsSize (info : Info) : Nat := (info &&& immediatesSizeMask).toNat

def kStubOutMem : Nat → BitVec 8 := fun _ => naclHaltOpcode

/-- `memcmp` of `n` bytes at an offset finds no difference. -/
def sameBytes (code code' : Nat → BitVec 8) (start n : Nat) : Bool :=
  (List.range n).all fun i => code (start + i) == code' (start + i)

def Report.length (r : Report) : Nat := r.instructionEnd - r.instructionBegin

/-- The byte is one of the instruction. -/
def Report.Has (r : Report) (i : Nat) : Prop := r.instructionBegin ≤ i ∧ i < r.instructionEnd

/-- The CPU lacks the instruction, and nothing else is wrong with it. -/
def Report.Lacking (r : Report) : Prop :=
  r.info &&& validationErrorsMask = cpuidUnsupportedInstruction

instance (r : Report) (i : Nat) : Decidable (r.Has i) := inferInstanceAs (Decidable (_ ∧ _))

instance (r : Report) : Decidable r.Lacking := decEq _ _

def naClDfaCodeReplacementIsStubouted (existing : Nat → BitVec 8) (instructionBegin length : Nat) : Bool :=
  sameBytes (fun i => kStubOutMem (i - instructionBegin)) existing instructionBegin length

/-- `ProcessCodeReplacementInstruction`.  An instruction is longer than its fields. -/
def processCodeReplacementInstruction (existing new : Nat → BitVec 8) : Callback := fun _ r =>
  let same := sameBytes new existing r.instructionBegin
  let fields := infoAnyfieldsSize r.info
  let lastNew := new (r.instructionEnd - 1)
  let lastExisting := existing (r.instructionEnd - 1)
  if r.Lacking then naClDfaCodeReplacementIsStubouted existing r.instructionBegin r.length
  else if r.info &&& directJumpOutOfRange ≠ 0 then
    r.info &&& validationErrorsMask == directJumpOutOfRange && same r.length
  else if r.info &&& (validationErrorsMask ||| badJumpTarget) ≠ 0 then false
  else if same r.length then true
  else if r.info &&& modifiableInstruction = 0 then false
  else if r.info &&& immediate2Bit = immediate2Bit then
    same (r.length - fields - 1) && lastNew &&& 0xfc == lastExisting &&& 0xfc
  else if r.info &&& lastByteIsNotImmediate ≠ 0 then
    same (r.length - fields - 1) && lastNew == lastExisting
  else same (r.length - fields)

/-- `ENOMEM` is set where the bitmaps cannot be allocated. -/
def chunkStatus (allocated : Bool) (size : Nat) (result : Bool) : NaClValidationStatus :=
  if result then .succeeded
  else if ¬ size + 1 ≤ naclHostWordsize ∧ allocated = false then .failedOutOfMemory
  else .failed

/-- The `CHECK` of both callbacks. -/
def anyTooLong (reports : List Report) : Bool := reports.any fun r => maxInstructionLength < r.length

/-- `none` is a failed `CHECK`. -/
def validatorCodeReplacement_x86_64 (dfa : Dfa) (allocated : Bool) (existing new : Nat → BitVec 8)
    (size : Nat) : Option NaClValidationStatus :=
  if size &&& kBundleMask ≠ 0 then some .failed
  else
    (validateChunkReports (processCodeReplacementInstruction existing new) dfa allocated new size
      callUserCallbackOnEachInstruction).bind fun (result, reports) =>
        if anyTooLong reports then none else some (chunkStatus allocated size result)

section Copy

variable {σ : Type}

/-- `NaClCopyInstructionFunc`: the offset to copy to, what to copy and its size. -/
abbrev CopyInstructionFunc (σ : Type) := σ → Nat → (Nat → BitVec 8) → Nat → Bool × σ

def naClDfaProcessCodeCopyInstruction (copyFunc : CopyInstructionFunc σ) (new : Nat → BitVec 8) (s : σ)
    (r : Report) : Bool × σ :=
  copyFunc s r.instructionBegin
    (if r.Lacking then kStubOutMem else fun i => new (r.instructionBegin + i)) r.length

/-- The state behind some calls of a callback that keeps one, the last call first. -/
def stateAfter (step : σ → Report → Bool × σ) (s : σ) : List Report → σ
  | [] => s
  | r :: earlier => (step (stateAfter step s earlier) r).2

def stateCallback (step : σ → Report → Bool × σ) (s : σ) : Callback := fun earlier r =>
  (step (stateAfter step s earlier) r).1

def validatorCodeCopy_x86_64 (copyFunc : CopyInstructionFunc σ) (dfa : Dfa) (allocated : Bool)
    (new : Nat → BitVec 8) (size : Nat) (s : σ) : Option (NaClValidationStatus × σ) :=
  if size &&& kBundleMask ≠ 0 then some (.failed, s)
  else
    let step := naClDfaProcessCodeCopyInstruction copyFunc new
    (validateChunkReports (stateCallback step s) dfa allocated new size
      callUserCallbackOnEachInstruction).bind fun (result, reports) =>
        if anyTooLong reports then none
        else some (chunkStatus allocated size result, stateAfter step s reports)

end Copy

/-! ## The comparison -/

theorem sameBytes_iff {code code' : Nat → BitVec 8} {start n : Nat} :
    sameBytes code code' start n = true ↔ ∀ i < n, code (start + i) = code' (start + i) := by
  simp only [sameBytes, List.all_eq_true, List.mem_range, beq_iff_eq]

/-- Errors other than that the CPU lacks the instruction are rejected. -/
theorem processCodeReplacementInstruction_rejects {existing new : Nat → BitVec 8} {b e : Nat} {info : Info}
    (present : info &&& validationErrorsMask ≠ cpuidUnsupportedInstruction)
    (inRange : info &&& directJumpOutOfRange = 0)
    (wrong : info &&& (validationErrorsMask ||| badJumpTarget) ≠ 0) (earlier : List Report) :
    processCodeReplacementInstruction existing new earlier ⟨b, e, info⟩ = false := by
  simp only [processCodeReplacementInstruction, Report.Lacking]
  rw [if_neg present, if_neg (not_not.mpr inRange), if_pos wrong]

theorem processCodeReplacementInstruction_breaks (existing new : Nat → BitVec 8) :
    RejectsBreaks (processCodeReplacementInstruction existing new) where
  fatal := fun earlier b e =>
    processCodeReplacementInstruction_rejects (by decide) (by decide) (by decide) earlier
  rbp := fun earlier e =>
    processCodeReplacementInstruction_rejects (by decide) (by decide) (by decide) earlier
  rsp := fun earlier e =>
    processCodeReplacementInstruction_rejects (by decide) (by decide) (by decide) earlier
  jump := fun earlier j =>
    processCodeReplacementInstruction_rejects (by decide) (by decide) (by decide) earlier

/-- What some reports, the last one first, leave of a byte: what the last instruction with it has written. -/
def copiedByte (new : Nat → BitVec 8) (reports : List Report) (i : Nat) (old : BitVec 8) : BitVec 8 :=
  (reports.find? fun r => decide (r.Has i)).elim old fun r => if r.Lacking then naclHaltOpcode else new i

/-- The CPU lacks the instruction of the new code that the byte is in, the last one reported with it. -/
def LacksAt (dfa : Dfa) (new : Nat → BitVec 8) (size i : Nat) : Prop :=
  ((chunkReports dfa new size).reverse.find? fun r => decide (r.Has i)).any fun r => decide r.Lacking

instance (dfa : Dfa) (new : Nat → BitVec 8) (size i : Nat) : Decidable (LacksAt dfa new size i) :=
  inferInstanceAs (Decidable (_ = true))

section Accepted

variable {dfa : Dfa} {allocated : Bool} {existing new : Nat → BitVec 8} {size : Nat}

theorem validatorCodeReplacement_accepted
    (replaced : validatorCodeReplacement_x86_64 dfa allocated existing new size = some .succeeded) :
    validateChunkAMD64 (processCodeReplacementInstruction existing new) dfa allocated new size
      callUserCallbackOnEachInstruction = some true := by
  unfold validatorCodeReplacement_x86_64 at replaced
  split at replaced
  · cases replaced
  obtain ⟨⟨result, reports⟩, run, replaced⟩ := Option.bind_eq_some_iff.mp replaced
  dsimp only at replaced
  split at replaced
  · cases replaced
  rw [← validateChunkReports_fst, run]
  cases result with
  | true => rfl
  | false =>
    rw [chunkStatus, if_neg Bool.false_ne_true] at replaced
    split at replaced <;> cases replaced

variable (accepted : validateChunkAMD64 (processCodeReplacementInstruction existing new) dfa allocated new
  size callUserCallbackOnEachInstruction = some true)

include accepted

/-- For what the CPU lacks there are HLTs in the code that is replaced. -/
theorem halted_of_lacksAt {i : Nat} (lacks : LacksAt dfa new size i) : existing i = naclHaltOpcode := by
  have ok := validateChunkAMD64_approved (processCodeReplacementInstruction_breaks existing new) (by decide)
    (by decide) (by decide) accepted
  obtain ⟨r, found, lacking⟩ := (Option.any_eq_true ..).mp lacks
  have lacking : r.Lacking := of_decide_eq_true lacking
  have has : r.Has i := of_decide_eq_true (List.find?_some found :)
  obtain ⟨earlier, passed⟩ := approved_forall ok r (List.mem_of_find?_eq_some found)
  simp only [processCodeReplacementInstruction] at passed
  rw [if_pos lacking] at passed
  have same := sameBytes_iff.mp passed (i - r.instructionBegin)
    (by rw [Report.length]; exact Nat.sub_lt_sub_right has.1 has.2)
  rw [Nat.add_sub_cancel' has.1] at same
  exact same.symm

end Accepted

/-! ## The copy -/

section Copied

variable {σ : Type}

/-- A copy that succeeds writes its bytes and no other; `data_existing` is at `base`. -/
def CopyInstructionFunc.Copies (copyFunc : CopyInstructionFunc σ) (base : Nat) (mem : σ → Nat → BitVec 8) :
    Prop :=
  ∀ s dst src n, (copyFunc s dst src n).1 = true → ∀ a,
    mem (copyFunc s dst src n).2 a =
      if base + dst ≤ a ∧ a < base + dst + n then src (a - (base + dst)) else mem s a

variable {copyFunc : CopyInstructionFunc σ} {base : Nat} {mem : σ → Nat → BitVec 8} {new : Nat → BitVec 8}

theorem copiedByte_cons (r : Report) (earlier : List Report) (i : Nat) (old : BitVec 8) :
    copiedByte new (r :: earlier) i old =
      if r.Has i then if r.Lacking then naclHaltOpcode else new i else copiedByte new earlier i old := by
  rw [copiedByte, List.find?_cons]
  by_cases has : r.Has i
  · rw [decide_eq_true has, if_pos has]
    rfl
  · rw [decide_eq_false has, if_neg has]
    rfl

variable {s : σ}

theorem stateAfter_copied (copies : copyFunc.Copies base mem) {reports : List Report}
    (ok : approved (stateCallback (naClDfaProcessCodeCopyInstruction copyFunc new) s) reports = true)
    (a : Nat) : mem (stateAfter (naClDfaProcessCodeCopyInstruction copyFunc new) s reports) a =
      if base ≤ a then copiedByte new reports (a - base) (mem s a) else mem s a := by
  induction reports with
  | nil => simp [stateAfter, copiedByte]
  | cons r earlier ih =>
    obtain ⟨before, here⟩ := Bool.and_eq_true_iff.mp ok
    have written := copies (stateAfter (naClDfaProcessCodeCopyInstruction copyFunc new) s earlier)
      r.instructionBegin (if r.Lacking then kStubOutMem else fun i => new (r.instructionBegin + i)) r.length
      here a
    change mem (stateAfter (naClDfaProcessCodeCopyInstruction copyFunc new) s (r :: earlier)) a = _ at written
    have range : (base + r.instructionBegin ≤ a ∧ a < base + r.instructionBegin + r.length) ↔
        base ≤ a ∧ r.Has (a - base) := by
      simp only [Report.Has, Report.length]
      omega
    rw [written, ih before, copiedByte_cons]
    by_cases last : base ≤ a ∧ r.Has (a - base)
    · rw [if_pos (range.mpr last), if_pos last.1, if_pos last.2]
      split
      · rfl
      · refine congrArg new ?_
        have := last.2.1
        omega
    · rw [if_neg fun has => last (range.mp has)]
      split
      · next from_base => rw [if_neg fun has => last ⟨from_base, has⟩]
      · rfl

variable {dfa : Dfa} {allocated allocated' : Bool} {existing : Nat → BitVec 8} {size : Nat}
  (accepted : validateChunkAMD64 (processCodeReplacementInstruction existing new) dfa allocated new size
    callUserCallbackOnEachInstruction = some true)

include accepted

variable {status : NaClValidationStatus} {s' : σ}

/-- What the second run does when the first one has succeeded. -/
theorem validatorCodeCopy_cases
    (run : validatorCodeCopy_x86_64 copyFunc dfa allocated' new size s = some (status, s')) :
    (status ≠ .succeeded ∧ s' = s) ∨
      (s' = stateAfter (naClDfaProcessCodeCopyInstruction copyFunc new) s (chunkReports dfa new size).reverse ∧
        (status = .succeeded ↔ approved (stateCallback (naClDfaProcessCodeCopyInstruction copyFunc new) s)
          (chunkReports dfa new size).reverse = true)) := by
  have breaks := processCodeReplacementInstruction_breaks existing new
  unfold validatorCodeCopy_x86_64 at run
  split at run
  · cases run
    exact .inl ⟨by decide, rfl⟩
  obtain ⟨⟨result, reports⟩, ran, run⟩ := Option.bind_eq_some_iff.mp run
  dsimp only at run
  split at run
  · cases run
  cases run
  by_cases memory : size + 1 ≤ naclHostWordsize ∨ allocated' = true
  · rw [validateChunkReports_each breaks (by decide) (by decide) (by decide) accepted memory] at ran
    cases ran
    refine .inr ⟨rfl, ?_⟩
    unfold chunkStatus
    split_ifs with ok <;> simp [ok]
  · have failed : ¬ size + 1 ≤ naclHostWordsize ∧ allocated' = false := by
      rwa [not_or, Bool.not_eq_true] at memory
    unfold validateChunkReports at ran
    rw [if_pos failed] at ran
    split at ran
    · cases ran
    · cases ran
      refine .inl ⟨?_, rfl⟩
      rw [chunkStatus, if_neg Bool.false_ne_true, if_pos failed]
      decide

/-- A copy that succeeds leaves the new code, but HLTs for what the CPU lacks. -/
theorem validatorCodeCopy_copied (copies : copyFunc.Copies base mem)
    (run : validatorCodeCopy_x86_64 copyFunc dfa allocated' new size s = some (.succeeded, s'))
    (a : Nat) : mem s' a = if base ≤ a ∧ a < base + size then
      if LacksAt dfa new size (a - base) then naclHaltOpcode else new (a - base) else mem s a := by
  obtain ⟨multiple, passed⟩ := validateChunkAMD64_passed (processCodeReplacementInstruction_breaks existing new)
    (by decide) (by decide) accepted
  rcases validatorCodeCopy_cases accepted run with ⟨failed, _⟩ | ⟨rfl, ok⟩
  · exact absurd rfl failed
  rw [stateAfter_copied copies (ok.mp rfl) a, copiedByte]
  cases found : (chunkReports dfa new size).reverse.find? fun r => decide (r.Has (a - base)) with
  | none =>
    have outside : ¬ (base ≤ a ∧ a < base + size) := by
      rintro ⟨from_base, to_end⟩
      obtain ⟨r, member, has⟩ := @chunkReports_cover dfa new size (fun c hc => (passed c hc).1.parsed)
        multiple (a - base) (by omega)
      exact List.find?_eq_none.mp found r (List.mem_reverse.mpr member) (decide_eq_true has)
    rw [if_neg outside, Option.elim_none, ite_self]
  | some r =>
    have has : r.Has (a - base) := of_decide_eq_true (List.find?_some found :)
    have inside := chunkReports_inside (List.mem_reverse.mp (List.mem_of_find?_eq_some found))
    have lacks : LacksAt dfa new size (a - base) ↔ r.Lacking := by
      rw [LacksAt, found, Option.any_some, decide_eq_true_iff]
    simp only [lacks, Option.elim_some]
    by_cases from_base : base ≤ a
    · have range : base ≤ a ∧ a < base + size := by
        have := has.2
        omega
      rw [if_pos from_base, if_pos range]
    · rw [if_neg from_base, if_neg fun range => from_base range.1]

/-- When no copy of an instruction fails, the second run succeeds or changes nothing. -/
theorem validatorCodeCopy_total (total : ∀ s dst src n, (copyFunc s dst src n).1 = true)
    (run : validatorCodeCopy_x86_64 copyFunc dfa allocated' new size s = some (status, s')) :
    status = .succeeded ∨ s' = s := by
  have all : ∀ reports,
      approved (stateCallback (naClDfaProcessCodeCopyInstruction copyFunc new) s) reports = true := by
    intro reports
    induction reports with
    | nil => rfl
    | cons r earlier ih =>
      rw [approved, ih, Bool.true_and]
      exact total ..
  rcases validatorCodeCopy_cases accepted run with ⟨_, same⟩ | ⟨_, ok⟩
  · exact .inr same
  · exact .inl (ok.mpr (all _))

end Copied

end SandboxTEE.Validator
