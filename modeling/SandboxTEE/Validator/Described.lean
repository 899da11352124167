import SandboxTEE.Validator.Model

/-! # What a run of the validator does, instruction by instruction

The actions of an instruction depend on the code, the position and the restricted
register only; the bitmaps, the size of the chunk and the callback come in afterwards.
A `Description` is the first part, `State.apply` the second, and a run of pieces is the
fold of `State.apply` over its descriptions.
-/

namespace SandboxTEE.Validator

/-! ## Steps -/

/-- An instruction; the last one of a superinstruction with what is merged into it, the
    size of its sandboxing instructions. -/
structure Step where
  instruction : Instruction
  merge : Option (Sandboxed × Nat)

def Piece.steps : Piece → List Step
  | .single i => [⟨i, none⟩]
  | .super first others last kind =>
    (first :: others).map (⟨·, none⟩) ++ [⟨last, some (kind, totalLength (first :: others))⟩]

section Run

variable (userCallback : Callback) (code : Nat → BitVec 8) (size : Nat) (options : Options)

def runStep (s : State) (step : Step) : State :=
  let instructionEnd := s.instructionBegin + step.instruction.length
  let s := runActions code size instructionEnd step.instruction.actions s
  let s := step.merge.elim s fun (kind, sandboxInstructionsSize) =>
    mergeSuperinstruction code kind sandboxInstructionsSize (instructionEnd - 1) s
  endOfInstructionCleanup userCallback options instructionEnd s

theorem runInstructions_eq (l : List Instruction) (s : State) :
    l.foldl (runInstruction userCallback code size options) s =
      (l.map (Step.mk · none)).foldl (runStep userCallback code size options) s := by
  rw [List.foldl_map]
  rfl

theorem runPiece_eq (s : State) (p : Piece) : runPiece userCallback code size options s p =
      p.steps.foldl (runStep userCallback code size options) s := by
  cases p with
  | single i => rfl
  | super first others last kind =>
    rw [Piece.steps, List.foldl_append, ← runInstructions_eq]
    rfl

theorem runPieces_eq (l : List Piece) (s : State) : runPieces userCallback code size options l s =
      (l.flatMap Piece.steps).foldl (runStep userCallback code size options) s := by
  induction l generalizing s with
  | nil => rfl
  | cons p l ih =>
    rw [List.flatMap_cons, List.foldl_append, ← runPiece_eq, ← ih]
    rfl

end Run

/-! ## Effects of actions -/

/-- What actions do apart from the chunk: the bits they collect, whether they unmark the
    start of the instruction, the targets of direct jumps, the restricted register. -/
structure Effect where
  info : Info
  unmarks : Bool
  jumps : List Nat
  restricted : OperandName

def Effect.none (restricted : OperandName) : Effect := ⟨0, false, [], restricted⟩

def Effect.andThen (e e' : Effect) : Effect :=
  ⟨e.info ||| e'.info, e.unmarks || e'.unmarks, e.jumps ++ e'.jumps, e'.restricted⟩

/-- A state of which only the restricted register matters. -/
def State.blank (restricted : OperandName) : State := ⟨[], [], true, [], 0, 0, restricted⟩

/-- The effect of a `process` function, read off from its run. -/
def Effect.ofProcess (process : State → State) (restricted : OperandName) : Effect :=
  ⟨(process (.blank restricted)).info, false, [],
    (process (.blank restricted)).restrictedRegister⟩

/-- A jump target that `MarkJumpTarget` refuses. -/
def outOfRange (size jumpDest : Nat) : Bool :=
  decide (jumpDest &&& kBundleMask ≠ 0 ∧ jumpDest ≥ size)

section Effects

variable (code : Nat → BitVec 8) (rip : Nat)

def Action.effect (restricted : OperandName) : Action → Effect
  | .collectInfo bits => ⟨bits, false, [], restricted⟩
  | .rel8Operand => ⟨relative8Bit, false, [jumpDest (rel8Offset code rip) rip], restricted⟩
  | .rel32Operand => ⟨relative32Bit, false, [jumpDest (rel32Offset code rip) rip], restricted⟩
  | .checkMemoryAccess base index =>
    if base = ncRegRip ∨ base = ncRegR15 ∨ base = ncRegRsp ∨ base = ncRegRbp then
      if index = ncNoReg ∨ index = ncRegRiz then .none restricted
      else if index = restricted then ⟨restrictedRegisterUsed, true, [], restricted⟩
      else ⟨unrestrictedIndexRegister, false, [], restricted⟩
    else ⟨forbiddenBaseRegister, false, [], restricted⟩
  | .process0Operands => .ofProcess Validator.process0Operands restricted
  | .process1Operand rex states => .ofProcess (Validator.process1Operand rex states) restricted
  | .process1OperandZeroExtends rex states =>
    .ofProcess (Validator.process1OperandZeroExtends rex states) restricted
  | .process2Operands rex states => .ofProcess (Validator.process2Operands rex states) restricted
  | .process2OperandsZeroExtends rex states =>
    .ofProcess (Validator.process2OperandsZeroExtends rex states) restricted
  | .rbpSandboxing =>
    ⟨if restricted = ncRegRbp then restrictedRegisterUsed else unrestrictedRbpProcessed,
      true, [], ncNoReg⟩
  | .rspSandboxing =>
    ⟨if restricted = ncRegRsp then restrictedRegisterUsed else unrestrictedRspProcessed,
      true, [], ncNoReg⟩

def actionsEffect (restricted : OperandName) : List Action → Effect
  | [] => .none restricted
  | a :: actions =>
    (a.effect code rip restricted).andThen
      (actionsEffect (a.effect code rip restricted).restricted actions)

end Effects

/-- The bit for a jump target that is out of range. -/
def rangeError (size : Nat) (jumps : List Nat) : Info :=
  if jumps.any (outOfRange size) then directJumpOutOfRange else 0

def markJumps (size : Nat) (jumps : List Nat) (jumpDests : Bitmap) : Bitmap :=
  jumps.foldl (fun jumpDests target => (markJumpTarget target jumpDests size).2) jumpDests

def State.applyEffect (size : Nat) (s : State) (e : Effect) : State :=
  { s with
    validTargets :=
      if e.unmarks then bitmapClearBit s.validTargets s.instructionBegin else s.validTargets
    jumpDests := markJumps size e.jumps s.jumpDests
    info := s.info ||| (e.info ||| rangeError size e.jumps)
    restrictedRegister := e.restricted }

theorem bitmapClearBit_twice (bitmap : Bitmap) (k : Nat) :
    bitmapClearBit (bitmapClearBit bitmap k) k = bitmapClearBit bitmap k := by
  simp only [bitmapClearBit, List.modify_modify_eq]
  congr 1
  funext w
  rw [Function.comp_apply, BitVec.and_assoc, BitVec.and_self]

theorem rangeError_append (size : Nat) (jumps jumps' : List Nat) :
    rangeError size (jumps ++ jumps') = rangeError size jumps ||| rangeError size jumps' := by
  simp only [rangeError, List.any_append]
  cases jumps.any (outOfRange size) <;> cases jumps'.any (outOfRange size) <;> decide

theorem State.applyEffect_andThen (size : Nat) (s : State) (e e' : Effect) :
    (s.applyEffect size e).applyEffect size e' = s.applyEffect size (e.andThen e') := by
  obtain ⟨bits, unmarks, jumps, restricted⟩ := e
  obtain ⟨bits', unmarks', jumps', restricted'⟩ := e'
  have info : s.info ||| (bits ||| rangeError size jumps) |||
      (bits' ||| rangeError size jumps') =
      s.info ||| (bits ||| bits' ||| rangeError size (jumps ++ jumps')) := by
    rw [rangeError_append]
    ac_rfl
  simp only [State.applyEffect, Effect.andThen, markJumps, List.foldl_append, info]
  cases unmarks <;> cases unmarks' <;> simp [bitmapClearBit_twice]

theorem relOperand_eq (offset : Int) (relative : Info) (rip size : Nat) (s : State) :
    relOperand offset relative rip size s =
      s.applyEffect size ⟨relative, false, [jumpDest offset rip], s.restrictedRegister⟩ := by
  simp only [relOperand, State.applyEffect, markJumps, List.foldl_cons, List.foldl_nil,
    rangeError, outOfRange, List.any_cons, List.any_nil, Bool.or_false, markJumpTarget]
  by_cases aligned : jumpDest offset rip &&& kBundleMask = 0
  · simp [aligned, State.collect]
  · by_cases outside : jumpDest offset rip ≥ size
    · simp [aligned, outside, State.collect]
    · simp [aligned, outside, State.collect]

theorem runAction_eq (code : Nat → BitVec 8) (size rip : Nat) (s : State) (a : Action) :
    runAction code size rip s a = s.applyEffect size (a.effect code rip s.restrictedRegister) := by
  have noJumps : rangeError size [] = 0 := rfl
  cases a with
  | collectInfo bits => simp [runAction, State.collect, Action.effect, State.applyEffect,
      markJumps, noJumps]
  | rel8Operand => exact relOperand_eq ..
  | rel32Operand => exact relOperand_eq ..
  | checkMemoryAccess base index =>
    simp only [runAction, checkMemoryAccess, Action.effect]
    split_ifs <;> simp [State.applyEffect, State.collect, Effect.none, markJumps, noJumps]
  | process0Operands => simp [runAction, process0Operands, Action.effect, Effect.ofProcess,
      State.blank, State.applyEffect, markJumps, noJumps]
  | process1Operand rex states => simp [runAction, process1Operand, Action.effect,
      Effect.ofProcess, State.blank, State.applyEffect, markJumps, noJumps, BitVec.or_assoc]
  | process1OperandZeroExtends rex states => simp [runAction, process1OperandZeroExtends,
      Action.effect, Effect.ofProcess, State.blank, State.applyEffect, markJumps, noJumps,
      BitVec.or_assoc]
  | process2Operands rex states => simp [runAction, process2Operands, Action.effect,
      Effect.ofProcess, State.blank, State.applyEffect, markJumps, noJumps, BitVec.or_assoc]
  | process2OperandsZeroExtends rex states =>
    simp only [runAction, process2OperandsZeroExtends, Action.effect, Effect.ofProcess]
    split_ifs <;> simp [State.blank, State.applyEffect, markJumps, noJumps, BitVec.or_assoc]
  | rbpSandboxing => simp [runAction, rbpSandboxing, sandboxRegister, Action.effect,
      State.applyEffect, markJumps, noJumps, unmarkValidJumpTarget]
  | rspSandboxing => simp [runAction, rspSandboxing, sandboxRegister, Action.effect,
      State.applyEffect, markJumps, noJumps, unmarkValidJumpTarget]

theorem runActions_eq (code : Nat → BitVec 8) (size rip : Nat) (actions : List Action) (s : State) :
    runActions code size rip actions s =
      s.applyEffect size (actionsEffect code rip s.restrictedRegister actions) := by
  induction actions generalizing s with
  | nil => simp [runActions, actionsEffect, Effect.none, State.applyEffect, markJumps, rangeError]
  | cons a actions ih =>
    have unfolded : runActions code size rip (a :: actions) s =
        runActions code size rip actions (runAction code size rip s a) := rfl
    rw [unfolded, ih, runAction_eq, actionsEffect, ← State.applyEffect_andThen]
    rfl

/-! ## Descriptions of instructions -/

/-- What the end of an instruction makes of the actions before it. -/
structure Description where
  /-- Where the instruction starts, or the superinstruction that ends with it. -/
  start : Nat
  stop : Nat
  lastStart : Nat
  info : Info
  /-- Whether the instruction is no jump target. -/
  unmarks : Bool
  /-- The size of the sandboxing instructions merged into it. -/
  merged : Option Nat
  jumps : List Nat
  restricted : OperandName

/-- Whether the sandboxing instructions concern the register the last one uses. -/
def Sandboxed.verified (code : Nat → BitVec 8) (instructionBegin currentPosition : Nat) :
    Sandboxed → Bool
  | .memoryAccess => true
  | .callOrJmpAddToRM => verifyNaclCallOrJmpAddToRM code instructionBegin currentPosition
  | .callOrJmpAddToReg => verifyNaclCallOrJmpAddToReg code instructionBegin currentPosition

def Step.describe (code : Nat → BitVec 8) (instructionBegin : Nat) (restricted : OperandName)
    (step : Step) : Description :=
  let stop := instructionBegin + step.instruction.length
  let e := actionsEffect code stop restricted step.instruction.actions
  let plain : Description :=
    ⟨instructionBegin, stop, instructionBegin, e.info, e.unmarks, none, e.jumps, e.restricted⟩
  match step.merge with
  | none => plain
  | some (kind, n) =>
    if kind.verified code instructionBegin (stop - 1) then
      { plain with start := instructionBegin - n, merged := some n }
    else { plain with info := plain.info ||| unrecognizedInstruction }

def describeSteps (code : Nat → BitVec 8) : Nat → OperandName → List Step → List Description
  | _, _, [] => []
  | instructionBegin, restricted, step :: l =>
    let d := step.describe code instructionBegin restricted
    d :: describeSteps code d.stop d.restricted l

/-- The bits of an instruction in a chunk of `size` bytes. -/
def Description.errors (size : Nat) (d : Description) : Info := d.info ||| rangeError size d.jumps

def Description.mark (d : Description) (validTargets : Bitmap) : Bitmap :=
  let validTargets := if d.unmarks then bitmapClearBit validTargets d.lastStart else validTargets
  let validTargets := d.merged.elim validTargets fun n =>
    unmarkValidJumpTargets (d.start + 1) n validTargets
  markValidJumpTarget d.stop validTargets

def Description.report (size : Nat) (d : Description) : Report :=
  ⟨d.start, d.stop, d.errors size |||
    ((d.restricted <<< restrictedRegisterShift) &&& restrictedRegisterMask)⟩

section Apply

variable (userCallback : Callback) (size : Nat) (options : Options)

def State.apply (s : State) (d : Description) : State :=
  let s :=
    if d.errors size &&& validationErrorsMask ≠ 0 ∨
        options &&& callUserCallbackOnEachInstruction ≠ 0 then
      s.report userCallback (d.report size)
    else s
  { s with
    validTargets := d.mark s.validTargets
    jumpDests := markJumps size d.jumps s.jumpDests
    instructionBegin := d.stop
    info := 0
    restrictedRegister := d.restricted }

@[simp] theorem State.apply_info (s : State) (d : Description) :
    (s.apply userCallback size options d).info = 0 := rfl

theorem State.apply_validTargets (s : State) (d : Description) :
    (s.apply userCallback size options d).validTargets = d.mark s.validTargets := by
  unfold State.apply
  split <;> rfl

theorem State.apply_jumpDests (s : State) (d : Description) :
    (s.apply userCallback size options d).jumpDests = markJumps size d.jumps s.jumpDests := by
  unfold State.apply
  split <;> rfl

variable (code : Nat → BitVec 8)

/-- The cleanup of a state that a description accounts for. -/
theorem endOfInstructionCleanup_eq {s t : State} {d : Description} {instructionEnd : Nat}
    (stop : d.stop = instructionEnd) (info : t.info = d.errors size)
    (start : t.instructionBegin = d.start) (restricted : t.restrictedRegister = d.restricted)
    (marks : markValidJumpTarget d.stop t.validTargets = d.mark s.validTargets)
    (jumps : t.jumpDests = markJumps size d.jumps s.jumpDests) (result : t.result = s.result)
    (reports : t.reports = s.reports) :
    endOfInstructionCleanup userCallback options instructionEnd t =
      s.apply userCallback size options d := by
  subst stop
  simp only [endOfInstructionCleanup, State.apply, State.report, Description.report, info, start,
    restricted]
  split <;> simp [marks, jumps, result, reports, restricted]

theorem runStep_eq {s : State} (fresh : s.info = 0) (step : Step) :
    runStep userCallback code size options s step = s.apply userCallback size options
        (step.describe code s.instructionBegin s.restrictedRegister) := by
  obtain ⟨i, merge⟩ := step
  simp only [runStep, runActions_eq]
  generalize he : actionsEffect code (s.instructionBegin + i.length) s.restrictedRegister
    i.actions = e
  cases merge with
  | none =>
    apply endOfInstructionCleanup_eq <;>
      simp [Step.describe, he, State.applyEffect, fresh, Description.errors, Description.mark]
  | some merge =>
    obtain ⟨kind, n⟩ := merge
    have merged : ∀ t : State, (Option.some (kind, n)).elim t (fun (kind, n) =>
          mergeSuperinstruction code kind n (s.instructionBegin + i.length - 1) t) =
        if kind.verified code t.instructionBegin (s.instructionBegin + i.length - 1) then
          expandSuperinstructionBySandboxingBytes n t
        else t.collect unrecognizedInstruction := by
      intro t
      cases kind with
      | memoryAccess => rfl
      | callOrJmpAddToRM => rfl
      | callOrJmpAddToReg => rfl
    rw [merged]
    have begin : (s.applyEffect size e).instructionBegin = s.instructionBegin := rfl
    rw [begin]
    split
    · next verified =>
      apply endOfInstructionCleanup_eq <;>
        simp [Step.describe, he, verified, State.applyEffect, fresh, Description.errors,
          Description.mark, expandSuperinstructionBySandboxingBytes]
    · next refused =>
      apply endOfInstructionCleanup_eq <;>
        simp [Step.describe, he, refused, State.applyEffect, fresh, Description.errors,
          Description.mark, State.collect]
      ac_rfl

theorem runSteps_eq (l : List Step) {s : State} (fresh : s.info = 0) :
    l.foldl (runStep userCallback code size options) s =
      (describeSteps code s.instructionBegin s.restrictedRegister l).foldl
        (State.apply userCallback size options) s := by
  induction l generalizing s with
  | nil => rfl
  | cons step l ih =>
    simp only [List.foldl_cons, describeSteps]
    rw [runStep_eq userCallback size options code fresh,
      ih (State.apply_info userCallback size options s _)]
    rfl

end Apply

end SandboxTEE.Validator
