import SandboxTEE.Validator.Bitmap

/-! # The x86-64 validator (`validator_x86_64.rl`, `validator_internal.h`)

The Ragel machine is an arbitrary function `Dfa` that splits the bytes it is run on
into instructions and superinstructions, and names the actions it calls on each of
them.  An action carries the values of the locals that only DFA actions set
(`base`, `index`, `rex_prefix`, `operand_states`); everything the actions do is
modelled.  Code addresses are offsets from `codeblock`.

A report is one call of the user callback.  The callback sees the earlier reports, as
it may keep state in `callback_data`.
-/

namespace SandboxTEE.Validator

def kBundleSize : Nat := 32
def kBundleMask : Nat := 31

/-! ## Constants -/

/-- `enum OperandName`.  The code computes with the numbers, and the initial restricted
    register may be a number that names no register. -/
abbrev OperandName := BitVec 32

def ncRegRsp : OperandName := 4
def ncRegRbp : OperandName := 5
def ncRegR15 : OperandName := 15
def ncRegMask : OperandName := 0x0f
def ncRegRip : OperandName := 17
def ncRegRiz : OperandName := 18
def ncNoReg : OperandName := 25

/-- `enum validation_callback_info`. -/
abbrev Info := BitVec 32

def relative8Bit : Info := 0x00000081
def relative32Bit : Info := 0x00000084
def restrictedRegisterMask : Info := 0x00001f00
def restrictedRegisterShift : Nat := 8
def restrictedRegisterUsed : Info := 0x00002000
def validationErrorsMask : Info := 0x05ffc000
def unrecognizedInstruction : Info := 0x00004000
def directJumpOutOfRange : Info := 0x00008000
def forbiddenBaseRegister : Info := 0x00020000
def unrestrictedIndexRegister : Info := 0x00040000
def restrictedRbpUnprocessed : Info := 0x00080000
def unrestrictedRbpProcessed : Info := 0x00180000
def restrictedRspUnprocessed : Info := 0x00280000
def unrestrictedRspProcessed : Info := 0x00380000
def r15Modified : Info := 0x00400000
def bpModified : Info := 0x00800000
def spModified : Info := 0x01000000
def badJumpTarget : Info := 0x40000000

/-- `enum ValidationOptions`. -/
abbrev Options := BitVec 32

def restrictedRegisterInitialValueMask : Options := 0x000000ff
def callUserCallbackOnEachInstruction : Options := 0x00000100
def processChunkAsAContiguousStream : Options := 0x00000200

def extractRestrictedRegisterInitialValue (options : Options) : OperandName :=
  (options &&& restrictedRegisterInitialValueMask) ^^^ ncNoReg

/-! ## The validator's state -/

/-- One call of the user callback. -/
structure Report where
  instructionBegin : Nat
  instructionEnd : Nat
  info : Info

/-- The user callback, given the reports made before. -/
abbrev Callback := List Report → Report → Bool

structure State where
  validTargets : Bitmap
  jumpDests : Bitmap
  result : Bool
  reports : List Report
  instructionBegin : Nat
  info : Info
  restrictedRegister : OperandName

variable (userCallback : Callback)

/-- `result &= user_callback(…)`. -/
def State.report (s : State) (r : Report) : State :=
  { s with result := s.result && userCallback s.reports r, reports := r :: s.reports }

def State.collect (s : State) (bits : Info) : State := { s with info := s.info ||| bits }

/-! ## Direct jumps -/

/-- The early check of a jump target; a target inside the code is marked. -/
def markJumpTarget (jumpDest : Nat) (jumpDests : Bitmap) (size : Nat) : Bool × Bitmap :=
  if jumpDest &&& kBundleMask = 0 then (true, jumpDests)
  else if jumpDest ≥ size then (false, jumpDests)
  else (true, bitmapSetBit jumpDests jumpDest)

def markValidJumpTarget (address : Nat) (validTargets : Bitmap) : Bitmap :=
  bitmapSetBit validTargets address

def unmarkValidJumpTarget (address : Nat) (validTargets : Bitmap) : Bitmap :=
  bitmapClearBit validTargets address

def unmarkValidJumpTargets (address bytes : Nat) (validTargets : Bitmap) : Bitmap :=
  bitmapClearBits validTargets address bytes

/-- `rip[-1]` as `int8_t`. -/
def rel8Offset (code : Nat → BitVec 8) (rip : Nat) : Int := (code (rip - 1)).toInt

/-- `rip[-4] + 256U * (rip[-3] + …)` as `int32_t`. -/
def rel32Offset (code : Nat → BitVec 8) (rip : Nat) : Int :=
  (code (rip - 1) ++ code (rip - 2) ++ code (rip - 3) ++ code (rip - 4) : BitVec 32).toInt

/-- `size_t jump_dest = offset + (rip - codeblock)`. -/
def jumpDest (offset : Int) (rip : Nat) : Nat := (BitVec.ofInt 64 (offset + rip)).toNat

/-- `Rel8Operand` and `Rel32Operand`: they differ in the offset and in the bits that
    describe the field. -/
def relOperand (offset : Int) (relative : Info) (rip size : Nat) (s : State) : State :=
  let marked := markJumpTarget (jumpDest offset rip) s.jumpDests size
  let s := { s with jumpDests := marked.2 }
  if marked.1 then s.collect relative else s.collect (relative ||| directJumpOutOfRange)

def rel8Operand (code : Nat → BitVec 8) (rip size : Nat) (s : State) : State :=
  relOperand (rel8Offset code rip) relative8Bit rip size s

def rel32Operand (code : Nat → BitVec 8) (rip size : Nat) (s : State) : State :=
  relOperand (rel32Offset code rip) relative32Bit rip size s

/-! ## Restricted registers -/

/-- `restricted_register` is compared as a `uint8_t`; its values are below 256. -/
def checkMemoryAccess (base index : OperandName) (s : State) : State :=
  if base = ncRegRip ∨ base = ncRegR15 ∨ base = ncRegRsp ∨ base = ncRegRbp then
    if index = ncNoReg ∨ index = ncRegRiz then s
    else if index = s.restrictedRegister then
      { s with
        validTargets := bitmapClearBit s.validTargets s.instructionBegin
        info := s.info ||| restrictedRegisterUsed }
    else s.collect unrestrictedIndexRegister
  else s.collect forbiddenBaseRegister

def checkValidityOfRegularInstruction (restrictedRegister : OperandName) : Info :=
  if restrictedRegister = ncRegRbp then restrictedRbpUnprocessed
  else if restrictedRegister = ncRegRsp then restrictedRspUnprocessed
  else 0

/-- The `@{ … }` of `rbp_sandboxing` and `rsp_sandboxing`, for `register`. -/
def sandboxRegister (register : OperandName) (unprocessed : Info) (s : State) : State :=
  { s with
    info := s.info |||
      if s.restrictedRegister = register then restrictedRegisterUsed else unprocessed
    restrictedRegister := ncNoReg
    validTargets := unmarkValidJumpTarget s.instructionBegin s.validTargets }

def rbpSandboxing (s : State) : State := sandboxRegister ncRegRbp unrestrictedRbpProcessed s

def rspSandboxing (s : State) : State := sandboxRegister ncRegRsp unrestrictedRspProcessed s

def operandSandbox8Bit : BitVec 32 := 0x10
def operandSandboxRestricted : BitVec 32 := 0x20
def operandSandboxUnrestricted : BitVec 32 := 0x30
def operandKindMask : BitVec 32 := 0x30

section Operands

variable (rexPrefix : Bool) (operandStates : BitVec 32)

/-- `CHECK_OPERAND(INDEX, REGISTER_NAME, KIND)`. -/
def checkOperand (index : Nat) (name kind : BitVec 32) : Bool :=
  (operandStates &&& ((ncRegMask ||| operandKindMask) <<< (index <<< 3))) ==
    ((kind ||| name) <<< (index <<< 3))

def checkOperandR15Modified (index : Nat) : Bool :=
  checkOperand operandStates index ncRegR15 operandSandbox8Bit ||
  checkOperand operandStates index ncRegR15 operandSandboxRestricted ||
  checkOperand operandStates index ncRegR15 operandSandboxUnrestricted

/-- `CHECK_OPERAND_BP_INVALID_MODIFICATION` and `CHECK_OPERAND_SP_INVALID_MODIFICATION`. -/
def checkOperandInvalidModification (register : OperandName) (index : Nat) : Bool :=
  (checkOperand operandStates index register operandSandbox8Bit && rexPrefix) ||
  checkOperand operandStates index register operandSandboxUnrestricted

/-- `CHECK_OPERAND_BP_MODIFIED` and `CHECK_OPERAND_SP_MODIFIED`. -/
def checkOperandModified (register : OperandName) (index : Nat) : Bool :=
  (checkOperand operandStates index register operandSandbox8Bit && rexPrefix) ||
  checkOperand operandStates index register operandSandboxRestricted ||
  checkOperand operandStates index register operandSandboxUnrestricted

def checkOperandRestricted (index : Nat) : Bool :=
  (operandStates &&& (operandKindMask <<< (index <<< 3))) ==
    operandSandboxRestricted <<< (index <<< 3)

def getOperandName (index : Nat) : OperandName :=
  (operandStates >>> (index <<< 3)) &&& ncRegMask

/-- The bits `… |= bits` adds under `if (condition)`. -/
def bitsIf (condition : Bool) (bits : Info) : Info := if condition then bits else 0

def process0Operands (s : State) : State :=
  { s with
    info := s.info ||| checkValidityOfRegularInstruction s.restrictedRegister
    restrictedRegister := ncNoReg }

def process1Operand (s : State) : State :=
  { s with
    info := s.info ||| checkValidityOfRegularInstruction s.restrictedRegister |||
      bitsIf (checkOperandR15Modified operandStates 0) r15Modified |||
      bitsIf (checkOperandModified rexPrefix operandStates ncRegRbp 0) bpModified |||
      bitsIf (checkOperandModified rexPrefix operandStates ncRegRsp 0) spModified
    restrictedRegister := ncNoReg }

def process1OperandZeroExtends (s : State) : State :=
  { s with
    info := s.info ||| checkValidityOfRegularInstruction s.restrictedRegister |||
      bitsIf (checkOperandR15Modified operandStates 0) r15Modified |||
      bitsIf (checkOperandInvalidModification rexPrefix operandStates ncRegRbp 0) bpModified |||
      bitsIf (checkOperandInvalidModification rexPrefix operandStates ncRegRsp 0) spModified
    restrictedRegister :=
      if checkOperandRestricted operandStates 0 then getOperandName operandStates 0
      else ncNoReg }

def process2Operands (s : State) : State :=
  { s with
    info := s.info ||| checkValidityOfRegularInstruction s.restrictedRegister |||
      bitsIf (checkOperandR15Modified operandStates 0 ||
        checkOperandR15Modified operandStates 1) r15Modified |||
      bitsIf (checkOperandModified rexPrefix operandStates ncRegRbp 0 ||
        checkOperandModified rexPrefix operandStates ncRegRbp 1) bpModified |||
      bitsIf (checkOperandModified rexPrefix operandStates ncRegRsp 0 ||
        checkOperandModified rexPrefix operandStates ncRegRsp 1) spModified
    restrictedRegister := ncNoReg }

/-- When both operands are sandboxed the first one counts, and the second must not be
    `%esp` or `%ebp`. -/
def process2OperandsZeroExtends (s : State) : State :=
  let info := s.info ||| checkValidityOfRegularInstruction s.restrictedRegister |||
    bitsIf (checkOperandR15Modified operandStates 0 ||
      checkOperandR15Modified operandStates 1) r15Modified |||
    bitsIf (checkOperandInvalidModification rexPrefix operandStates ncRegRbp 0 ||
      checkOperandInvalidModification rexPrefix operandStates ncRegRbp 1) bpModified |||
    bitsIf (checkOperandInvalidModification rexPrefix operandStates ncRegRsp 0 ||
      checkOperandInvalidModification rexPrefix operandStates ncRegRsp 1) spModified
  if checkOperandRestricted operandStates 0 then
    { s with
      info := info |||
        bitsIf (checkOperand operandStates 1 ncRegRsp operandSandboxRestricted)
          restrictedRspUnprocessed |||
        bitsIf (checkOperand operandStates 1 ncRegRbp operandSandboxRestricted)
          restrictedRbpUnprocessed
      restrictedRegister := getOperandName operandStates 0 }
  else
    { s with
      info := info
      restrictedRegister :=
        if checkOperandRestricted operandStates 1 then getOperandName operandStates 1
        else ncNoReg }

end Operands

/-! ## What the DFA hands over -/

/-- The actions the DFA calls inside an instruction.  `collectInfo` stands for those that
    only set bits: the sizes of the immediate and displacement fields, CPU features,
    unsupported, modifiable and special instructions, call alignment. -/
inductive Action where
  | collectInfo (bits : Info)
  | rel8Operand
  | rel32Operand
  | checkMemoryAccess (base index : OperandName)
  | process0Operands
  | process1Operand (rexPrefix : Bool) (operandStates : BitVec 32)
  | process1OperandZeroExtends (rexPrefix : Bool) (operandStates : BitVec 32)
  | process2Operands (rexPrefix : Bool) (operandStates : BitVec 32)
  | process2OperandsZeroExtends (rexPrefix : Bool) (operandStates : BitVec 32)
  | rbpSandboxing
  | rspSandboxing

/-- An instruction, or a component of a superinstruction. -/
structure Instruction where
  length : Nat
  length_pos : 0 < length
  actions : List Action

/-- What the last component of a superinstruction is. -/
inductive Sandboxed where
  /-- A string or `maskmov` instruction after the sandboxing of `%rsi` or `%rdi`. -/
  | memoryAccess
  /-- `naclcall` or `nacljmp` whose `add` has its destination in the RM field. -/
  | callOrJmpAddToRM
  /-- `naclcall` or `nacljmp` whose `add` has its destination in the REG field. -/
  | callOrJmpAddToReg
deriving DecidableEq

inductive Piece where
  | single (instruction : Instruction)
  /-- Sandboxing instructions and the dangerous instruction behind them. -/
  | super (first : Instruction) (others : List Instruction) (last : Instruction)
      (kind : Sandboxed)

def totalLength (l : List Instruction) : Nat := (l.map Instruction.length).sum

/-- All instructions of a piece, in code order. -/
def Piece.instructions : Piece → List Instruction
  | .single i => [i]
  | .super first others last _ => first :: others ++ [last]

def Piece.length (p : Piece) : Nat := totalLength p.instructions

/-- A run of the DFA over `n` bytes: it accepts them all, or stops at an error after some
    pieces and some actions of an unfinished instruction. -/
inductive Parse (n : Nat) where
  | accept (pieces : List Piece) (total : (pieces.map Piece.length).sum = n)
  | error (pieces : List Piece) (pending : List Action) (pendingLength : Nat)
      (within : (pieces.map Piece.length).sum + pendingLength ≤ n)

theorem nothing_within (start stop : Nat) :
    (([] : List Piece).map Piece.length).sum + 0 ≤ stop - start := Nat.zero_le (stop - start)

def Parse.pieces {n : Nat} : Parse n → List Piece
  | .accept pieces _ => pieces
  | .error pieces _ _ _ => pieces

/-- The Ragel machine, run from `start` to `stop`. -/
abbrev Dfa := (code : Nat → BitVec 8) → (start stop : Nat) → Parse (stop - start)

/-! ## Running the actions -/

section Run

variable (code : Nat → BitVec 8) (size : Nat) (options : Options)

/-- One action of the instruction that ends before `instructionEnd`. -/
def runAction (instructionEnd : Nat) (s : State) : Action → State
  | .collectInfo bits => s.collect bits
  | .rel8Operand => rel8Operand code instructionEnd size s
  | .rel32Operand => rel32Operand code instructionEnd size s
  | .checkMemoryAccess base index => checkMemoryAccess base index s
  | .process0Operands => process0Operands s
  | .process1Operand rex states => process1Operand rex states s
  | .process1OperandZeroExtends rex states => process1OperandZeroExtends rex states s
  | .process2Operands rex states => process2Operands rex states s
  | .process2OperandsZeroExtends rex states => process2OperandsZeroExtends rex states s
  | .rbpSandboxing => rbpSandboxing s
  | .rspSandboxing => rspSandboxing s

def runActions (instructionEnd : Nat) (actions : List Action) (s : State) : State :=
  actions.foldl (runAction code size instructionEnd) s

/-- `end_of_instruction_cleanup`. -/
def endOfInstructionCleanup (instructionEnd : Nat) (s : State) : State :=
  let s :=
    if s.info &&& validationErrorsMask ≠ 0 ∨
        options &&& callUserCallbackOnEachInstruction ≠ 0 then
      s.report userCallback ⟨s.instructionBegin, instructionEnd, s.info |||
        ((s.restrictedRegister <<< restrictedRegisterShift) &&& restrictedRegisterMask)⟩
    else s
  { s with
    instructionBegin := instructionEnd
    validTargets := markValidJumpTarget instructionEnd s.validTargets
    info := 0 }

def runInstruction (s : State) (i : Instruction) : State :=
  let instructionEnd := s.instructionBegin + i.length
  endOfInstructionCleanup userCallback options instructionEnd
    (runActions code size instructionEnd i.actions s)

/-- Merge the dangerous instruction with its sandboxing instructions. -/
def expandSuperinstructionBySandboxingBytes (sandboxInstructionsSize : Nat) (s : State) : State :=
  let instructionBegin := s.instructionBegin - sandboxInstructionsSize
  { s with
    instructionBegin := instructionBegin
    validTargets :=
      unmarkValidJumpTargets (instructionBegin + 1) sandboxInstructionsSize s.validTargets }

def regFromModRM (modrm : BitVec 8) : BitVec 8 := (modrm >>> 3) &&& 0x07
def rmFromModRM (modrm : BitVec 8) : BitVec 8 := modrm &&& 0x07

def verifyNaclCallOrJmpAddToRM (instructionBegin currentPosition : Nat) : Bool :=
  rmFromModRM (code (instructionBegin - 5)) == rmFromModRM (code (instructionBegin - 1)) &&
  rmFromModRM (code (instructionBegin - 5)) == rmFromModRM (code currentPosition)

def verifyNaclCallOrJmpAddToReg (instructionBegin currentPosition : Nat) : Bool :=
  rmFromModRM (code (instructionBegin - 5)) == regFromModRM (code (instructionBegin - 1)) &&
  rmFromModRM (code (instructionBegin - 5)) == rmFromModRM (code currentPosition)

/-- The action at the end of a superinstruction.  The sizes written out in the source (6, 7,
    12, 13, 14; 3 + 3 and 4 + 3 for `naclcall`) are those of the instructions matched. -/
def mergeSuperinstruction (kind : Sandboxed) (sandboxInstructionsSize currentPosition : Nat)
    (s : State) : State :=
  match kind with
  | .memoryAccess => expandSuperinstructionBySandboxingBytes sandboxInstructionsSize s
  | .callOrJmpAddToRM =>
    if verifyNaclCallOrJmpAddToRM code s.instructionBegin currentPosition then
      expandSuperinstructionBySandboxingBytes sandboxInstructionsSize s
    else s.collect unrecognizedInstruction
  | .callOrJmpAddToReg =>
    if verifyNaclCallOrJmpAddToReg code s.instructionBegin currentPosition then
      expandSuperinstructionBySandboxingBytes sandboxInstructionsSize s
    else s.collect unrecognizedInstruction

def runPiece (s : State) : Piece → State
  | .single i => runInstruction userCallback code size options s i
  | .super first others last kind =>
    let sandboxing := first :: others
    let s := sandboxing.foldl (runInstruction userCallback code size options) s
    let instructionEnd := s.instructionBegin + last.length
    let s := runActions code size instructionEnd last.actions s
    let s := mergeSuperinstruction code kind (totalLength sandboxing) (instructionEnd - 1) s
    endOfInstructionCleanup userCallback options instructionEnd s

def runPieces (pieces : List Piece) (s : State) : State :=
  pieces.foldl (runPiece userCallback code size options) s

/-- An accepted bundle must not leave `%rbp` or `%rsp` restricted. -/
def checkEndOfBundle (endPosition : Nat) (s : State) : State :=
  if s.restrictedRegister = ncRegRbp then
    s.report userCallback ⟨endPosition, endPosition, restrictedRbpUnprocessed |||
      ((ncRegRbp <<< restrictedRegisterShift) &&& restrictedRegisterMask)⟩
  else if s.restrictedRegister = ncRegRsp then
    s.report userCallback ⟨endPosition, endPosition, restrictedRspUnprocessed |||
      ((ncRegRsp <<< restrictedRegisterShift) &&& restrictedRegisterMask)⟩
  else s

/-- One iteration of the main loop. -/
def runBundle (dfa : Dfa) (currentPosition endPosition : Nat) (s : State) : State :=
  let s := { s with
    instructionBegin := currentPosition
    info := 0
    restrictedRegister := extractRestrictedRegisterInitialValue options }
  match dfa code currentPosition endPosition with
  | .accept pieces _ =>
    checkEndOfBundle userCallback endPosition (runPieces userCallback code size options pieces s)
  | .error pieces pending pendingLength _ =>
    let s := runPieces userCallback code size options pieces s
    let current := s.instructionBegin + pendingLength
    let s := runActions code size current pending s
    -- report_fatal_error
    s.report userCallback ⟨s.instructionBegin, current, unrecognizedInstruction⟩

def bundleLoop (dfa : Dfa) : Nat → Nat → Nat → State → State
  | 0, _, _, s => s
  | fuel + 1, currentPosition, endPosition, s =>
    if currentPosition < size then
      bundleLoop dfa fuel endPosition (endPosition + kBundleSize)
        (runBundle userCallback code size options dfa currentPosition endPosition s)
    else s

end Run

/-! ## The final check -/

/-- The inner loop over the bits of word `i`. -/
def reportInvalidTargets (i : Nat) (s : State) : State :=
  (List.range' (i * naclHostWordsize) naclHostWordsize).foldl (fun s j =>
    if bitmapIsBitSet s.jumpDests j && !bitmapIsBitSet s.validTargets j then
      s.report userCallback ⟨j, j, badJumpTarget⟩
    else s) s

def processInvalidJumpTargets (size : Nat) (s : State) : State :=
  let elements := (size + naclHostWordsize - 1) / naclHostWordsize
  (List.range elements).foldl (fun s i =>
    if s.jumpDests.word i &&& ~~~(s.validTargets.word i) ≠ 0 then
      reportInvalidTargets userCallback i s
    else s) s

/-- `ValidateChunkAMD64`.  `allocated` tells whether the bitmaps of a chunk of more than one
    word can be allocated; `none` is the failed `CHECK` of the size. -/
def validateChunkAMD64 (dfa : Dfa) (allocated : Bool) (code : Nat → BitVec 8) (size : Nat)
    (options : Options) : Option Bool :=
  if size % kBundleSize ≠ 0 then none
  else if ¬ size + 1 ≤ naclHostWordsize ∧ allocated = false then some false
  else
    let s : State :=
      ⟨bitmapAllocate (size + 1), bitmapAllocate (size + 1), true, [], 0, 0, ncNoReg⟩
    let endPosition :=
      if options &&& processChunkAsAContiguousStream ≠ 0 then size else kBundleSize
    let s := bundleLoop userCallback code size options dfa size 0 endPosition s
    some (processInvalidJumpTargets userCallback size s).result

end SandboxTEE.Validator
