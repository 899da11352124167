import SandboxTEE.Validator.Described

/-! # Rewriting code while it is validated (`dfa_validate_common.c`)

`NaClDfaStubOutUnsupportedInstruction` may change the code in the middle of a scan.  The
`Text` is the code with what `StubOutCallbackData` records of the changes; the text behind
some calls of a callback is found by replaying them (`replay`).

The Ragel machine reads a byte once, in order: what it has read stays as it was read
(`stream`), what lies ahead is read from the text as it is by then, and the actions read the
text itself.
-/

namespace SandboxTEE.Validator

def cpuidUnsupportedInstruction : Info := 0x00010000
def unsupportedInstruction : Info := 0x04000000

/-- `NACL_DISABLE_NONTEMPORALS_X86`. -/
def naclDisableNontemporalsX86 : BitVec 32 := 0x1

def naclHaltOpcode : BitVec 8 := 0xf4
def nopOpcode : BitVec 8 := 0x90

/-- The code at `chunk_begin`, and `did_rewrite`. -/
structure Text where
  code : Nat → BitVec 8
  didRewrite : Bool

/-- A callback that may change the text. -/
abbrev TextCallback := Text → Report → Bool × Text

/-! ## Scanning a text that changes -/

section Scan

variable (callback : TextCallback) (text : Text)

/-- The text behind some calls of the callback, the last one first. -/
def replay : List Report → Text
  | [] => text
  | r :: earlier => (callback (replay earlier) r).2

def asCallback : Callback := fun earlier r => (callback (replay callback text earlier) r).1

variable (dfa : Dfa) (size : Nat) (options : Options)

/-- What has been read up to `position` stays, the rest is read from `code`. -/
def readAhead (stream : Nat → BitVec 8) (position : Nat) (code : Nat → BitVec 8) (i : Nat) :
    BitVec 8 :=
  if i < position then stream i else code i

/-- The end of a run of the DFA: it has accepted the bundle, or has failed. -/
def finishBundle (userCallback : Callback) (code : Nat → BitVec 8) (size stop : Nat) {n : Nat}
    (parse : Parse n) (s : State) : State :=
  match parse with
  | .accept _ _ => checkEndOfBundle userCallback stop s
  | .error _ pending pendingLength _ =>
    let current := s.instructionBegin + pendingLength
    let s := runActions code size current pending s
    s.report userCallback ⟨s.instructionBegin, current, unrecognizedInstruction⟩

/-- The run of the DFA from `start` to `stop`, from its `k`-th instruction on. -/
def scanSteps (start stop : Nat) : Nat → (stream : Nat → BitVec 8) → (k : Nat) → State → State
  | 0, _, _, s => s
  | fuel + 1, stream, k, s =>
    let parse := dfa stream start stop
    match (parse.pieces.flatMap Piece.steps)[k]? with
    | some step =>
      let s := runStep (asCallback callback text) (replay callback text s.reports).code size options
        s step
      let stream := readAhead stream s.instructionBegin (replay callback text s.reports).code
      scanSteps start stop fuel stream (k + 1) s
    | none =>
      finishBundle (asCallback callback text) (replay callback text s.reports).code size stop parse s

variable {stop start k fuel : Nat} {stream : Nat → BitVec 8} {s : State}

theorem scanSteps_some {step : Step}
    (found : ((dfa stream start stop).pieces.flatMap Piece.steps)[k]? = some step) :
    scanSteps callback text dfa size options start stop (fuel + 1) stream k s =
      let t := runStep (asCallback callback text) (replay callback text s.reports).code size options
        s step
      scanSteps callback text dfa size options start stop fuel
        (readAhead stream t.instructionBegin (replay callback text t.reports).code) (k + 1) t := by
  rw [scanSteps]
  dsimp only
  rw [found]

theorem scanSteps_none (none : ((dfa stream start stop).pieces.flatMap Piece.steps)[k]? = none) :
    scanSteps callback text dfa size options start stop (fuel + 1) stream k s =
      finishBundle (asCallback callback text) (replay callback text s.reports).code size stop
        (dfa stream start stop) s := by
  rw [scanSteps]
  dsimp only
  rw [none]

/-- One iteration of the main loop.  There are no more instructions than bytes. -/
def scanBundle (currentPosition endPosition : Nat) (s : State) : State :=
  let s := { s with
    instructionBegin := currentPosition
    info := 0
    restrictedRegister := extractRestrictedRegisterInitialValue options }
  scanSteps callback text dfa size options currentPosition endPosition
    (endPosition - currentPosition + 1) (replay callback text s.reports).code 0 s

def scanLoop : Nat → Nat → Nat → State → State
  | 0, _, _, s => s
  | fuel + 1, currentPosition, endPosition, s =>
    if currentPosition < size then
      scanLoop fuel endPosition (endPosition + kBundleSize)
        (scanBundle callback text dfa size options currentPosition endPosition s)
    else s

/-- `ValidateChunkAMD64` with a callback that may change the code: the result and the text. -/
def validateText (allocated : Bool) : Option (Bool × Text) :=
  if size % kBundleSize ≠ 0 then none
  else if ¬ size + 1 ≤ naclHostWordsize ∧ allocated = false then some (false, text)
  else
    let s : State :=
      ⟨bitmapAllocate (size + 1), bitmapAllocate (size + 1), true, [], 0, 0, ncNoReg⟩
    let endPosition :=
      if options &&& processChunkAsAContiguousStream ≠ 0 then size else kBundleSize
    let s := scanLoop callback text dfa size options size 0 endPosition s
    let s := processInvalidJumpTargets (asCallback callback text) size s
    some (s.result, replay callback text s.reports)

end Scan

/-! ## Rewriting instructions -/

def isREXPrefix (byte : BitVec 8) : Bool := byte ≥ 0x40 && byte ≤ 0x4f

/-- `memset(ptr, byte, end - ptr)`. -/
def fill (byte : BitVec 8) (ptr stop : Nat) (code : Nat → BitVec 8) (i : Nat) : BitVec 8 :=
  if ptr ≤ i ∧ i < stop then byte else code i

/-- `ptr[0] = byte`. -/
def poke (ptr : Nat) (byte : BitVec 8) (code : Nat → BitVec 8) (i : Nat) : BitVec 8 :=
  if i = ptr then byte else code i

/-- `ptr[1] = 0x89; memmove(ptr + 2, ptr + 3, size - 3); ptr[size - 1] = 0x90`. -/
def movntiToMovNop (ptr stop : Nat) (code : Nat → BitVec 8) (i : Nat) : BitVec 8 :=
  if i = ptr + 1 then 0x89
  else if i = stop - 1 then nopOpcode
  else if ptr + 2 ≤ i ∧ i < stop - 1 then code (i + 1)
  else code i

/-- `ptr[2] = 0x89; ptr[1] = ptr[0]; ptr[0] = 0x90`. -/
def movntiToNopMov (ptr : Nat) (code : Nat → BitVec 8) (i : Nat) : BitVec 8 :=
  if i = ptr + 2 then 0x89
  else if i = ptr + 1 then code ptr
  else if i = ptr then nopOpcode
  else code i

/-- The 64-bit `RewriteNonTemporal`; `none` is `FALSE`. -/
def rewriteNonTemporal (ptr stop : Nat) (info : Info) (code : Nat → BitVec 8) :
    Option (Nat → BitVec 8) :=
  let size := stop - ptr
  if size ≥ 2 ∧ code ptr = 0x0f ∧ code (ptr + 1) = 0x18 then
    some (fill nopOpcode ptr stop code)
  else if size ≥ 3 ∧ isREXPrefix (code ptr) ∧ code (ptr + 1) = 0x0f then
    if code (ptr + 2) = 0xe7 then some (poke (ptr + 2) 0x7f code)
    else if code (ptr + 2) = 0x2b then some (poke (ptr + 2) 0x29 code)
    else if code (ptr + 2) = 0xc3 then
      if info &&& restrictedRegisterUsed ≠ 0 then some (movntiToMovNop ptr stop code)
      else some (movntiToNopMov ptr code)
    else if code (ptr + 2) = 0x18 then some (fill nopOpcode ptr stop code)
    else none
  else if size ≥ 4 ∧ code ptr = 0x66 ∧ isREXPrefix (code (ptr + 1)) ∧ code (ptr + 2) = 0x0f ∧
      code (ptr + 3) = 0xe7 then
    some (poke (ptr + 3) 0x7f code)
  else none

/-! ## The callbacks -/

section Callbacks

variable (dfa : Dfa) (flags : BitVec 32)

def allowErrorDuringBundleValidation (info : Info) : Bool :=
  info &&& validationErrorsMask == directJumpOutOfRange

def bundleValidationApplyRewrite : TextCallback := fun text r =>
  if r.info &&& validationErrorsMask = cpuidUnsupportedInstruction then
    (true, ⟨fill naclHaltOpcode r.instructionBegin r.instructionEnd text.code, true⟩)
  else if r.info &&& validationErrorsMask = unsupportedInstruction ∧
      flags &&& naclDisableNontemporalsX86 = 0 then
    match rewriteNonTemporal r.instructionBegin r.instructionEnd r.info text.code with
    | some code => (true, ⟨code, true⟩)
    | none => (false, text)
  else (allowErrorDuringBundleValidation r.info, text)

def bundleValidationCheckAfterRewrite : Callback := fun _ r =>
  allowErrorDuringBundleValidation r.info

/-- The part of the text that starts at `b`. -/
def Text.from (b : Nat) (text : Text) : Text := ⟨fun i => text.code (b + i), text.didRewrite⟩

/-- The text with the bundle at `b` replaced. -/
def Text.withBundle (b : Nat) (bundle text : Text) : Text where
  code := fun i => if b ≤ i ∧ i < b + kBundleSize then bundle.code (i - b) else text.code i
  didRewrite := bundle.didRewrite

def rewriteAndRevalidateBundle (instructionBegin : Nat) (text : Text) : Bool × Text :=
  let bundleBegin := instructionBegin - (instructionBegin &&& kBundleMask)
  match validateText (bundleValidationApplyRewrite flags) (text.from bundleBegin) dfa kBundleSize
      0 true with
  | some (rewritten, bundle) =>
    (rewritten && validateChunkAMD64 bundleValidationCheckAfterRewrite dfa true bundle.code
      kBundleSize 0 == some true, bundle.withBundle bundleBegin text)
  | none => (false, text)

def naClDfaStubOutUnsupportedInstruction : TextCallback := fun text r =>
  if r.info &&& validationErrorsMask = cpuidUnsupportedInstruction then
    rewriteAndRevalidateBundle dfa flags r.instructionBegin text
  else if r.info &&& validationErrorsMask = unsupportedInstruction ∧
      flags &&& naclDisableNontemporalsX86 = 0 then
    rewriteAndRevalidateBundle dfa flags r.instructionBegin text
  else (false, text)

def naClDfaProcessValidationError : Callback := fun _ _ => false

end Callbacks

end SandboxTEE.Validator
