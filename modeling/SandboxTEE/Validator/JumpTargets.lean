import SandboxTEE.Validator.Model

/-! # Direct jumps of a validated chunk

In bundle mode, a chunk that passes with a callback that rejects errors has only
direct jumps to bundle starts and to starts of its pieces.

* `ActionEffect`: what the actions of an instruction can do to the two bitmaps.
* `runInstruction_spec`, `runPiece_spec`: after a piece the only new valid target is its
  end; a superinstruction has unmarked its inner instructions, an instruction that
  relies on a restricted register has unmarked itself.
* `bundleLoop_spec`: hence every bit of `valid_targets` marks the start of a piece.
* `processInvalidJumpTargets_spec`: the final comparison finds every jump that is not
  among them.
-/

namespace SandboxTEE.Validator

/-! ## What the DFA has recorded -/

/-- The targets of the direct jumps an instruction makes that ends before `rip`. -/
def Action.jumpTarget (code : Nat → BitVec 8) (rip : Nat) : Action → Option Int
  | .rel8Operand => some (rel8Offset code rip + rip)
  | .rel32Operand => some (rel32Offset code rip + rip)
  | _ => none

/-- The action only makes sense behind the instruction that restricts a register: it
    addresses memory through an index register, which must be the restricted one, or it
    restores `%rbp` or `%rsp`. -/
def Action.Relies : Action → Prop
  | .checkMemoryAccess _ index => index ≠ ncNoReg ∧ index ≠ ncRegRiz
  | .rbpSandboxing => True
  | .rspSandboxing => True
  | _ => False

def Instruction.Relies (i : Instruction) : Prop := ∃ a ∈ i.actions, a.Relies

/-- The instruction a jump to the piece would execute first. -/
def Piece.head : Piece → Instruction
  | .single i => i
  | .super first _ _ _ => first

/-- The instructions of a list that starts at `b`, each with the address behind it. -/
def instructionEnds (b : Nat) : List Instruction → List (Nat × Instruction)
  | [] => []
  | i :: l => (b + i.length, i) :: instructionEnds (b + i.length) l

/-- The pieces of a list that starts at `b`, each with its first address. -/
def pieceStarts (b : Nat) : List Piece → List (Nat × Piece)
  | [] => []
  | p :: l => (b, p) :: pieceStarts (b + p.length) l

/-- The pieces of bundle `c`. -/
def bundlePieces (dfa : Dfa) (code : Nat → BitVec 8) (c : Nat) : List Piece :=
  (dfa code (c * kBundleSize) (c * kBundleSize + kBundleSize)).pieces

/-- A direct jump of the chunk, by its target relative to `codeblock`. -/
def DirectJump (dfa : Dfa) (code : Nat → BitVec 8) (size : Nat) (target : Int) : Prop :=
  ∃ c, c < size / kBundleSize ∧
    ∃ e i, (e, i) ∈ instructionEnds (c * kBundleSize)
        ((bundlePieces dfa code c).flatMap Piece.instructions) ∧
      ∃ a ∈ i.actions, a.jumpTarget code e = some target

/-- Address `k` is the first byte of a piece, hence not inside a superinstruction, and what
    is executed there does not rely on a register restricted by its predecessor. -/
def InstructionStart (dfa : Dfa) (code : Nat → BitVec 8) (size k : Nat) : Prop :=
  ∃ c, c < size / kBundleSize ∧
    ∃ p, (k, p) ∈ pieceStarts (c * kBundleSize) (bundlePieces dfa code c) ∧ ¬ p.head.Relies

/-- The callback rejects every report of an error. -/
def RejectsErrors (userCallback : Callback) : Prop :=
  ∀ earlier r, r.info &&& (validationErrorsMask ||| badJumpTarget) ≠ 0 →
    userCallback earlier r = false

/-- The callback rejects the reports that are not about an instruction: that the DFA has failed,
    that a bundle ends with a restricted register, that a jump has a bad target. -/
structure RejectsBreaks (userCallback : Callback) : Prop where
  fatal : ∀ earlier b e, userCallback earlier ⟨b, e, unrecognizedInstruction⟩ = false
  rbp : ∀ earlier e, userCallback earlier ⟨e, e, restrictedRbpUnprocessed |||
    ((ncRegRbp <<< restrictedRegisterShift) &&& restrictedRegisterMask)⟩ = false
  rsp : ∀ earlier e, userCallback earlier ⟨e, e, restrictedRspUnprocessed |||
    ((ncRegRsp <<< restrictedRegisterShift) &&& restrictedRegisterMask)⟩ = false
  jump : ∀ earlier j, userCallback earlier ⟨j, j, badJumpTarget⟩ = false

theorem RejectsErrors.breaks {userCallback : Callback} (rejects : RejectsErrors userCallback) :
    RejectsBreaks userCallback where
  fatal := fun earlier b e => rejects earlier ⟨b, e, _⟩ (by dsimp only; decide)
  rbp := fun earlier e => rejects earlier ⟨e, e, _⟩ (by dsimp only; decide)
  rsp := fun earlier e => rejects earlier ⟨e, e, _⟩ (by dsimp only; decide)
  jump := fun earlier j => rejects earlier ⟨j, j, _⟩ (by dsimp only; decide)

/-! ## Error bits -/

def State.Erroneous (s : State) : Prop := s.info &&& validationErrorsMask ≠ 0

variable {b a m : Info}

theorem or_and_ne_zero (h : a &&& m ≠ 0) : (a ||| b) &&& m ≠ 0 := by
  intro zero
  apply h
  apply BitVec.eq_of_getLsbD_eq
  intro i hi
  have := congrArg (fun v : Info => v.getLsbD i) zero
  simp only [BitVec.getLsbD_and, BitVec.getLsbD_or, BitVec.ofNat_eq_ofNat,
    BitVec.getLsbD_zero] at this ⊢
  cases ha : a.getLsbD i <;> simp_all

theorem or_and_ne_zero_right (h : b &&& m ≠ 0) : (a ||| b) &&& m ≠ 0 := by
  rw [BitVec.or_comm]
  exact or_and_ne_zero h

theorem and_or_ne_zero {n : Info} (h : a &&& m ≠ 0) : a &&& (m ||| n) ≠ 0 := by
  rw [BitVec.and_comm] at h ⊢
  exact or_and_ne_zero h

/-! ## The effect of actions -/

/-- What the actions of an instruction do to the state: targets are only unmarked, jumps
    only recorded, information bits only added. -/
structure ActionEffect (s s' : State) : Prop where
  valid : ∀ k, bitmapIsBitSet s'.validTargets k = true → bitmapIsBitSet s.validTargets k = true
  jumps : ∀ k, bitmapIsBitSet s.jumpDests k = true → bitmapIsBitSet s'.jumpDests k = true
  words : s'.jumpDests.length = s.jumpDests.length
  result : s'.result = s.result
  begin_eq : s'.instructionBegin = s.instructionBegin
  info : s.Erroneous → s'.Erroneous

theorem ActionEffect.refl (s : State) : ActionEffect s s :=
  ⟨fun _ h => h, fun _ h => h, rfl, rfl, rfl, id⟩

variable {s' s : State}

theorem ActionEffect.trans {s'' : State} (h : ActionEffect s s') (h' : ActionEffect s' s'') :
    ActionEffect s s'' where
  valid := fun k hk => h.valid k (h'.valid k hk)
  jumps := fun k hk => h'.jumps k (h.jumps k hk)
  words := h'.words.trans h.words
  result := h'.result.trans h.result
  begin_eq := h'.begin_eq.trans h.begin_eq
  info := h'.info ∘ h.info

/-- Adding information bits and changing the restricted register touch no bitmap. -/
theorem ActionEffect.of_info (s : State) (bits : Info) (r : OperandName) :
    ActionEffect s { s with info := s.info ||| bits, restrictedRegister := r } :=
  ⟨fun _ h => h, fun _ h => h, rfl, rfl, rfl, or_and_ne_zero⟩

theorem ActionEffect.collect (s : State) (bits : Info) : ActionEffect s (s.collect bits) :=
  ActionEffect.of_info s bits s.restrictedRegister

theorem ActionEffect.unmark (s : State) (k : Nat) (bits : Info) (r : OperandName) :
    ActionEffect s { s with
      validTargets := bitmapClearBit s.validTargets k
      info := s.info ||| bits, restrictedRegister := r } where
  valid := fun j hj => by
    simp only [bitmapClearBit_isBitSet, Bool.and_eq_true] at hj
    exact hj.1
  jumps := fun _ h => h
  words := rfl
  result := rfl
  begin_eq := rfl
  info := or_and_ne_zero

theorem markJumpTarget_effect (target : Nat) (jumpDests : Bitmap) (size : Nat) :
    (∀ k, bitmapIsBitSet jumpDests k = true →
      bitmapIsBitSet (markJumpTarget target jumpDests size).2 k = true) ∧
    (markJumpTarget target jumpDests size).2.length = jumpDests.length := by
  rw [markJumpTarget]
  split_ifs
  · exact ⟨fun _ h => h, rfl⟩
  · exact ⟨fun _ h => h, rfl⟩
  · refine ⟨fun k hk => ?_, length_bitmapSetBit ..⟩
    rcases Nat.lt_or_ge (target / 64) jumpDests.length with inside | outside
    · rw [bitmapSetBit_isBitSet inside, hk]
      rfl
    · rwa [bitmapSetBit, List.modify_eq_self (by simpa [naclHostWordsize] using outside)]

theorem relOperand_effect (offset : Int) (relative : Info) (rip size : Nat) (s : State) :
    ActionEffect s (relOperand offset relative rip size s) := by
  obtain ⟨jumps, words⟩ := markJumpTarget_effect (jumpDest offset rip) s.jumpDests size
  have marked : ActionEffect s
      { s with jumpDests := (markJumpTarget (jumpDest offset rip) s.jumpDests size).2 } :=
    ⟨fun _ h => h, jumps, words, rfl, rfl, id⟩
  unfold relOperand
  simp only
  split
  · exact marked.trans (ActionEffect.collect _ _)
  · exact marked.trans (ActionEffect.collect _ _)

theorem checkMemoryAccess_effect (base index : OperandName) (s : State) :
    ActionEffect s (checkMemoryAccess base index s) := by
  rw [checkMemoryAccess]
  split_ifs
  · exact ActionEffect.refl s
  · exact ActionEffect.unmark s _ _ _
  · exact ActionEffect.collect s _
  · exact ActionEffect.collect s _

theorem process2OperandsZeroExtends_effect (rex : Bool) (states : BitVec 32) (s : State) :
    ActionEffect s (process2OperandsZeroExtends rex states s) := by
  unfold process2OperandsZeroExtends
  simp only
  split
  · simpa only [BitVec.or_assoc] using ActionEffect.of_info s _ _
  · simpa only [BitVec.or_assoc] using ActionEffect.of_info s _ _

theorem runAction_effect (code : Nat → BitVec 8) (size e : Nat) (s : State) (a : Action) :
    ActionEffect s (runAction code size e s a) := by
  cases a with
  | collectInfo bits => exact ActionEffect.collect s bits
  | rel8Operand => exact relOperand_effect ..
  | rel32Operand => exact relOperand_effect ..
  | checkMemoryAccess base index => exact checkMemoryAccess_effect base index s
  | process0Operands => exact ActionEffect.of_info s _ _
  | process1Operand rex states =>
    simpa only [runAction, process1Operand, BitVec.or_assoc] using ActionEffect.of_info s _ _
  | process1OperandZeroExtends rex states =>
    simpa only [runAction, process1OperandZeroExtends, BitVec.or_assoc] using
      ActionEffect.of_info s _ _
  | process2Operands rex states =>
    simpa only [runAction, process2Operands, BitVec.or_assoc] using ActionEffect.of_info s _ _
  | process2OperandsZeroExtends rex states => exact process2OperandsZeroExtends_effect rex states s
  | rbpSandboxing => exact ActionEffect.unmark s _ _ _
  | rspSandboxing => exact ActionEffect.unmark s _ _ _

theorem runActions_effect (code : Nat → BitVec 8) (size e : Nat) :
    ∀ (actions : List Action) (s : State), ActionEffect s (runActions code size e actions s)
  | [], s => ActionEffect.refl s
  | a :: actions, s =>
    (runAction_effect code size e s a).trans (runActions_effect code size e actions _)

/-- An action of the list is run in some intermediate state. -/
theorem runActions_split (code : Nat → BitVec 8) (size e : Nat) {a : Action} :
    ∀ {actions : List Action}, a ∈ actions → ∀ s, ∃ t, ActionEffect s t ∧
      ActionEffect (runAction code size e t a) (runActions code size e actions s)
  | b :: actions, h, s => by
    rcases List.mem_cons.mp h with rfl | h
    · exact ⟨s, ActionEffect.refl s, runActions_effect code size e actions _⟩
    · obtain ⟨t, before, after⟩ := runActions_split code size e h (runAction code size e s b)
      exact ⟨t, (runAction_effect code size e s b).trans before, after⟩

/-! ## Jumps and register uses of one instruction -/

/-- A target that passes the early check is aligned, or inside the chunk and recorded. -/
def JumpRecorded (size : Nat) (jumpDests : Bitmap) (target : Int) : Prop :=
  (kBundleSize : Int) ∣ target ∨
    ∃ k : Nat, target = k ∧ k < size ∧ bitmapIsBitSet jumpDests k = true

variable {target : Int}

theorem JumpRecorded.mono {size : Nat} (h : JumpRecorded size s.jumpDests target)
    (effect : ActionEffect s s') : JumpRecorded size s'.jumpDests target := by
  rcases h with aligned | ⟨k, eq, lt, set⟩
  · exact Or.inl aligned
  · exact Or.inr ⟨k, eq, lt, effect.jumps k set⟩

theorem and_kBundleMask (n : Nat) : n &&& kBundleMask = n % kBundleSize :=
  Nat.and_two_pow_sub_one_eq_mod n 5

/-- The words allocated for `size + 1` bits hold every bit below `size`. -/
def Allocated (size : Nat) (s : State) : Prop := size < s.jumpDests.length * 64

theorem relOperand_records {offset : Int} {relative : Info} {rip size : Nat} (small : size < 2 ^ 63)
    (hrip : rip ≤ size) (low : -2 ^ 31 ≤ offset) (high : offset < 2 ^ 31)
    (words : Allocated size s) :
    JumpRecorded size (relOperand offset relative rip size s).jumpDests (offset + rip) ∨
      (relOperand offset relative rip size s).Erroneous := by
  have dest : (jumpDest offset rip : Int) = (offset + rip) % 2 ^ 64 := by
    rw [jumpDest, BitVec.toNat_ofInt]
    omega
  unfold relOperand markJumpTarget
  simp only [and_kBundleMask]
  by_cases aligned : jumpDest offset rip % kBundleSize = 0
  · refine Or.inl (Or.inl ?_)
    simp only [kBundleSize] at aligned ⊢
    omega
  · rw [if_neg aligned]
    by_cases outside : jumpDest offset rip ≥ size
    · rw [if_pos outside]
      refine Or.inr (or_and_ne_zero_right ?_)
      exact or_and_ne_zero_right (by decide)
    · rw [if_neg outside]
      refine Or.inl (Or.inr ⟨jumpDest offset rip, by omega, by omega, ?_⟩)
      unfold Allocated at words
      simp only [if_true, State.collect]
      rw [bitmapSetBit_isBitSet (by omega)]
      simp

theorem rel8Offset_bounds (code : Nat → BitVec 8) (rip : Nat) :
    -2 ^ 31 ≤ rel8Offset code rip ∧ rel8Offset code rip < 2 ^ 31 := by
  have low := BitVec.le_toInt (code (rip - 1))
  have high := BitVec.toInt_lt (x := code (rip - 1))
  unfold rel8Offset
  omega

theorem rel32Offset_bounds (code : Nat → BitVec 8) (rip : Nat) :
    -2 ^ 31 ≤ rel32Offset code rip ∧ rel32Offset code rip < 2 ^ 31 := by
  unfold rel32Offset
  generalize (code (rip - 1) ++ code (rip - 2) ++ code (rip - 3) ++ code (rip - 4) : BitVec 32) = v
  have low := BitVec.le_toInt v
  have high := BitVec.toInt_lt (x := v)
  omega

/-- A direct jump is recorded, or the instruction is reported. -/
theorem runActions_jump {code : Nat → BitVec 8} {size e : Nat} {actions : List Action} {a : Action}
    (small : size < 2 ^ 63) (he : e ≤ size) (words : Allocated size s) (mem : a ∈ actions)
    (jump : a.jumpTarget code e = some target) :
    JumpRecorded size (runActions code size e actions s).jumpDests target ∨
      (runActions code size e actions s).Erroneous := by
  obtain ⟨t, before, after⟩ := runActions_split code size e mem s
  have words : Allocated size t := by
    unfold Allocated at *
    rw [before.words]
    exact words
  have here : JumpRecorded size (runAction code size e t a).jumpDests target ∨
      (runAction code size e t a).Erroneous := by
    cases a with
    | rel8Operand =>
      cases jump
      obtain ⟨low, high⟩ := rel8Offset_bounds code e
      exact relOperand_records small he low high words
    | rel32Operand =>
      cases jump
      obtain ⟨low, high⟩ := rel32Offset_bounds code e
      exact relOperand_records small he low high words
    | _ => cases jump
  exact here.imp (fun h => h.mono after) after.info

/-- An instruction that relies on a restricted register is unmarked as a jump target, or
    reported. -/
theorem runActions_relies {code : Nat → BitVec 8} {size e : Nat} {actions : List Action}
    {a : Action} {s : State} (mem : a ∈ actions) (relies : a.Relies) :
    bitmapIsBitSet (runActions code size e actions s).validTargets s.instructionBegin = false ∨
      (runActions code size e actions s).Erroneous := by
  obtain ⟨t, before, after⟩ := runActions_split code size e mem s
  have here : bitmapIsBitSet (runAction code size e t a).validTargets t.instructionBegin = false ∨
      (runAction code size e t a).Erroneous := by
    cases a with
    | checkMemoryAccess base index =>
      simp only [runAction, checkMemoryAccess]
      rw [if_neg (not_or.mpr relies)]
      split_ifs
      · exact Or.inl (by simp [bitmapClearBit_isBitSet])
      · exact Or.inr (or_and_ne_zero_right (by decide))
      · exact Or.inr (or_and_ne_zero_right (by decide))
    | rbpSandboxing => exact Or.inl (by simp [runAction, rbpSandboxing, sandboxRegister,
        unmarkValidJumpTarget, bitmapClearBit_isBitSet])
    | rspSandboxing => exact Or.inl (by simp [runAction, rspSandboxing, sandboxRegister,
        unmarkValidJumpTarget, bitmapClearBit_isBitSet])
    | _ => exact absurd relies id
  rw [← before.begin_eq]
  refine here.imp (fun clear => ?_) after.info
  by_contra set
  have := after.valid _ (by simpa using set)
  rw [clear] at this
  cases this

/-! ## Instructions and pieces -/

section Pieces

variable {userCallback : Callback} (code : Nat → BitVec 8) {size : Nat} (options : Options)

/-- Effects that are allowed to mark the end of what has been run. -/
structure PieceEffect (s s' : State) : Prop where
  result : s'.result = true → s.result = true
  jumps : ∀ k, bitmapIsBitSet s.jumpDests k = true → bitmapIsBitSet s'.jumpDests k = true
  words : s'.jumpDests.length = s.jumpDests.length

theorem PieceEffect.refl (s : State) : PieceEffect s s := ⟨id, fun _ h => h, rfl⟩

variable {s' s : State}

theorem PieceEffect.trans {s'' : State} (h : PieceEffect s s') (h' : PieceEffect s' s'') :
    PieceEffect s s'' :=
  ⟨h.result ∘ h'.result, fun k hk => h'.jumps k (h.jumps k hk), h'.words.trans h.words⟩

theorem ActionEffect.pieceEffect (h : ActionEffect s s') : PieceEffect s s' :=
  ⟨fun r => h.result ▸ r, h.jumps, h.words⟩

theorem report_effect (s : State) (r : Report) : PieceEffect s (s.report userCallback r) where
  result := fun h => by
    simp only [State.report, Bool.and_eq_true] at h
    exact h.1
  jumps := fun _ h => h
  words := rfl

theorem JumpRecorded.mono_piece {target : Int} (h : JumpRecorded size s.jumpDests target)
    (effect : PieceEffect s s') : JumpRecorded size s'.jumpDests target := by
  rcases h with aligned | ⟨k, eq, lt, set⟩
  · exact Or.inl aligned
  · exact Or.inr ⟨k, eq, lt, effect.jumps k set⟩

theorem Allocated.mono (h : Allocated size s) (effect : PieceEffect s s') : Allocated size s' := by
  unfold Allocated at *
  rw [effect.words]
  exact h

/-- The cleanup reports an erroneous instruction and marks its end. -/
theorem endOfInstructionCleanup_spec (rejects : RejectsErrors userCallback) (e : Nat) (s : State) :
    let s' := endOfInstructionCleanup userCallback options e s
    PieceEffect s s' ∧ s'.instructionBegin = e ∧ s'.jumpDests = s.jumpDests ∧
      (s'.result = true → ¬ s.Erroneous) ∧
      ∀ k, bitmapIsBitSet s'.validTargets k = true →
        bitmapIsBitSet s.validTargets k = true ∨ k = e := by
  unfold endOfInstructionCleanup
  simp only
  split
  · next reported =>
    refine ⟨⟨?_, fun _ h => h, rfl⟩, trivial, rfl, ?_, fun k hk => bitmapSetBit_isBitSet_imp hk⟩
    · intro accepted
      exact (report_effect s _).result accepted
    · intro accepted erroneous
      simp only [State.report, Bool.and_eq_true] at accepted
      have rejected := rejects s.reports
        ⟨s.instructionBegin, e, s.info |||
          ((s.restrictedRegister <<< restrictedRegisterShift) &&& restrictedRegisterMask)⟩
        (and_or_ne_zero (or_and_ne_zero erroneous))
      rw [rejected] at accepted
      exact absurd accepted.2 Bool.false_ne_true
  · next silent =>
    refine ⟨⟨id, fun _ h => h, rfl⟩, trivial, rfl, fun _ erroneous => silent (Or.inl erroneous),
      fun k hk => bitmapSetBit_isBitSet_imp hk⟩

theorem runInstruction_spec (rejects : RejectsErrors userCallback) (small : size < 2 ^ 63)
    (s : State) (i : Instruction) (inside : s.instructionBegin + i.length ≤ size)
    (words : Allocated size s) : let s' := runInstruction userCallback code size options s i
    PieceEffect s s' ∧ s'.instructionBegin = s.instructionBegin + i.length ∧
      (∀ k, bitmapIsBitSet s'.validTargets k = true →
        bitmapIsBitSet s.validTargets k = true ∨ k = s.instructionBegin + i.length) ∧
      (s'.result = true →
        (∀ a ∈ i.actions, ∀ target,
          a.jumpTarget code (s.instructionBegin + i.length) = some target →
          JumpRecorded size s'.jumpDests target) ∧
        (i.Relies → bitmapIsBitSet s'.validTargets s.instructionBegin = false)) := by
  have effect := runActions_effect code size (s.instructionBegin + i.length) i.actions s
  obtain ⟨clean, at_end, same, clear, marks⟩ := endOfInstructionCleanup_spec options
    rejects (s.instructionBegin + i.length)
    (runActions code size (s.instructionBegin + i.length) i.actions s)
  refine ⟨effect.pieceEffect.trans clean, at_end, ?_, ?_⟩
  · intro k hk
    exact (marks k hk).imp (effect.valid k) id
  · intro accepted
    refine ⟨fun a ha target jump => ?_, fun relies => ?_⟩
    · have recorded := runActions_jump (s := s) small inside words ha jump
      exact (recorded.resolve_right (clear accepted)).mono_piece clean
    · obtain ⟨a, ha, relies⟩ := relies
      have unmarked := (@runActions_relies code size
        (s.instructionBegin + i.length) _ _ s ha relies).resolve_right (clear accepted)
      by_contra set
      rcases marks _ (eq_true_of_ne_false set) with before | at_end
      · rw [unmarked] at before
        cases before
      · have := i.length_pos
        omega

/-- All direct jumps of the instructions from `b` on are recorded. -/
def JumpsRecorded (code : Nat → BitVec 8) (size b : Nat) (l : List Instruction)
    (jumpDests : Bitmap) : Prop :=
  ∀ e i, (e, i) ∈ instructionEnds b l → ∀ a ∈ i.actions, ∀ target,
    a.jumpTarget code e = some target → JumpRecorded size jumpDests target

variable {code}

theorem JumpsRecorded.nil (b : Nat) (jumpDests : Bitmap) :
    JumpsRecorded code size b [] jumpDests := fun e i h => by simp [instructionEnds] at h

theorem JumpsRecorded.cons {b : Nat} {i : Instruction} {l : List Instruction} {jumpDests : Bitmap}
    (here : ∀ a ∈ i.actions, ∀ target, a.jumpTarget code (b + i.length) = some target →
      JumpRecorded size jumpDests target)
    (rest : JumpsRecorded code size (b + i.length) l jumpDests) :
    JumpsRecorded code size b (i :: l) jumpDests := by
  intro e j h
  simp only [instructionEnds, List.mem_cons, Prod.mk.injEq] at h
  rcases h with ⟨rfl, rfl⟩ | h
  · exact here
  · exact rest e j h

theorem totalLength_cons (i : Instruction) (l : List Instruction) :
    totalLength (i :: l) = i.length + totalLength l := by simp [totalLength]

theorem totalLength_append (l l' : List Instruction) :
    totalLength (l ++ l') = totalLength l + totalLength l' := by simp [totalLength]

theorem instructionEnds_append : ∀ (b : Nat) (l l' : List Instruction),
    instructionEnds b (l ++ l') = instructionEnds b l ++ instructionEnds (b + totalLength l) l'
  | b, [], l' => by simp [instructionEnds, totalLength]
  | b, i :: l, l' => by
    rw [List.cons_append, instructionEnds, instructionEnds, instructionEnds_append,
      totalLength_cons, List.cons_append, Nat.add_assoc]

variable {b : Nat} {l : List Instruction}

theorem JumpsRecorded.append {l' : List Instruction} {jumpDests : Bitmap}
    (first : JumpsRecorded code size b l jumpDests)
    (second : JumpsRecorded code size (b + totalLength l) l' jumpDests) :
    JumpsRecorded code size b (l ++ l') jumpDests := by
  intro e i h
  rw [instructionEnds_append, List.mem_append] at h
  exact h.elim (first e i) (second e i)

theorem JumpsRecorded.mono (h : JumpsRecorded code size b l s.jumpDests)
    (effect : PieceEffect s s') : JumpsRecorded code size b l s'.jumpDests :=
  fun e i hi a ha target jump => (h e i hi a ha target jump).mono_piece effect

variable (code)

/-- A run of instructions marks only addresses behind its start. -/
theorem runInstructions_spec (rejects : RejectsErrors userCallback) (small : size < 2 ^ 63) :
    ∀ (l : List Instruction) (s : State), s.instructionBegin + totalLength l ≤ size →
    Allocated size s → let s' := l.foldl (runInstruction userCallback code size options) s
    PieceEffect s s' ∧ s'.instructionBegin = s.instructionBegin + totalLength l ∧
      (∀ k, bitmapIsBitSet s'.validTargets k = true → bitmapIsBitSet s.validTargets k = true ∨
        s.instructionBegin < k ∧ k ≤ s.instructionBegin + totalLength l) ∧
      (s'.result = true → JumpsRecorded code size s.instructionBegin l s'.jumpDests)
  | [], s, _, _ => ⟨PieceEffect.refl s, rfl, fun _ h => Or.inl h,
      fun _ => JumpsRecorded.nil _ _⟩
  | i :: l, s, inside, words => by
    rw [totalLength_cons] at inside ⊢
    have pos := i.length_pos
    obtain ⟨effect, at_end, marks, accepted⟩ := runInstruction_spec code options rejects small s i (by omega) words
    obtain ⟨effect', at_end', marks', accepted'⟩ := runInstructions_spec rejects small l
      (runInstruction userCallback code size options s i) (by omega) (words.mono effect)
    rw [List.foldl_cons]
    refine ⟨effect.trans effect', by omega, ?_, ?_⟩
    · intro k hk
      rcases marks' k hk with before | new
      · rcases marks k before with before | here
        · exact Or.inl before
        · exact Or.inr (by omega)
      · exact Or.inr (by omega)
    · intro ok
      refine JumpsRecorded.cons (fun a ha target jump => ?_) ?_
      · exact ((accepted (effect'.result ok)).1 a ha target jump).mono_piece effect'
      · rw [← at_end]
        exact accepted' ok

/-- Merging a superinstruction unmarks its inner bytes, or reports it. -/
theorem mergeSuperinstruction_spec (kind : Sandboxed) (n position : Nat) (s : State) :
    let s' := mergeSuperinstruction code kind n position s
    PieceEffect s s' ∧ s'.jumpDests = s.jumpDests ∧ (s.Erroneous → s'.Erroneous) ∧
      (s'.Erroneous ∨ s'.validTargets =
        unmarkValidJumpTargets (s.instructionBegin - n + 1) n s.validTargets) := by
  have merged : ∀ s', s' = expandSuperinstructionBySandboxingBytes n s →
      PieceEffect s s' ∧ s'.jumpDests = s.jumpDests ∧ (s.Erroneous → s'.Erroneous) ∧
      (s'.Erroneous ∨ s'.validTargets =
        unmarkValidJumpTargets (s.instructionBegin - n + 1) n s.validTargets) := by
    rintro s' rfl
    exact ⟨⟨id, fun _ h => h, rfl⟩, rfl, id, Or.inr rfl⟩
  have refused : ∀ s', s' = s.collect unrecognizedInstruction →
      PieceEffect s s' ∧ s'.jumpDests = s.jumpDests ∧ (s.Erroneous → s'.Erroneous) ∧
      (s'.Erroneous ∨ s'.validTargets =
        unmarkValidJumpTargets (s.instructionBegin - n + 1) n s.validTargets) := by
    rintro s' rfl
    exact ⟨(ActionEffect.collect s _).pieceEffect, rfl, or_and_ne_zero,
      Or.inl (or_and_ne_zero_right (by decide))⟩
  cases kind with
  | memoryAccess => exact merged _ rfl
  | callOrJmpAddToRM =>
    rw [mergeSuperinstruction]
    split
    · exact merged _ rfl
    · exact refused _ rfl
  | callOrJmpAddToReg =>
    rw [mergeSuperinstruction]
    split
    · exact merged _ rfl
    · exact refused _ rfl

/-- What an accepted piece leaves behind: the only new valid target is its end, and its
    start is none if it relies on a restricted register. -/
theorem runPiece_spec (rejects : RejectsErrors userCallback) (small : size < 2 ^ 63)
    (s : State) (p : Piece) (inside : s.instructionBegin + p.length ≤ size)
    (bundle : s.instructionBegin % kBundleSize + p.length ≤ kBundleSize)
    (words : Allocated size s) : let s' := runPiece userCallback code size options s p
    PieceEffect s s' ∧ s'.instructionBegin = s.instructionBegin + p.length ∧
      (s'.result = true →
        (∀ k, bitmapIsBitSet s'.validTargets k = true →
          bitmapIsBitSet s.validTargets k = true ∨ k = s.instructionBegin + p.length) ∧
        (p.head.Relies → bitmapIsBitSet s'.validTargets s.instructionBegin = false) ∧
        JumpsRecorded code size s.instructionBegin p.instructions s'.jumpDests) := by
  cases p with
  | single i =>
    have len : Piece.length (.single i) = i.length := by simp [Piece.length, Piece.instructions,
      totalLength]
    rw [len] at inside bundle ⊢
    obtain ⟨effect, at_end, marks, accepted⟩ := runInstruction_spec code options rejects small s i inside words
    refine ⟨effect, at_end, fun ok => ⟨marks, (accepted ok).2, ?_⟩⟩
    exact JumpsRecorded.cons (accepted ok).1 (JumpsRecorded.nil _ _)
  | super first others last kind =>
    have len : Piece.length (.super first others last kind) =
        first.length + totalLength others + last.length := by
      simp [Piece.length, Piece.instructions, totalLength, Nat.add_assoc]
    have total : totalLength (first :: others) = first.length + totalLength others :=
      totalLength_cons first others
    have pos := first.length_pos
    have posLast := last.length_pos
    simp only [kBundleSize] at bundle
    rw [len] at inside bundle ⊢
    rw [runPiece]
    simp only [List.foldl_cons]
    obtain ⟨effect₁, at_end₁, marks₁, accepted₁⟩ := runInstruction_spec code options rejects small s first (by omega) words
    generalize runInstruction userCallback code size options s first = s₁ at *
    obtain ⟨effect₂, at_end₂, marks₂, accepted₂⟩ := runInstructions_spec code options rejects small others s₁ (by omega) (words.mono effect₁)
    generalize others.foldl (runInstruction userCallback code size options) s₁ = s₂ at *
    have begin₂ : s₂.instructionBegin = s.instructionBegin + totalLength (first :: others) := by
      omega
    have effect₃ := runActions_effect code size (s₂.instructionBegin + last.length) last.actions s₂
    have jumps₃ : ∀ a ∈ last.actions, ∀ target,
        a.jumpTarget code (s₂.instructionBegin + last.length) = some target →
        JumpRecorded size (runActions code size (s₂.instructionBegin + last.length)
          last.actions s₂).jumpDests target ∨
        (runActions code size (s₂.instructionBegin + last.length) last.actions s₂).Erroneous :=
      fun a ha target jump => runActions_jump small (by omega)
        ((words.mono effect₁).mono effect₂) ha jump
    generalize runActions code size (s₂.instructionBegin + last.length) last.actions s₂ = s₃ at *
    obtain ⟨effect₄, same₄, keep₄, unmarked₄⟩ := mergeSuperinstruction_spec code kind
      (totalLength (first :: others)) (s₂.instructionBegin + last.length - 1) s₃
    generalize mergeSuperinstruction code kind (totalLength (first :: others))
      (s₂.instructionBegin + last.length - 1) s₃ = s₄ at *
    obtain ⟨effect₅, at_end₅, _, clear₅, marks₅⟩ := endOfInstructionCleanup_spec
      options rejects (s₂.instructionBegin + last.length) s₄
    generalize endOfInstructionCleanup userCallback options (s₂.instructionBegin + last.length) s₄
      = s₅ at *
    have toEnd := effect₃.pieceEffect.trans (effect₄.trans effect₅)
    have from₁ := effect₂.trans toEnd
    refine ⟨effect₁.trans from₁, by omega, fun ok => ?_⟩
    have unmarked := unmarked₄.resolve_left (clear₅ ok)
    rw [effect₃.begin_eq, begin₂, Nat.add_sub_cancel] at unmarked
    -- what is still marked was marked by the first component, not behind its start
    have outer : ∀ k, bitmapIsBitSet s₅.validTargets k = true →
        k = s.instructionBegin + (first.length + totalLength others + last.length) ∨
        bitmapIsBitSet s₁.validTargets k = true ∧
          k ≠ s.instructionBegin + first.length := by
      intro k hk
      rcases marks₅ k hk with before | here
      · rw [unmarked, unmarkValidJumpTargets,
          bitmapClearBits_isBitSet _ (by omega) (by omega)] at before
        simp only [Bool.and_eq_true, Bool.not_eq_true', decide_eq_false_iff_not] at before
        rcases marks₂ k (effect₃.valid k before.1) with old | new
        · exact Or.inr ⟨old, by omega⟩
        · exact absurd (by omega) before.2
      · exact Or.inl (by omega)
    refine ⟨fun k hk => ?_, fun relies => ?_, ?_⟩
    · rcases outer k hk with here | ⟨old, ne⟩
      · exact Or.inr here
      · exact Or.inl ((marks₁ k old).resolve_right ne)
    · have unmarkedHead := (accepted₁ (from₁.result ok)).2 relies
      by_contra set
      rcases outer _ (eq_true_of_ne_false set) with here | ⟨old, _⟩
      · omega
      · rw [unmarkedHead] at old
        cases old
    · have firstJumps := (accepted₁ (from₁.result ok)).1
      have otherJumps := accepted₂ (toEnd.result ok)
      rw [at_end₁] at otherJumps
      refine JumpsRecorded.append (l := first :: others) ?_ (JumpsRecorded.cons ?_ ?_)
      · exact JumpsRecorded.cons
          (fun a ha target jump => (firstJumps a ha target jump).mono_piece from₁)
          (otherJumps.mono toEnd)
      · rw [← begin₂]
        intro a ha target jump
        have recorded := (jumps₃ a ha target jump).resolve_right
          fun erroneous => clear₅ ok (keep₄ erroneous)
        exact recorded.mono_piece (effect₄.trans effect₅)
      · exact JumpsRecorded.nil _ _

theorem piecesLength_cons (p : Piece) (l : List Piece) :
    ((p :: l).map Piece.length).sum = p.length + (l.map Piece.length).sum := by simp

/-- Every valid target is in `Target`, or the address reached. -/
def MarksWithin (Target : Nat → Prop) (s : State) : Prop :=
  s.result = true → ∀ k, bitmapIsBitSet s.validTargets k = true →
    Target k ∨ k = s.instructionBegin

variable {Target : Nat → Prop}

theorem runPieces_spec (rejects : RejectsErrors userCallback) (small : size < 2 ^ 63) :
    ∀ (l : List Piece) (s : State), s.instructionBegin + (l.map Piece.length).sum ≤ size →
    s.instructionBegin % kBundleSize + (l.map Piece.length).sum ≤ kBundleSize → Allocated size s →
    (∀ k p, (k, p) ∈ pieceStarts s.instructionBegin l → ¬ p.head.Relies → Target k) →
    MarksWithin Target s → let s' := runPieces userCallback code size options l s
    PieceEffect s s' ∧ s'.instructionBegin = s.instructionBegin + (l.map Piece.length).sum ∧
      MarksWithin Target s' ∧
      (s'.result = true →
        JumpsRecorded code size s.instructionBegin (l.flatMap Piece.instructions) s'.jumpDests)
  | [], s, _, _, _, _, within => ⟨PieceEffect.refl s, rfl, within,
      fun _ => JumpsRecorded.nil _ _⟩
  | p :: l, s, inside, bundle, words, starts, within => by
    rw [piecesLength_cons] at inside bundle ⊢
    obtain ⟨effect, at_end, accepted⟩ := runPiece_spec code options
      rejects small s p (by omega) (by omega) words
    have unfolded : runPieces userCallback code size options (p :: l) s =
      runPieces userCallback code size options l (runPiece userCallback code size options s p) := rfl
    rw [unfolded]
    generalize runPiece userCallback code size options s p = s₁ at *
    have within₁ : MarksWithin Target s₁ := by
      intro ok k hk
      obtain ⟨marks, relies, _⟩ := accepted ok
      rcases marks k hk with before | here
      · rcases within (effect.result ok) k before with target | atStart
        · exact Or.inl target
        · subst atStart
          refine Or.inl (starts _ p List.mem_cons_self fun reliesHead => ?_)
          rw [relies reliesHead] at hk
          cases hk
      · exact Or.inr (by omega)
    obtain ⟨effect', at_end', within', accepted'⟩ := runPieces_spec rejects small l s₁
      (by omega) (by simp only [kBundleSize] at *; omega) (words.mono effect)
      (fun k q hq => starts k q (by
        rw [at_end] at hq
        exact List.mem_cons_of_mem _ hq)) within₁
    refine ⟨effect.trans effect', by omega, within', fun ok => ?_⟩
    rw [List.flatMap_cons]
    refine JumpsRecorded.append ((accepted (effect'.result ok)).2.2.mono effect') ?_
    have rest := accepted' ok
    rwa [at_end] at rest

/-! ## Bundles -/

theorem checkEndOfBundle_effect (e : Nat) (s : State) :
    PieceEffect s (checkEndOfBundle userCallback e s) ∧
      (checkEndOfBundle userCallback e s).validTargets = s.validTargets ∧
      (checkEndOfBundle userCallback e s).instructionBegin = s.instructionBegin := by
  rw [checkEndOfBundle]
  split_ifs
  · exact ⟨report_effect s _, rfl, rfl⟩
  · exact ⟨report_effect s _, rfl, rfl⟩
  · exact ⟨PieceEffect.refl s, rfl, rfl⟩

/-- A bundle the DFA does not accept is rejected. -/
theorem report_fatal (breaks : RejectsBreaks userCallback) (s : State) (b e : Nat) :
    (s.report userCallback ⟨b, e, unrecognizedInstruction⟩).result = false := by
  rw [State.report, breaks.fatal, Bool.and_false]

theorem runBundle_spec (rejects : RejectsErrors userCallback) (small : size < 2 ^ 63) (dfa : Dfa)
    {c : Nat} (hc : c * kBundleSize + kBundleSize ≤ size) (s : State) (words : Allocated size s)
    (at_start : s.result = true → s.instructionBegin = c * kBundleSize)
    (within : MarksWithin Target s)
    (starts : ∀ k p, (k, p) ∈ pieceStarts (c * kBundleSize) (bundlePieces dfa code c) →
      ¬ p.head.Relies → Target k) :
    let s' := runBundle userCallback code size options dfa (c * kBundleSize)
      (c * kBundleSize + kBundleSize) s
    PieceEffect s s' ∧ (s'.result = true → s'.instructionBegin = c * kBundleSize + kBundleSize ∧
      MarksWithin Target s' ∧
      JumpsRecorded code size (c * kBundleSize)
        ((bundlePieces dfa code c).flatMap Piece.instructions) s'.jumpDests) := by
  unfold runBundle
  have started : PieceEffect s { s with
      instructionBegin := c * kBundleSize, info := 0
      restrictedRegister := extractRestrictedRegisterInitialValue options } :=
    ⟨id, fun _ h => h, rfl⟩
  have at_start₀ : ({ s with
      instructionBegin := c * kBundleSize, info := 0
      restrictedRegister := extractRestrictedRegisterInitialValue options } :
      State).instructionBegin = c * kBundleSize := rfl
  have within₀ : MarksWithin Target { s with
      instructionBegin := c * kBundleSize, info := 0
      restrictedRegister := extractRestrictedRegisterInitialValue options } := by
    intro ok k hk
    rw [← at_start ok]
    exact within ok k hk
  generalize { s with
      instructionBegin := c * kBundleSize, info := 0
      restrictedRegister := extractRestrictedRegisterInitialValue options } = s₀ at *
  dsimp only
  have aligned : c * kBundleSize % kBundleSize = 0 := Nat.mul_mod_left _ _
  unfold bundlePieces at *
  split
  · next pieces total parsed =>
    rw [parsed] at starts ⊢
    have total : (pieces.map Piece.length).sum = kBundleSize := by omega
    obtain ⟨effect, at_end, within', recorded⟩ := runPieces_spec code options
      rejects small pieces s₀ (by omega) (by rw [at_start₀, aligned]; omega) (words.mono started)
      (by rwa [at_start₀]) within₀
    generalize runPieces userCallback code size options pieces s₀ = s₁ at *
    obtain ⟨ended, valid, at_end'⟩ := @checkEndOfBundle_effect userCallback
      (c * kBundleSize + kBundleSize) s₁
    refine ⟨started.trans (effect.trans ended), fun ok => ⟨by omega, fun _ k hk => ?_, ?_⟩⟩
    · rw [valid] at hk
      rw [at_end']
      exact within' (ended.result ok) k hk
    · rw [at_start₀] at recorded
      exact (recorded (ended.result ok)).mono ended
  · next pieces pending pendingLength fits parsed =>
    rw [parsed] at starts
    obtain ⟨effect, _, _, _⟩ := runPieces_spec code options
      rejects small pieces s₀ (by omega) (by rw [at_start₀, aligned]; omega) (words.mono started)
      (by rwa [at_start₀]) within₀
    refine ⟨started.trans (effect.trans ?_), fun ok => ?_⟩
    · exact (runActions_effect code size _ pending _).pieceEffect.trans (report_effect _ _)
    · rw [report_fatal rejects.breaks] at ok
      cases ok

theorem bundleLoop_spec (rejects : RejectsErrors userCallback) (small : size < 2 ^ 63)
    (dfa : Dfa) {n : Nat} (hsize : size = n * kBundleSize) : ∀ (fuel c : Nat) (s : State),
    n ≤ c + fuel → c ≤ n → Allocated size s →
    (s.result = true → s.instructionBegin = c * kBundleSize) →
    MarksWithin (InstructionStart dfa code size) s →
    let s' := bundleLoop userCallback code size options dfa fuel (c * kBundleSize)
      (c * kBundleSize + kBundleSize) s
    PieceEffect s s' ∧ (s'.result = true →
      (∀ k, bitmapIsBitSet s'.validTargets k = true → InstructionStart dfa code size k ∨ k = size) ∧
      ∀ d, c ≤ d → d < n → JumpsRecorded code size (d * kBundleSize)
        ((bundlePieces dfa code d).flatMap Piece.instructions) s'.jumpDests)
  | 0, c, s, enough, hc, _, at_start, within => by
    have last : c = n := by omega
    refine ⟨PieceEffect.refl s, fun ok => ⟨fun k hk => ?_, fun d h₁ h₂ => by omega⟩⟩
    refine (within ok k hk).imp id fun reached => ?_
    rw [reached, at_start ok, last, hsize]
  | fuel + 1, c, s, enough, hc, words, at_start, within => by
    have bundles : size / kBundleSize = n := by rw [hsize, Nat.mul_div_cancel _ (by decide)]
    rw [bundleLoop]
    by_cases more : c * kBundleSize < size
    · have lt : c < n := by
        rw [hsize] at more
        exact Nat.lt_of_mul_lt_mul_right more
      have next_le : c * kBundleSize + kBundleSize ≤ size := by
        rw [hsize, ← Nat.succ_mul]
        exact Nat.mul_le_mul_right _ lt
      rw [if_pos more]
      obtain ⟨effect, accepted⟩ := runBundle_spec code options rejects
        small dfa next_le s words at_start within fun k p hp relies => ⟨c, by omega, p, hp, relies⟩
      generalize runBundle userCallback code size options dfa (c * kBundleSize)
        (c * kBundleSize + kBundleSize) s = s₁ at *
      have next : c * kBundleSize + kBundleSize = (c + 1) * kBundleSize := by rw [Nat.succ_mul]
      rw [next] at accepted ⊢
      obtain ⟨effect', accepted'⟩ := bundleLoop_spec rejects small dfa hsize fuel (c + 1) s₁
        (by omega) lt (words.mono effect) (fun ok => (accepted ok).1)
        (fun ok => (accepted ok).2.1 ok)
      refine ⟨effect.trans effect', fun ok => ?_⟩
      obtain ⟨marks, recorded⟩ := accepted' ok
      refine ⟨marks, fun d h₁ h₂ => ?_⟩
      by_cases here : d = c
      · rw [here]
        exact (accepted (effect'.result ok)).2.2.mono effect'
      · exact recorded d (by omega) h₂
    · have last : c = n := by
        by_contra ne
        have lt : c < n := by omega
        exact more (by
          rw [hsize]
          exact Nat.mul_lt_mul_of_pos_right lt (by decide))
      rw [if_neg more]
      refine ⟨PieceEffect.refl s, fun ok => ⟨fun k hk => ?_, fun d h₁ h₂ => by omega⟩⟩
      refine (within ok k hk).imp id fun reached => ?_
      rw [reached, at_start ok, last, hsize]

/-! ## The final comparison -/

/-- Every recorded jump into `js` has a valid target, or it is reported. -/
def TargetsValid (s : State) (js : Nat → Prop) : Prop :=
  ∀ j, js j → bitmapIsBitSet s.jumpDests j = true → bitmapIsBitSet s.validTargets j = true

theorem report_badJumpTarget (breaks : RejectsBreaks userCallback) (s : State) (j : Nat) :
    (s.report userCallback ⟨j, j, badJumpTarget⟩).result = false := by
  rw [State.report, breaks.jump, Bool.and_false]

/-- A fold of checks that leave the bitmaps alone, each sound for its own addresses, is
    sound for all of them. -/
theorem foldChecks_spec (check : State → Nat → State) (covered : Nat → Nat → Prop)
    (sound : ∀ s i, (check s i).jumpDests = s.jumpDests ∧
      (check s i).validTargets = s.validTargets ∧
      ((check s i).result = true → s.result = true ∧ TargetsValid s (covered i))) :
    ∀ (l : List Nat) (s : State), (l.foldl check s).jumpDests = s.jumpDests ∧
      (l.foldl check s).validTargets = s.validTargets ∧
      ((l.foldl check s).result = true → s.result = true ∧
        TargetsValid s fun j => ∃ i ∈ l, covered i j)
  | [], s => ⟨rfl, rfl, fun ok => ⟨ok, fun j ⟨i, hi, _⟩ => by cases hi⟩⟩
  | i :: l, s => by
    obtain ⟨jumps, valid, here⟩ := sound s i
    obtain ⟨jumps', valid', rest⟩ := foldChecks_spec check covered sound l (check s i)
    rw [List.foldl_cons]
    refine ⟨jumps'.trans jumps, valid'.trans valid, fun ok => ?_⟩
    obtain ⟨ok', restValid⟩ := rest ok
    obtain ⟨ok'', hereValid⟩ := here ok'
    refine ⟨ok'', fun j ⟨i', hi', hj⟩ set => ?_⟩
    rcases List.mem_cons.mp hi' with rfl | hi'
    · exact hereValid j hj set
    · have := restValid j ⟨i', hi', hj⟩
      rw [jumps, valid] at this
      exact this set

theorem reportInvalidTargets_spec (breaks : RejectsBreaks userCallback) (i : Nat) (s : State) :
    let s' := reportInvalidTargets userCallback i s
    s'.jumpDests = s.jumpDests ∧ s'.validTargets = s.validTargets ∧
      (s'.result = true → s.result = true ∧ TargetsValid s fun j => j / 64 = i) := by
  obtain ⟨jumps, valid, accepted⟩ := foldChecks_spec
    (fun s j =>
      if bitmapIsBitSet s.jumpDests j && !bitmapIsBitSet s.validTargets j then
        s.report userCallback ⟨j, j, badJumpTarget⟩
      else s)
    (fun i j => j = i)
    (fun s j => by
      split
      · refine ⟨rfl, rfl, fun ok => ?_⟩
        rw [report_badJumpTarget breaks] at ok
        cases ok
      · next clean =>
        refine ⟨rfl, rfl, fun ok => ⟨ok, ?_⟩⟩
        rintro _ rfl set
        by_contra invalid
        exact clean (by rw [set, eq_false_of_ne_true invalid]; rfl))
    (List.range' (i * naclHostWordsize) naclHostWordsize) s
  refine ⟨jumps, valid, fun ok => ⟨(accepted ok).1, fun j hj => (accepted ok).2 j ⟨j, ?_, rfl⟩⟩⟩
  rw [List.mem_range'_1]
  simp only [naclHostWordsize]
  omega

/-- A run of the final check that ends well has found every recorded jump valid. -/
theorem processInvalidJumpTargets_spec (breaks : RejectsBreaks userCallback) (s : State)
    (ok : (processInvalidJumpTargets userCallback size s).result = true) :
    s.result = true ∧ TargetsValid s fun j => j < size := by
  obtain ⟨_, _, accepted⟩ := foldChecks_spec
    (fun s i =>
      if s.jumpDests.word i &&& ~~~(s.validTargets.word i) ≠ 0 then
        reportInvalidTargets userCallback i s
      else s)
    (fun i j => j / 64 = i)
    (fun s i => by
      split
      · exact reportInvalidTargets_spec breaks i s
      · next clean =>
        refine ⟨rfl, rfl, fun ok => ⟨ok, ?_⟩⟩
        rintro j rfl set
        rw [bitmapIsBitSet_eq] at set ⊢
        have zero := congrArg (fun w : BitmapWord => w.getLsbD (j % 64)) (not_not.mp clean)
        have lt : j % 64 < 64 := Nat.mod_lt _ (by decide)
        simpa [set, lt] using zero)
    (List.range ((size + naclHostWordsize - 1) / naclHostWordsize)) s
  obtain ⟨ok', valid⟩ := accepted ok
  refine ⟨ok', fun j hj => valid j ⟨j / 64, ?_, rfl⟩⟩
  rw [List.mem_range]
  simp only [naclHostWordsize]
  omega

end Pieces

/-! ## Soundness -/

/-- In a chunk that passes bundle by bundle, with a callback that rejects errors, every
    direct jump goes to a bundle boundary or to the first byte, inside the chunk, of a piece
    that does not rely on a register restricted before it. -/
theorem validateChunkAMD64_directJumps {userCallback : Callback}
    (rejects : RejectsErrors userCallback) (dfa : Dfa) (allocated : Bool)
    (code : Nat → BitVec 8) {size : Nat} (small : size < 2 ^ 63) {options : Options}
    (bundles : options &&& processChunkAsAContiguousStream = 0)
    (accepted : validateChunkAMD64 userCallback dfa allocated code size options = some true)
    (target : Int) (jump : DirectJump dfa code size target) :
    (kBundleSize : Int) ∣ target ∨
      ∃ k : Nat, target = k ∧ k < size ∧ InstructionStart dfa code size k := by
  unfold validateChunkAMD64 at accepted
  split at accepted
  · cases accepted
  next multiple =>
  split at accepted
  · cases accepted
  simp only [bundles, ne_eq, not_true_eq_false, if_false, Option.some.injEq] at accepted
  obtain ⟨n, hsize⟩ : ∃ n, size = n * kBundleSize :=
    ⟨size / kBundleSize, (Nat.div_mul_cancel (Nat.dvd_of_mod_eq_zero (not_not.mp multiple))).symm⟩
  generalize hs₀ : (⟨bitmapAllocate (size + 1), bitmapAllocate (size + 1), true, [], 0, 0,
    ncNoReg⟩ : State) = s₀ at accepted
  have words : Allocated size s₀ := by
    subst hs₀
    simp only [Allocated, bitmapAllocate, List.length_replicate, naclHostWordsize]
    omega
  have start : s₀.instructionBegin = 0 * kBundleSize := by
    subst hs₀
    rfl
  have within : MarksWithin (InstructionStart dfa code size) s₀ := by
    subst hs₀
    intro _ k hk
    simp at hk
  have enough : n ≤ 0 + size := by
    rw [hsize, Nat.zero_add]
    exact Nat.le_mul_of_pos_right n (by decide)
  obtain ⟨_, ran⟩ := bundleLoop_spec code options rejects small dfa hsize size 0 s₀ enough
    (Nat.zero_le n) words (fun _ => start) within
  rw [Nat.zero_mul, Nat.zero_add] at ran
  obtain ⟨ok, valid⟩ := processInvalidJumpTargets_spec rejects.breaks _ accepted
  obtain ⟨marks, recorded⟩ := ran ok
  obtain ⟨c, hc, e, i, hi, a, ha, jump⟩ := jump
  have hc : c < n := by rwa [hsize, Nat.mul_div_cancel _ (by decide)] at hc
  rcases recorded c (Nat.zero_le c) hc e i hi a ha target jump with aligned | ⟨k, eq, lt, set⟩
  · exact Or.inl aligned
  · refine Or.inr ⟨k, eq, lt, ?_⟩
    rcases marks k (valid k lt set) with start | atEnd
    · exact start
    · omega

/-- A DFA for one bundle: a two-byte jump, a three-byte instruction, and a `nop` that fills
    the bundle. -/
def jumpBundle : Dfa := fun _ start stop =>
  if total : stop - start = kBundleSize then
    .accept [.single ⟨2, Nat.zero_lt_two, [.rel8Operand]⟩, .single ⟨3, by decide, [.process0Operands]⟩,
      .single ⟨27, by decide, [.process0Operands]⟩] (by rw [total]; rfl)
  else .error [] [] 0 (nothing_within start stop)

/-- The bytes `eb 03 …`: the jump goes to the `nop`. -/
def jumpBundleCode (i : Nat) : BitVec 8 := if i = 0 then 0xeb else if i = 1 then 3 else 0x90

theorem validateChunkAMD64_directJumps_jumpBundle :
    (kBundleSize : Int) ∣ 5 ∨
      ∃ k : Nat, (5 : Int) = k ∧ k < 32 ∧ InstructionStart jumpBundle jumpBundleCode 32 k :=
  @validateChunkAMD64_directJumps (fun _ _ => false) (fun _ _ _ => rfl) jumpBundle true
    jumpBundleCode 32 (by decide) 0 (by decide) (by decide +kernel) 5
    ⟨0, by decide, 2, ⟨2, by decide, [.rel8Operand]⟩, by simp [bundlePieces, jumpBundle,
      kBundleSize, Parse.pieces, Piece.instructions, instructionEnds], .rel8Operand, by simp,
      by decide +kernel⟩

end SandboxTEE.Validator
