import SandboxTEE.Validator.Acceptance

/-! # Registers of a single instruction

The grammar behind the DFA gives each instruction one action that processes its written
operands, or that restores `%rbp` or `%rsp`; memory accesses are checked before it
(`Instruction.Regular`, `Instruction.Sandboxes`).  For such an instruction, clean bits say
what it does to the sandbox registers (`Instruction.Regular.clean`,
`Instruction.Sandboxes.clean`).
-/

namespace SandboxTEE.Validator

/-! ## Operand states -/

/-- Two disjoint fields can be taken out of their union. -/
theorem or_fields {low high name kind : BitVec 32} (disjoint : low &&& high = 0#32)
    (inLow : name &&& low = name) (inHigh : kind &&& high = kind) :
    (kind ||| name) &&& high = kind ∧ (kind ||| name) &&& low = name := by
  have nameHigh : name &&& high = 0#32 := by
    rw [← inLow, BitVec.and_assoc, disjoint, BitVec.and_zero]
  have kindLow : kind &&& low = 0#32 := by
    rw [← inHigh, BitVec.and_assoc, BitVec.and_comm high, disjoint, BitVec.and_zero]
  constructor
  · rw [BitVec.and_or_distrib_right, nameHigh, inHigh, BitVec.or_zero]
  · rw [BitVec.and_or_distrib_right, kindLow, inLow, BitVec.zero_or]

variable {name : BitVec 32}

variable {kind v : BitVec 32}

/-- Two disjoint fields are compared separately. -/
theorem and_or_eq_or_iff {low high : BitVec 32} (disjoint : low &&& high = 0#32)
    (inLow : name &&& low = name) (inHigh : kind &&& high = kind) :
    v &&& (low ||| high) = kind ||| name ↔ v &&& high = kind ∧ v &&& low = name := by
  obtain ⟨isKind, isName⟩ := or_fields disjoint inLow inHigh
  obtain ⟨absorbLow, absorbHigh⟩ := @or_fields high low high low
    (by rwa [BitVec.and_comm]) (BitVec.and_self) (BitVec.and_self)
  constructor
  · intro both
    constructor
    · rw [← absorbHigh, ← BitVec.and_assoc, both, isKind]
    · rw [← absorbLow, ← BitVec.and_assoc, both, isName]
  · rintro ⟨rfl, rfl⟩
    rw [BitVec.and_or_distrib_left, BitVec.or_comm]

variable {mask field : BitVec 32} {n : Nat}

/-- A field that is compared where it stands may be shifted down first. -/
theorem and_shiftLeft_eq_iff (maskFits : (mask <<< n) >>> n = mask)
    (fieldFits : (field <<< n) >>> n = field) :
    v &&& (mask <<< n) = field <<< n ↔ (v >>> n) &&& mask = field := by
  constructor
  · intro shifted
    rw [← fieldFits, ← shifted, BitVec.ushiftRight_and_distrib, maskFits]
  · rintro rfl
    apply BitVec.eq_of_getLsbD_eq
    intro i hi
    by_cases below : i < n
    · simp [below]
    · have here : n + (i - n) = i := by omega
      simp [below, hi, here]

/-- A field that is low enough survives the shift. -/
theorem shiftLeft_ushiftRight_eq (inMask : field &&& mask = field)
    (low : mask &&& (BitVec.allOnes 32 >>> n) = mask) : (field <<< n) >>> n = field := by
  apply BitVec.eq_of_getLsbD_eq
  intro i hi
  have small : field &&& (BitVec.allOnes 32 >>> n) = field := by
    rw [← inMask, BitVec.and_assoc, low]
  have inRange := congrArg (fun v : BitVec 32 => v.getLsbD i) small
  simp only [BitVec.getLsbD_and, BitVec.getLsbD_ushiftRight, BitVec.getLsbD_allOnes,
    BitVec.getLsbD_shiftLeft] at inRange ⊢
  by_cases h : n + i < 32
  · simp [h]
  · simp [h] at inRange
    simp [h, inRange]

variable {states : BitVec 32} {index : Nat}

theorem checkOperand_iff (known : index < 2) (isName : name &&& ncRegMask = name)
    (isKind : kind &&& operandKindMask = kind) : checkOperand states index name kind = true ↔
      (states >>> (index <<< 3)) &&& operandKindMask = kind ∧
        getOperandName states index = name := by
  have disjoint : ncRegMask &&& operandKindMask = 0#32 := by decide
  have within : (kind ||| name) &&& (ncRegMask ||| operandKindMask) = kind ||| name := by
    rw [and_or_eq_or_iff disjoint isName isKind]
    exact or_fields disjoint isName isKind
  have low : (ncRegMask ||| operandKindMask) &&& (BitVec.allOnes 32 >>> (index <<< 3)) =
      ncRegMask ||| operandKindMask := by
    obtain rfl | rfl : index = 0 ∨ index = 1 := by omega
    · decide
    · decide
  rw [getOperandName, ← and_or_eq_or_iff disjoint isName isKind, checkOperand, beq_iff_eq]
  exact and_shiftLeft_eq_iff (shiftLeft_ushiftRight_eq (BitVec.and_self) low)
    (shiftLeft_ushiftRight_eq within low)

theorem checkOperandRestricted_iff (known : index < 2) :
    checkOperandRestricted states index = true ↔
      (states >>> (index <<< 3)) &&& operandKindMask = operandSandboxRestricted := by
  rw [checkOperandRestricted, beq_iff_eq]
  obtain rfl | rfl : index = 0 ∨ index = 1 := by omega
  · exact and_shiftLeft_eq_iff (by decide) (by decide)
  · exact and_shiftLeft_eq_iff (by decide) (by decide)

/-- A zero-extended register is the name of a restricted operand. -/
theorem checkOperand_restricted (known : index < 2) (isName : name &&& ncRegMask = name) :
    checkOperand states index name operandSandboxRestricted = true ↔
      checkOperandRestricted states index = true ∧ getOperandName states index = name := by
  rw [checkOperandRestricted_iff known]
  exact checkOperand_iff known isName (by decide)

theorem getOperandName_masked (states : BitVec 32) (index : Nat) :
    getOperandName states index &&& ncRegMask = getOperandName states index := by
  rw [getOperandName, BitVec.and_assoc, BitVec.and_self]

/-! ## What actions say about registers -/

/-- The written operands an action processes, by their states and index. -/
def Action.operands : Action → List (BitVec 32 × Nat)
  | .process1Operand _ states => [(states, 0)]
  | .process1OperandZeroExtends _ states => [(states, 0)]
  | .process2Operands _ states => [(states, 0), (states, 1)]
  | .process2OperandsZeroExtends _ states => [(states, 0), (states, 1)]
  | _ => []

def Action.Modifies (a : Action) (name : OperandName) : Prop :=
  ∃ o ∈ a.operands, ∃ kind ∈ [operandSandbox8Bit, operandSandboxRestricted,
    operandSandboxUnrestricted], checkOperand o.1 o.2 name kind = true

/-- The action is of an instruction that zero-extends a 32-bit result into `name`. -/
def Action.ZeroExtends (name : OperandName) : Action → Prop
  | .process1OperandZeroExtends _ states =>
    checkOperand states 0 name operandSandboxRestricted = true
  | .process2OperandsZeroExtends _ states =>
    checkOperand states 0 name operandSandboxRestricted = true ∨
      checkOperand states 1 name operandSandboxRestricted = true
  | _ => False

/-- The action restores `register` from its zero-extended value. -/
def Action.Sandboxes (register : OperandName) : Action → Prop
  | .rbpSandboxing => register = ncRegRbp
  | .rspSandboxing => register = ncRegRsp
  | _ => False

def Action.Processes : Action → Prop
  | .process0Operands => True
  | .process1Operand _ _ => True
  | .process1OperandZeroExtends _ _ => True
  | .process2Operands _ _ => True
  | .process2OperandsZeroExtends _ _ => True
  | _ => False

def Action.Jumps : Action → Prop
  | .rel8Operand => True
  | .rel32Operand => True
  | _ => False

def Action.Collects : Action → Prop
  | .collectInfo _ => True
  | _ => False

/-- What stands before the action that processes the operands. -/
def Action.Prepares (a : Action) : Prop :=
  a.Collects ∨ a.Jumps ∨ ∃ base index, a = .checkMemoryAccess base index

def Instruction.Modifies (i : Instruction) (name : OperandName) : Prop :=
  ∃ a ∈ i.actions, a.Modifies name

def Instruction.ZeroExtends (i : Instruction) (name : OperandName) : Prop :=
  ∃ a ∈ i.actions, a.ZeroExtends name

def Instruction.Sandboxes (i : Instruction) (register : OperandName) : Prop :=
  ∃ a ∈ i.actions, a.Sandboxes register

def Instruction.Jumps (i : Instruction) : Prop := ∃ a ∈ i.actions, a.Jumps

/-! ## What the grammar gives -/

/-- `one_instruction`: the operands are processed at its end, once; direct jumps have none. -/
structure Instruction.Regular (i : Instruction) (process : Action) : Prop where
  processes : process.Processes
  actions : ∃ before after, i.actions = before ++ process :: after ∧
    (∀ a ∈ before, a.Prepares) ∧
    ∀ a ∈ after, a.Collects
  jumps : i.Jumps → process = .process0Operands

/-- `rbp_sandboxing` and `rsp_sandboxing`. -/
structure Instruction.Restores (i : Instruction) (sandboxing : Action) : Prop where
  sandboxes : ∃ register, sandboxing.Sandboxes register
  actions : ∃ before after, i.actions = before ++ sandboxing :: after ∧
    (∀ a ∈ before, a.Collects) ∧ ∀ a ∈ after, a.Collects

/-- An instruction of its own, or a component of a superinstruction. -/
inductive Instruction.WellReported (i : Instruction) : Prop where
  | regular (process : Action) (shape : i.Regular process)
  | restores (sandboxing : Action) (shape : i.Restores sandboxing)

/-- The instruction leaves no register restricted. -/
def Instruction.Releases (i : Instruction) : Prop := ∀ name, ¬ i.ZeroExtends name

/-- The shape of the pieces that the grammar in `validator_x86_64.rl` and `gen_dfa.py` describes. -/
def Piece.WellReported : Piece → Prop
  | .single i => i.WellReported
  | .super first others last _ =>
    (∀ i ∈ first :: others, i.WellReported) ∧
      ((first :: others).getLast (List.cons_ne_nil _ _)).Releases ∧
      ∀ a ∈ last.actions, a.Collects

def Dfa.WellReporting (dfa : Dfa) : Prop :=
  ∀ code start stop, ∀ p ∈ (dfa code start stop).pieces, p.WellReported

/-! ## Clean effects -/

theorem actionsEffect_append (code : Nat → BitVec 8) (rip : Nat) (restricted : OperandName)
    (l l' : List Action) : actionsEffect code rip restricted (l ++ l') =
      (actionsEffect code rip restricted l).andThen
        (actionsEffect code rip (actionsEffect code rip restricted l).restricted l') := by
  induction l generalizing restricted with
  | nil => simp [actionsEffect, Effect.none, Effect.andThen]
  | cons a l ih =>
    simp only [List.cons_append, actionsEffect, ih]
    simp only [Effect.andThen, BitVec.or_assoc, Bool.or_assoc, List.append_assoc]

def Effect.Clean (e : Effect) : Prop := e.info &&& validationErrorsMask = 0

variable {restricted : OperandName}

theorem checkValidity_clean
    (clean : checkValidityOfRegularInstruction restricted &&& validationErrorsMask = 0) :
    restricted ≠ ncRegRbp ∧ restricted ≠ ncRegRsp := by
  constructor
  · rintro rfl
    exact absurd clean (by decide)
  · rintro rfl
    exact absurd clean (by decide)

theorem bitsIf_clean {condition : Bool} {bits : Info} (error : bits &&& validationErrorsMask ≠ 0)
    (clean : bitsIf condition bits &&& validationErrorsMask = 0) : condition = false := by
  cases condition with
  | false => rfl
  | true => exact absurd clean error

theorem checkOperandR15Modified_eq_false
    (unmodified : checkOperandR15Modified states index = false) :
    ∀ kind ∈ [operandSandbox8Bit, operandSandboxRestricted, operandSandboxUnrestricted],
      checkOperand states index ncRegR15 kind ≠ true := by
  simpa [checkOperandR15Modified, and_assoc] using unmodified

/-- A register that is restricted afterwards has been zero-extended. -/
theorem zeroExtends_of_restricted (known : index < 2)
    (name_eq : (if checkOperandRestricted states index then getOperandName states index
      else ncNoReg) = name) (restricted : name ≠ ncNoReg) :
    checkOperand states index name operandSandboxRestricted = true := by
  split at name_eq
  · next found =>
    rw [checkOperand_restricted known (name_eq ▸ getOperandName_masked states index)]
    exact ⟨found, name_eq⟩
  · exact absurd name_eq.symm restricted

/-- What a clean regular instruction does, when `restricted` was restricted before it. -/
structure Action.ProcessesCleanly (a : Action) (restricted after : OperandName) : Prop where
  before : restricted ≠ ncRegRbp ∧ restricted ≠ ncRegRsp
  r15 : ¬ a.Modifies ncRegR15
  extends_of_restricted : after ≠ ncNoReg → a.ZeroExtends after
  restricted_of_extends : ∀ name, name = ncRegRbp ∨ name = ncRegRsp → a.ZeroExtends name →
    after = name

variable {a : Action} {code : Nat → BitVec 8} {rip : Nat}

theorem Action.Processes.clean (processes : a.Processes)
    (clean : (a.effect code rip restricted).Clean) :
    a.ProcessesCleanly restricted (a.effect code rip restricted).restricted := by
  have one : ∀ {states : BitVec 32}, checkOperandR15Modified states 0 = false →
      ∀ o ∈ [(states, 0)], ∀ kind ∈ [operandSandbox8Bit, operandSandboxRestricted,
        operandSandboxUnrestricted], checkOperand o.1 o.2 ncRegR15 kind ≠ true := by
    intro states unmodified
    exact List.forall_mem_singleton.mpr (checkOperandR15Modified_eq_false unmodified)
  have two : ∀ {states : BitVec 32}, (checkOperandR15Modified states 0 ||
      checkOperandR15Modified states 1) = false →
      ∀ o ∈ [(states, 0), (states, 1)], ∀ kind ∈ [operandSandbox8Bit, operandSandboxRestricted,
        operandSandboxUnrestricted], checkOperand o.1 o.2 ncRegR15 kind ≠ true := by
    intro states unmodified
    obtain ⟨first, second⟩ := Bool.or_eq_false_iff.mp unmodified
    exact List.forall_mem_cons.mpr ⟨checkOperandR15Modified_eq_false first,
      List.forall_mem_singleton.mpr (checkOperandR15Modified_eq_false second)⟩
  have masked : ∀ {name : OperandName}, name = ncRegRbp ∨ name = ncRegRsp →
      name &&& ncRegMask = name := by
    rintro name (rfl | rfl) <;> decide
  cases a with
  | process0Operands =>
    simp only [Effect.Clean, Action.effect, Effect.ofProcess, Validator.process0Operands,
      or_and_eq_zero] at clean
    exact {
      before := checkValidity_clean clean.2
      r15 := by
        rintro ⟨o, mem, _⟩
        cases mem
      extends_of_restricted := fun ne => absurd rfl ne
      restricted_of_extends := fun _ _ extended => extended.elim }
  | process1Operand rex states =>
    simp only [Effect.Clean, Action.effect, Effect.ofProcess, Validator.process1Operand,
      or_and_eq_zero] at clean
    obtain ⟨⟨⟨⟨_, valid⟩, r15⟩, _⟩, _⟩ := clean
    exact {
      before := checkValidity_clean valid
      r15 := by
        rintro ⟨o, mem, kind, isKind, modified⟩
        exact one (bitsIf_clean (by decide) r15) o mem kind isKind modified
      extends_of_restricted := fun ne => absurd rfl ne
      restricted_of_extends := fun _ _ extended => extended.elim }
  | process1OperandZeroExtends rex states =>
    simp only [Effect.Clean, Action.effect, Effect.ofProcess, Validator.process1OperandZeroExtends,
      or_and_eq_zero] at clean
    obtain ⟨⟨⟨⟨_, valid⟩, r15⟩, _⟩, _⟩ := clean
    exact {
      before := checkValidity_clean valid
      r15 := by
        rintro ⟨o, mem, kind, isKind, modified⟩
        exact one (bitsIf_clean (by decide) r15) o mem kind isKind modified
      extends_of_restricted := zeroExtends_of_restricted (by decide) rfl
      restricted_of_extends := fun name isName extended => by
        obtain ⟨found, name_eq⟩ :=
          (checkOperand_restricted (by decide) (masked isName)).mp extended
        simp only [Action.effect, Effect.ofProcess, Validator.process1OperandZeroExtends]
        rw [if_pos found, name_eq] }
  | process2Operands rex states =>
    simp only [Effect.Clean, Action.effect, Effect.ofProcess, Validator.process2Operands,
      or_and_eq_zero] at clean
    obtain ⟨⟨⟨⟨_, valid⟩, r15⟩, _⟩, _⟩ := clean
    exact {
      before := checkValidity_clean valid
      r15 := by
        rintro ⟨o, mem, kind, isKind, modified⟩
        exact two (bitsIf_clean (by decide) r15) o mem kind isKind modified
      extends_of_restricted := fun ne => absurd rfl ne
      restricted_of_extends := fun _ _ extended => extended.elim }
  | process2OperandsZeroExtends rex states =>
    simp only [Effect.Clean, Action.effect, Effect.ofProcess,
      Validator.process2OperandsZeroExtends] at clean ⊢
    by_cases first : checkOperandRestricted states 0 = true
    · -- the first operand counts, so the second must not be one that needs sandboxing
      simp only [first, if_true, or_and_eq_zero] at clean ⊢
      obtain ⟨⟨⟨⟨⟨⟨_, valid⟩, r15⟩, _⟩, _⟩, rsp⟩, rbp⟩ := clean
      exact {
        before := checkValidity_clean valid
        r15 := by
          rintro ⟨o, mem, kind, isKind, modified⟩
          exact two (bitsIf_clean (by decide) r15) o mem kind isKind modified
        extends_of_restricted := fun _ => Or.inl ((checkOperand_restricted (by decide)
          (getOperandName_masked states 0)).mpr ⟨first, rfl⟩)
        restricted_of_extends := fun name isName extended => by
          rcases extended with here | second
          · exact ((checkOperand_restricted (by decide) (masked isName)).mp here).2
          · rcases isName with rfl | rfl
            · exact absurd (bitsIf_clean (by decide) rbp) (Bool.not_eq_false _ ▸ second)
            · exact absurd (bitsIf_clean (by decide) rsp) (Bool.not_eq_false _ ▸ second) }
    · simp only [first, Bool.false_eq_true, if_false, or_and_eq_zero] at clean ⊢
      obtain ⟨⟨⟨⟨_, valid⟩, r15⟩, _⟩, _⟩ := clean
      exact {
        before := checkValidity_clean valid
        r15 := by
          rintro ⟨o, mem, kind, isKind, modified⟩
          exact two (bitsIf_clean (by decide) r15) o mem kind isKind modified
        extends_of_restricted := fun ne => Or.inr (zeroExtends_of_restricted (by decide) rfl ne)
        restricted_of_extends := fun name isName extended => by
          rcases extended with here | second
          · exact absurd ((checkOperand_restricted (by decide) (masked isName)).mp here).1 first
          · obtain ⟨found, name_eq⟩ :=
              (checkOperand_restricted (by decide) (masked isName)).mp second
            rw [if_pos found, name_eq] }
  | collectInfo bits => exact processes.elim
  | rel8Operand => exact processes.elim
  | rel32Operand => exact processes.elim
  | checkMemoryAccess base index => exact processes.elim
  | rbpSandboxing => exact processes.elim
  | rspSandboxing => exact processes.elim

variable {register : OperandName}

theorem Action.Sandboxes.clean (sandboxes : a.Sandboxes register)
    (clean : (a.effect code rip restricted).Clean) :
    restricted = register ∧ (a.effect code rip restricted).unmarks = true ∧
      (a.effect code rip restricted).restricted = ncNoReg := by
  cases a with
  | rbpSandboxing =>
    obtain rfl : register = ncRegRbp := sandboxes
    refine ⟨?_, rfl, rfl⟩
    by_contra ne
    simp only [Effect.Clean, Action.effect, if_neg ne] at clean
    exact absurd clean (by decide)
  | rspSandboxing =>
    obtain rfl : register = ncRegRsp := sandboxes
    refine ⟨?_, rfl, rfl⟩
    by_contra ne
    simp only [Effect.Clean, Action.effect, if_neg ne] at clean
    exact absurd clean (by decide)
  | _ => exact sandboxes.elim

theorem checkMemoryAccess_clean {base index : OperandName}
    (clean : ((Action.checkMemoryAccess base index).effect code rip restricted).Clean) :
    (base = ncRegRip ∨ base = ncRegR15 ∨ base = ncRegRsp ∨ base = ncRegRbp) ∧
      (index ≠ ncNoReg → index ≠ ncRegRiz → index = restricted ∧
        ((Action.checkMemoryAccess base index).effect code rip restricted).unmarks = true) := by
  simp only [Effect.Clean, Action.effect] at clean ⊢
  split at clean
  · next allowed =>
    refine ⟨allowed, fun noReg riz => ?_⟩
    rw [if_pos allowed]
    rw [if_neg (not_or.mpr ⟨noReg, riz⟩)] at clean ⊢
    split at clean
    · next used => exact ⟨used, by rw [if_pos used]⟩
    · exact absurd clean (by dsimp only; decide)
  · exact absurd clean (by dsimp only; decide)

theorem Effect.andThen_clean {e e' : Effect} :
    (e.andThen e').Clean ↔ e.Clean ∧ e'.Clean := or_and_eq_zero

/-- Actions that do not touch the restricted register all see the same one. -/
theorem actionsEffect_keeps {l : List Action}
    (keeps : ∀ a ∈ l, (a.effect code rip restricted).restricted = restricted) :
    (actionsEffect code rip restricted l).restricted = restricted ∧
      ((actionsEffect code rip restricted l).Clean →
        ∀ a ∈ l, (a.effect code rip restricted).Clean) ∧
      ∀ a ∈ l, (a.effect code rip restricted).unmarks = true →
        (actionsEffect code rip restricted l).unmarks = true := by
  induction l with
  | nil => exact ⟨rfl, fun _ => List.forall_mem_nil _, List.forall_mem_nil _⟩
  | cons a l ih =>
    obtain ⟨here, rest⟩ := List.forall_mem_cons.mp keeps
    obtain ⟨restricted_eq, clean, unmarks⟩ := ih rest
    rw [actionsEffect, here]
    refine ⟨restricted_eq, fun both => ?_, ?_⟩
    · obtain ⟨cleanHere, cleanRest⟩ := Effect.andThen_clean.mp both
      exact List.forall_mem_cons.mpr ⟨cleanHere, clean cleanRest⟩
    · refine List.forall_mem_cons.mpr ⟨fun marked => ?_, fun b mem marked => ?_⟩
      · simp [Effect.andThen, marked]
      · simp [Effect.andThen, unmarks b mem marked]

/-! ## Clean instructions -/

/-- What a clean instruction does to the sandbox registers, when `before` was restricted
    before it and it has the effect `e`. -/
structure Instruction.Obeys (i : Instruction) (before : OperandName) (e : Effect) : Prop where
  r15 : ¬ i.Modifies ncRegR15
  base : ∀ base index, .checkMemoryAccess base index ∈ i.actions →
    base = ncRegRip ∨ base = ncRegR15 ∨ base = ncRegRsp ∨ base = ncRegRbp
  index : ∀ base index, .checkMemoryAccess base index ∈ i.actions → index ≠ ncNoReg →
    index ≠ ncRegRiz → index = before ∧ e.unmarks = true
  extended : e.restricted ≠ ncNoReg → i.ZeroExtends e.restricted
  restricts : ∀ name, name = ncRegRbp ∨ name = ncRegRsp → i.ZeroExtends name → e.restricted = name
  sandboxes : ∀ register, i.Sandboxes register → before = register ∧ e.unmarks = true
  restores : before = ncRegRbp ∨ before = ncRegRsp → i.Sandboxes before
  jumps : i.Jumps → e.restricted = ncNoReg

theorem Action.Prepares.keeps (prepares : a.Prepares) (code : Nat → BitVec 8) (rip : Nat)
    (restricted : OperandName) : (a.effect code rip restricted).restricted = restricted := by
  cases a with
  | collectInfo bits => rfl
  | rel8Operand => rfl
  | rel32Operand => rfl
  | checkMemoryAccess base index =>
    simp only [Action.effect]
    split_ifs <;> rfl
  | _ => simp [Action.Prepares, Action.Collects, Action.Jumps] at prepares

theorem not_modifies (none : a.operands = []) (name : OperandName) : ¬ a.Modifies name := by
  rintro ⟨o, mem, _⟩
  rw [none] at mem
  cases mem

theorem Action.Prepares.silent (prepares : a.Prepares) (name : OperandName) :
    ¬ a.Modifies name ∧ ¬ a.ZeroExtends name ∧ ¬ a.Sandboxes name := by
  cases a with
  | collectInfo bits => exact ⟨not_modifies rfl name, id, id⟩
  | rel8Operand => exact ⟨not_modifies rfl name, id, id⟩
  | rel32Operand => exact ⟨not_modifies rfl name, id, id⟩
  | checkMemoryAccess base index => exact ⟨not_modifies rfl name, id, id⟩
  | _ => simp [Action.Prepares, Action.Collects, Action.Jumps] at prepares

/-- The effect of `before ++ main :: after`, of which `main` alone touches the restricted
    register. -/
theorem actionsEffect_main {code : Nat → BitVec 8} {rip : Nat} {restricted : OperandName}
    {before after : List Action} {main : Action} (early : ∀ a ∈ before, a.Prepares)
    (late : ∀ a ∈ after, a.Collects) :
    let e := actionsEffect code rip restricted (before ++ main :: after)
    let m := main.effect code rip restricted
    e.restricted = m.restricted ∧ (m.unmarks = true → e.unmarks = true) ∧
      (∀ a ∈ before, (a.effect code rip restricted).unmarks = true → e.unmarks = true) ∧
      (e.Clean → m.Clean ∧ ∀ a ∈ before, (a.effect code rip restricted).Clean) := by
  obtain ⟨restrictedEarly, cleanEarly, unmarksEarly⟩ :=
    actionsEffect_keeps fun a mem => (early a mem).keeps code rip restricted
  obtain ⟨restrictedLate, _, _⟩ := actionsEffect_keeps fun a mem =>
    Action.Prepares.keeps (Or.inl (late a mem)) code rip (main.effect code rip restricted).restricted
  simp only [actionsEffect_append, actionsEffect, restrictedEarly, Effect.andThen_clean]
  refine ⟨restrictedLate, fun marked => ?_, fun a mem marked => ?_, fun clean =>
    ⟨clean.2.1, cleanEarly clean.1⟩⟩
  · simp [Effect.andThen, marked]
  · simp [Effect.andThen, unmarksEarly a mem marked]

variable {i : Instruction}

theorem Instruction.Regular.obeys {process : Action} (shape : i.Regular process)
    (clean : (actionsEffect code rip restricted i.actions).Clean) :
    i.Obeys restricted (actionsEffect code rip restricted i.actions) := by
  obtain ⟨processes, ⟨before, after, actions, early, late⟩, jumps⟩ := shape
  obtain ⟨restricted_eq, _, unmarks, cleans⟩ :=
    @actionsEffect_main code rip restricted before after process early late
  rw [← actions] at restricted_eq unmarks cleans
  obtain ⟨cleanProcess, cleanEarly⟩ := cleans clean
  have processed := processes.clean cleanProcess
  rw [← restricted_eq] at processed
  generalize actionsEffect code rip restricted i.actions = e at *
  have mem_iff : ∀ {a}, a ∈ i.actions ↔ a ∈ before ∨ a = process ∨ a ∈ after := by
    intro a
    rw [actions, List.mem_append, List.mem_cons]
  have noSandboxing : ∀ name, ¬ i.Sandboxes name := by
    rintro name ⟨a, mem, sandboxes⟩
    rcases mem_iff.mp mem with mem | rfl | mem
    · exact ((early a mem).silent name).2.2 sandboxes
    · cases a <;> first | exact processes.elim | exact sandboxes.elim
    · exact (Action.Prepares.silent (Or.inl (late a mem)) name).2.2 sandboxes
  have extends_iff : ∀ name, i.ZeroExtends name ↔ process.ZeroExtends name := by
    intro name
    constructor
    · rintro ⟨a, mem, extended⟩
      rcases mem_iff.mp mem with mem | rfl | mem
      · exact absurd extended ((early a mem).silent name).2.1
      · exact extended
      · exact absurd extended (Action.Prepares.silent (Or.inl (late a mem)) name).2.1
    · exact fun extended => ⟨process, mem_iff.mpr (Or.inr (Or.inl rfl)), extended⟩
  have access : ∀ base index, .checkMemoryAccess base index ∈ i.actions →
      .checkMemoryAccess base index ∈ before := by
    intro base index mem
    rcases mem_iff.mp mem with mem | rfl | mem
    · exact mem
    · exact processes.elim
    · exact (late _ mem).elim
  exact {
    r15 := by
      rintro ⟨a, mem, modified⟩
      rcases mem_iff.mp mem with mem | rfl | mem
      · exact ((early a mem).silent _).1 modified
      · exact processed.r15 modified
      · exact (Action.Prepares.silent (Or.inl (late a mem)) _).1 modified
    base := fun base index mem =>
      (checkMemoryAccess_clean (cleanEarly _ (access base index mem))).1
    index := fun base index mem noReg riz => by
      have here := access base index mem
      obtain ⟨used, marked⟩ := (checkMemoryAccess_clean (cleanEarly _ here)).2 noReg riz
      exact ⟨used, unmarks _ here marked⟩
    extended := fun ne => (extends_iff _).mpr (processed.extends_of_restricted ne)
    restricts := fun name isName extended =>
      processed.restricted_of_extends name isName ((extends_iff name).mp extended)
    sandboxes := fun register sandboxes => absurd sandboxes (noSandboxing register)
    restores := fun left => absurd left (not_or.mpr processed.before)
    jumps := fun jump => by
      rw [restricted_eq, jumps jump]
      rfl }

theorem Action.Sandboxes.silent (sandboxes : a.Sandboxes register) (name : OperandName) :
    ¬ a.Modifies name ∧ ¬ a.ZeroExtends name := by
  cases a with
  | rbpSandboxing => exact ⟨not_modifies rfl name, id⟩
  | rspSandboxing => exact ⟨not_modifies rfl name, id⟩
  | _ => exact sandboxes.elim

theorem Instruction.Restores.obeys {sandboxing : Action} (shape : i.Restores sandboxing)
    (clean : (actionsEffect code rip restricted i.actions).Clean) :
    i.Obeys restricted (actionsEffect code rip restricted i.actions) := by
  obtain ⟨⟨register, restores⟩, before, after, actions, early, late⟩ := shape
  obtain ⟨restricted_eq, unmarks, _, cleans⟩ := @actionsEffect_main code rip restricted before
    after sandboxing (fun a mem => Or.inl (early a mem)) late
  rw [← actions] at restricted_eq unmarks cleans
  have cleanMain := (cleans clean).1
  have released : (actionsEffect code rip restricted i.actions).restricted = ncNoReg :=
    restricted_eq.trans (restores.clean cleanMain).2.2
  generalize actionsEffect code rip restricted i.actions = e at *
  have mem_cases : ∀ {a}, a ∈ i.actions → a.Collects ∨ a = sandboxing := by
    intro a mem
    rw [actions, List.mem_append, List.mem_cons] at mem
    rcases mem with mem | rfl | mem
    · exact Or.inl (early a mem)
    · exact Or.inr rfl
    · exact Or.inl (late a mem)
  have silent : ∀ name, ¬ i.Modifies name ∧ ¬ i.ZeroExtends name := by
    intro name
    constructor
    · rintro ⟨a, mem, modified⟩
      rcases mem_cases mem with collects | rfl
      · exact (Action.Prepares.silent (Or.inl collects) name).1 modified
      · exact (restores.silent name).1 modified
    · rintro ⟨a, mem, extended⟩
      rcases mem_cases mem with collects | rfl
      · exact (Action.Prepares.silent (Or.inl collects) name).2.1 extended
      · exact (restores.silent name).2 extended
  have access : ∀ base index, .checkMemoryAccess base index ∉ i.actions := by
    intro base index mem
    rcases mem_cases mem with collects | rfl
    · exact collects.elim
    · exact restores.elim
  exact {
    r15 := (silent _).1
    base := fun base index mem => absurd mem (access base index)
    index := fun base index mem => absurd mem (access base index)
    extended := fun ne => absurd released ne
    restricts := fun name _ extended => absurd extended (silent name).2
    sandboxes := by
      rintro name ⟨a, mem, sandboxes⟩
      rcases mem_cases mem with collects | rfl
      · exact absurd sandboxes (Action.Prepares.silent (Or.inl collects) name).2.2
      · obtain ⟨here, marked, _⟩ := sandboxes.clean cleanMain
        exact ⟨here, unmarks marked⟩
    restores := fun _ => by
      have mem : sandboxing ∈ i.actions := by
        rw [actions]
        exact List.mem_append_right _ List.mem_cons_self
      rw [(restores.clean cleanMain).1]
      exact ⟨sandboxing, mem, restores⟩
    jumps := fun _ => released }

theorem Instruction.WellReported.obeys (shape : i.WellReported)
    (clean : (actionsEffect code rip restricted i.actions).Clean) :
    i.Obeys restricted (actionsEffect code rip restricted i.actions) := by
  cases shape with
  | regular process shape => exact shape.obeys clean
  | restores sandboxing shape => exact shape.obeys clean

/-- The last instruction of a superinstruction touches no register the validator follows. -/
theorem Instruction.obeys_of_collects (collects : ∀ a ∈ i.actions, a.Collects)
    (code : Nat → BitVec 8) (rip : Nat) :
    i.Obeys ncNoReg (actionsEffect code rip ncNoReg i.actions) := by
  have released := (actionsEffect_keeps fun a mem =>
    Action.Prepares.keeps (Or.inl (collects a mem)) code rip ncNoReg).1
  have silent : ∀ a ∈ i.actions, ∀ name, _ := fun a mem name =>
    Action.Prepares.silent (Or.inl (collects a mem)) name
  exact {
    r15 := fun ⟨a, mem, modified⟩ => (silent a mem _).1 modified
    base := fun base index mem => (collects _ mem).elim
    index := fun base index mem => (collects _ mem).elim
    extended := fun ne => absurd released ne
    restricts := fun name _ ⟨a, mem, extended⟩ => absurd extended (silent a mem name).2.1
    sandboxes := fun name ⟨a, mem, sandboxes⟩ => absurd sandboxes (silent a mem name).2.2
    restores := fun left => absurd left (by decide)
    jumps := fun _ => released }

end SandboxTEE.Validator
