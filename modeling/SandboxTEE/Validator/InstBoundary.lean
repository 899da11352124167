import Mathlib.Data.List.Forall2
import SandboxTEE.Lib.LowBits
import SandboxTEE.Validator.EachInstruction
import SandboxTEE.Validator.RegisterUse
import SandboxTEE.Validator.ValidationCache

/-! # Where the debugger may set a breakpoint (`dfa_validate_64.c`)

`IsOnInstBoundary_x86_64` runs the validator on the bundle of an address, and finds out from the
reports whether the address is the start of an instruction.  The bitmap `valid_targets` says the same
of an accepted chunk: an address is marked behind the instruction in front of it, and is unmarked
again by an instruction that relies on its predecessor or by a superinstruction around it.

* `marks_eq_found`: the two ways agree on the instructions of a bundle.
* `describePieces_shifted`: a bundle through a pointer to it is described in the same way.
-/

namespace SandboxTEE.Validator

def specialInstruction : Info := 0x10000000

/-- `IsOnInstBoundaryCallback`: `found_addr` behind a report that begins at `begin`. -/
def isOnInstBoundaryCallback (addr begin : Nat) (info : Info) (foundAddr : Bool) : Bool :=
  let foundAddr := if begin < addr ∧ info &&& specialInstruction ≠ 0 then false else foundAddr
  if begin = addr ∧ info &&& restrictedRegisterUsed = 0 then true else foundAddr

/-- `IsOnInstBoundary_x86_64`; `none` is a failed `CHECK`.  The callback never refuses, and the
    reports are made in order. -/
def isOnInstBoundary_x86_64 (dfa : Dfa) (guestAddr addr : BitVec 64) (data : Nat → BitVec 8)
    (size : Nat) : Option NaClValidationStatus :=
  let guestBundleAddr : BitVec 32 := (addr &&& ~~~31).setWidth 32
  let localBundleAddr : Nat := (guestBundleAddr.setWidth 64 - guestAddr).toNat
  let dataEnd := guestAddr + BitVec.ofNat 64 size
  if ¬ guestAddr < dataEnd then none
  else if ¬ (size % kBundleSize = 0 ∧ size ≠ 0) then none
  else if ((guestAddr &&& ~~~31).setWidth 32).setWidth 64 ≠ guestAddr then none
  else if addr < guestAddr ∨ dataEnd ≤ addr then some .failed
  else
    match validateChunkReports (fun _ _ => true) dfa true (fun i => data (localBundleAddr + i)) kBundleSize
      callUserCallbackOnEachInstruction with
    | some (true, reports) =>
      let foundAddr := reports.foldr (fun r foundAddr => isOnInstBoundaryCallback
        (addr - guestAddr).toNat (localBundleAddr + r.instructionBegin) r.info foundAddr) false
      some (if foundAddr then .succeeded else .failed)
    | _ => none

/-! ## What the grammar gives -/

/-- What `validator_x86_64.rl` says of each instruction: only a memory access and the restores of
    `%rbp` and `%rsp` set `RESTRICTED_REGISTER_USED`, and `rel32` is four bytes. -/
structure Instruction.Flagged (i : Instruction) : Prop where
  used : ∀ bits, .collectInfo bits ∈ i.actions → bits &&& restrictedRegisterUsed = 0
  rel32 : .rel32Operand ∈ i.actions → 4 ≤ i.length

/-- A superinstruction is special, starts with a `mov` or an `and` on registers, and has an `and` and
    an `add` (6 or 7 bytes) in front of a call or jump. -/
def Piece.Flagged : Piece → Prop
  | .single i => i.Flagged
  | .super first others last kind =>
    (∀ i ∈ first :: others, i.Flagged) ∧ last.Flagged ∧ ¬ first.Relies ∧
      (∃ bits, .collectInfo bits ∈ last.actions ∧ bits &&& specialInstruction ≠ 0) ∧
      (kind ≠ .memoryAccess → 5 ≤ totalLength (first :: others))

def Dfa.Flagging (dfa : Dfa) : Prop :=
  ∀ code start stop, ∀ p ∈ (dfa code start stop).pieces, p.Flagged

/-! ## What the actions report -/

section Effects

variable {code : Nat → BitVec 8} {rip : Nat} {restricted : OperandName}

theorem bitsIf_and {condition : Bool} {bits mask : Info} (apart : bits &&& mask = 0#32) :
    bitsIf condition bits &&& mask = 0#32 := by
  cases condition with
  | false => exact BitVec.zero_and
  | true => exact apart

theorem checkValidity_and {mask : Info} (rbp : restrictedRbpUnprocessed &&& mask = 0#32)
    (rsp : restrictedRspUnprocessed &&& mask = 0#32) :
    checkValidityOfRegularInstruction restricted &&& mask = 0#32 := by
  unfold checkValidityOfRegularInstruction
  split_ifs
  · exact rbp
  · exact rsp
  · exact BitVec.zero_and

/-- The actions that process operands set other bits, and unmark nothing. -/
theorem Action.Processes.quiet {a : Action} (processes : a.Processes) :
    (a.effect code rip restricted).info &&& restrictedRegisterUsed = 0 ∧
      (a.effect code rip restricted).unmarks = false := by
  have valid : checkValidityOfRegularInstruction restricted &&& restrictedRegisterUsed = 0#32 :=
    checkValidity_and (by decide) (by decide)
  have r15 : ∀ condition, bitsIf condition r15Modified &&& restrictedRegisterUsed = 0#32 :=
    fun _ => bitsIf_and (by decide)
  have bp : ∀ condition, bitsIf condition bpModified &&& restrictedRegisterUsed = 0#32 :=
    fun _ => bitsIf_and (by decide)
  have sp : ∀ condition, bitsIf condition spModified &&& restrictedRegisterUsed = 0#32 :=
    fun _ => bitsIf_and (by decide)
  have rbp : ∀ condition, bitsIf condition restrictedRbpUnprocessed &&& restrictedRegisterUsed = 0#32 :=
    fun _ => bitsIf_and (by decide)
  have rsp : ∀ condition, bitsIf condition restrictedRspUnprocessed &&& restrictedRegisterUsed = 0#32 :=
    fun _ => bitsIf_and (by decide)
  -- what every process function collects first
  have start : ((0 : Info) ||| checkValidityOfRegularInstruction restricted) &&&
      restrictedRegisterUsed = 0 := or_and_eq_zero.mpr ⟨BitVec.zero_and, valid⟩
  have modified : ∀ c c' c'', ((0 : Info) ||| checkValidityOfRegularInstruction restricted |||
      bitsIf c r15Modified ||| bitsIf c' bpModified ||| bitsIf c'' spModified) &&&
        restrictedRegisterUsed = 0 := fun c c' c'' =>
    or_and_eq_zero.mpr ⟨or_and_eq_zero.mpr ⟨or_and_eq_zero.mpr ⟨start, r15 c⟩, bp c'⟩, sp c''⟩
  cases a with
  | process0Operands => exact ⟨start, rfl⟩
  | process1Operand rex states => exact ⟨modified _ _ _, rfl⟩
  | process1OperandZeroExtends rex states => exact ⟨modified _ _ _, rfl⟩
  | process2Operands rex states => exact ⟨modified _ _ _, rfl⟩
  | process2OperandsZeroExtends rex states =>
    constructor
    · simp only [Action.effect, Effect.ofProcess, Validator.process2OperandsZeroExtends, State.blank]
      split
      · exact or_and_eq_zero.mpr ⟨or_and_eq_zero.mpr ⟨modified _ _ _, rsp _⟩, rbp _⟩
      · exact modified _ _ _
    · rfl
  | _ => exact processes.elim

/-- The bit of a clean action says whether the start of the instruction is unmarked. -/
theorem Action.used_iff {a : Action} (used : ∀ bits, a = .collectInfo bits →
      bits &&& restrictedRegisterUsed = 0) (clean : (a.effect code rip restricted).Clean) :
    (a.effect code rip restricted).info &&& restrictedRegisterUsed = 0 ↔
      (a.effect code rip restricted).unmarks = false := by
  have processing : a.Processes → ((a.effect code rip restricted).info &&& restrictedRegisterUsed = 0 ↔
      (a.effect code rip restricted).unmarks = false) :=
    fun processes => iff_of_true processes.quiet.1 processes.quiet.2
  cases a with
  | collectInfo bits =>
    have unset := used bits rfl
    simp only [Action.effect, unset]
  | rel8Operand => exact iff_of_true (by decide : relative8Bit &&& restrictedRegisterUsed = 0) rfl
  | rel32Operand => exact iff_of_true (by decide : relative32Bit &&& restrictedRegisterUsed = 0) rfl
  | checkMemoryAccess base index =>
    simp only [Action.effect] at clean ⊢
    split_ifs with isBase noIndex isRestricted
    · simp [Effect.none]
    · simp [restrictedRegisterUsed]
    · simp [unrestrictedIndexRegister, restrictedRegisterUsed]
    · simp [forbiddenBaseRegister, restrictedRegisterUsed]
  | rbpSandboxing =>
    simp only [Effect.Clean, Action.effect] at clean ⊢
    split_ifs at clean ⊢
    · decide
    · exact absurd clean (by decide)
  | rspSandboxing =>
    simp only [Effect.Clean, Action.effect] at clean ⊢
    split_ifs at clean ⊢
    · decide
    · exact absurd clean (by decide)
  | _ => exact processing trivial

theorem Effect.Clean.andThen {e e' : Effect} (clean : (e.andThen e').Clean) : e.Clean ∧ e'.Clean :=
  or_and_eq_zero.mp clean

/-- The same of all the actions of an instruction. -/
theorem actionsEffect_used_iff {actions : List Action} (used : ∀ bits, .collectInfo bits ∈ actions →
      bits &&& restrictedRegisterUsed = 0) (clean : (actionsEffect code rip restricted actions).Clean) :
    (actionsEffect code rip restricted actions).info &&& restrictedRegisterUsed = 0 ↔
      (actionsEffect code rip restricted actions).unmarks = false := by
  induction actions generalizing restricted with
  | nil => simp [actionsEffect, Effect.none]
  | cons a actions ih =>
    obtain ⟨first, rest⟩ := Effect.Clean.andThen clean
    have here := Action.used_iff (fun bits same => used bits (same ▸ List.mem_cons_self)) first
    have later := ih (fun bits member => used bits (List.mem_cons_of_mem _ member)) rest
    simp only [actionsEffect, Effect.andThen, or_and_eq_zero, here, later, Bool.or_eq_false_iff]

/-- An instruction that does not rely on its predecessor stays marked. -/
theorem actionsEffect_unmarks {actions : List Action} (independent : ∀ a ∈ actions, ¬ a.Relies) :
    (actionsEffect code rip restricted actions).unmarks = false := by
  induction actions generalizing restricted with
  | nil => rfl
  | cons a actions ih =>
    obtain ⟨here, later⟩ := List.forall_mem_cons.mp independent
    have processing : a.Processes → (a.effect code rip restricted).unmarks = false :=
      fun processes => processes.quiet.2
    have first : (a.effect code rip restricted).unmarks = false := by
      cases a with
      | checkMemoryAccess base index =>
        have noIndex : index = ncNoReg ∨ index = ncRegRiz := by
          by_contra both
          exact here (not_or.mp both)
        simp only [Action.effect, if_pos noIndex]
        split
        · rfl
        · rfl
      | rbpSandboxing => exact absurd trivial here
      | rspSandboxing => exact absurd trivial here
      | collectInfo bits => rfl
      | rel8Operand => rfl
      | rel32Operand => rfl
      | _ => exact processing trivial
    simp only [actionsEffect, Effect.andThen, first, ih later, Bool.or_self]

/-- Before any register is restricted, a clean instruction does not rely on its predecessor. -/
theorem Instruction.WellReported.unmarks {i : Instruction} (wellReported : i.WellReported)
    (clean : (actionsEffect code rip ncNoReg i.actions).Clean) :
    (actionsEffect code rip ncNoReg i.actions).unmarks = false := by
  -- what comes in front restricts nothing and unmarks nothing
  have prepared : ∀ actions : List Action, (∀ a ∈ actions, a.Prepares) →
      (actionsEffect code rip ncNoReg actions).restricted = ncNoReg ∧
        (actionsEffect code rip ncNoReg actions).unmarks = false := by
    intro actions prepares
    induction actions with
    | nil => exact ⟨rfl, rfl⟩
    | cons a actions ih =>
      obtain ⟨here, later⟩ := List.forall_mem_cons.mp prepares
      have first : (a.effect code rip ncNoReg).restricted = ncNoReg ∧
          (a.effect code rip ncNoReg).unmarks = false := by
        obtain collects | jumps | ⟨base, index, rfl⟩ := here
        · cases a with
          | collectInfo bits => exact ⟨rfl, rfl⟩
          | _ => exact collects.elim
        · cases a with
          | rel8Operand => exact ⟨rfl, rfl⟩
          | rel32Operand => exact ⟨rfl, rfl⟩
          | _ => exact jumps.elim
        · simp only [Action.effect]
          split_ifs with isBase noIndex isRestricted
          · exact ⟨rfl, rfl⟩
          · exact absurd (.inl isRestricted) noIndex
          · exact ⟨rfl, rfl⟩
          · exact ⟨rfl, rfl⟩
      obtain ⟨restricted, unmarks⟩ := ih later
      simp only [actionsEffect, Effect.andThen, first.1, first.2, restricted, unmarks, Bool.or_self,
        and_self]
  have collected : ∀ (actions : List Action) (restricted : OperandName),
      (∀ a ∈ actions, a.Collects) → (actionsEffect code rip restricted actions).unmarks = false := by
    intro actions restricted collects
    apply actionsEffect_unmarks
    intro a member relies
    have collecting := collects a member
    cases a with
    | collectInfo bits => exact relies
    | _ => exact collecting
  cases wellReported with
  | regular process shape =>
    obtain ⟨before, after, actions, prepares, collects⟩ := shape.actions
    obtain ⟨restricted, unmarks⟩ := prepared before prepares
    rw [actions, actionsEffect_append]
    simp only [actionsEffect, Effect.andThen, unmarks, shape.processes.quiet.2,
      collected after _ collects, Bool.or_self]
  | restores sandboxing shape =>
    obtain ⟨before, after, actions, collects, -⟩ := shape.actions
    obtain ⟨register, sandboxes⟩ := shape.sandboxes
    obtain ⟨restricted, -⟩ := prepared before fun a member => .inl (collects a member)
    rw [actions, actionsEffect_append] at clean
    have here := (Effect.Clean.andThen (Effect.Clean.andThen clean).2).1
    rw [restricted] at here
    cases sandboxing with
    | rbpSandboxing =>
      exact absurd here (by decide : unrestrictedRbpProcessed &&& validationErrorsMask ≠ 0)
    | rspSandboxing =>
      exact absurd here (by decide : unrestrictedRspProcessed &&& validationErrorsMask ≠ 0)
    | _ => exact sandboxes.elim

end Effects

/-! ## The two ways over the instructions -/

/-- What the report of an instruction makes of `found_addr`. -/
def Description.find (d : Description) (k : Nat) (found : Bool) : Bool :=
  isOnInstBoundaryCallback k d.start d.info found

/-- What the bitmap and the callback say of address `k` when the instructions in front of `q` are
    done: `k` is marked before its instruction is reported. -/
structure Agrees (q k : Nat) (marked found : Bool) : Prop where
  before : k < q → marked = found
  here : k = q → marked = true ∧ found = false
  behind : q < k → marked = false ∧ found = false

section Steps

variable {d : Description} {q k : Nat} {valid : Nat → Bool} {found : Bool}

/-- An instruction says nothing about what is in front of it. -/
theorem Description.find_of_lt (lt : k < d.start) : d.find k found = found := by
  have notBehind : ¬ (d.start < k ∧ d.info &&& specialInstruction ≠ 0) := fun both =>
    absurd both.1 (Nat.lt_asymm lt)
  have notHere : ¬ (d.start = k ∧ d.info &&& restrictedRegisterUsed = 0) := fun both =>
    absurd both.1 (Nat.ne_of_gt lt)
  simp only [find, isOnInstBoundaryCallback, if_neg notBehind, if_neg notHere]

theorem Description.find_start (here : d.start = k) :
    d.find k found = (found || decide (d.info &&& restrictedRegisterUsed = 0)) := by
  have notBehind : ¬ (d.start < k ∧ d.info &&& specialInstruction ≠ 0) := fun both =>
    absurd here (Nat.ne_of_lt both.1)
  simp only [find, isOnInstBoundaryCallback, if_neg notBehind]
  by_cases unused : d.info &&& restrictedRegisterUsed = 0
  · rw [if_pos ⟨here, unused⟩, decide_eq_true unused, Bool.or_true]
  · rw [if_neg fun both => unused both.2, decide_eq_false unused, Bool.or_false]

theorem Description.find_false (lt : d.start < k) : d.find k false = false := by
  have notHere : ¬ (d.start = k ∧ d.info &&& restrictedRegisterUsed = 0) := fun both =>
    absurd both.1 (Nat.ne_of_lt lt)
  simp only [find, isOnInstBoundaryCallback, if_neg notHere, ite_self]

theorem Description.find_special (lt : d.start < k) (special : d.info &&& specialInstruction ≠ 0) :
    d.find k found = false := by
  have notHere : ¬ (d.start = k ∧ d.info &&& restrictedRegisterUsed = 0) := fun both =>
    absurd both.1 (Nat.ne_of_lt lt)
  simp only [find, isOnInstBoundaryCallback, if_neg notHere, if_pos (And.intro lt special)]

/-- An instruction that is not merged with what is in front of it. -/
structure Description.Plain (d : Description) (q : Nat) : Prop where
  start : d.start = q
  lastStart : d.lastStart = q
  merged : d.merged = none
  nonempty : q < d.stop

/-- A plain instruction leaves what is in front of it. -/
theorem Description.Plain.kept (plain : d.Plain q) (lt : k < q) :
    d.marks valid k = valid k ∧ d.find k found = found := by
  obtain ⟨start, lastStart, merged, nonempty⟩ := plain
  constructor
  · have stop : (k == d.stop) = false := beq_eq_false_iff_ne.mpr (by omega)
    have last : (k == d.lastStart) = false := beq_eq_false_iff_ne.mpr (by omega)
    simp [Description.marks, stop, last, merged]
  · exact Description.find_of_lt (start ▸ lt)

theorem Description.Plain.agrees (plain : d.Plain q)
    (used : d.info &&& restrictedRegisterUsed = 0 ↔ d.unmarks = false)
    (agrees : Agrees q k (valid k) found) : Agrees d.stop k (d.marks valid k) (d.find k found) := by
  obtain ⟨start, lastStart, merged, nonempty⟩ := id plain
  rcases Nat.lt_trichotomy k q with lt | rfl | gt
  · obtain ⟨marks, finds⟩ := @Description.Plain.kept d q k valid found plain lt
    rw [marks, finds]
    exact ⟨fun _ => agrees.before lt, fun here => by omega, fun behind => by omega⟩
  · obtain ⟨marked, unseen⟩ := agrees.here rfl
    have stop : (k == d.stop) = false := beq_eq_false_iff_ne.mpr (by omega)
    refine ⟨fun _ => ?_, fun here => by omega, fun behind => by omega⟩
    rw [Description.find_start start, unseen, Bool.false_or]
    simp only [Description.marks, stop, marked, merged, lastStart, beq_self_eq_true, Bool.and_true,
      Bool.true_and, Bool.false_or, Option.any_none, Bool.not_false]
    cases unmarks : d.unmarks with
    | false => exact (decide_eq_true (used.mpr unmarks)).symm
    | true =>
      have set : ¬ d.info &&& restrictedRegisterUsed = 0 := fun unset => by
        rw [used.mp unset] at unmarks
        cases unmarks
      exact (decide_eq_false set).symm
  · obtain ⟨unmarked, unseen⟩ := agrees.behind gt
    have finds : d.find k found = false := by
      rw [unseen]
      exact Description.find_false (start ▸ gt)
    have marks : d.marks valid k = (k == d.stop) := by
      simp [Description.marks, unmarked]
    rw [marks, finds]
    refine ⟨fun before => ?_, fun here => ?_, fun behind => ?_⟩
    · exact beq_eq_false_iff_ne.mpr (by omega)
    · exact ⟨beq_iff_eq.mpr here, rfl⟩
    · exact ⟨beq_eq_false_iff_ne.mpr (by omega), rfl⟩

/-- The end of a superinstruction that starts at `q`, the end of its sandboxing instructions at
    `d.lastStart`. -/
structure Description.Merged (d : Description) (q n : Nat) : Prop where
  start : d.start = q
  lastStart : d.lastStart = q + n
  merged : d.merged = some n
  sandboxed : 0 < n
  nonempty : d.lastStart < d.stop
  special : d.info &&& specialInstruction ≠ 0

theorem Description.Merged.agrees {n : Nat} (merged : d.Merged q n)
    (agrees : Agrees d.lastStart k (valid k) found) (first : k = q → valid k = true) :
    Agrees d.stop k (d.marks valid k) (d.find k found) := by
  obtain ⟨start, lastStart, isMerged, sandboxed, nonempty, special⟩ := merged
  by_cases front : k ≤ q
  · have marks : d.marks valid k = valid k := by
      have stop : (k == d.stop) = false := beq_eq_false_iff_ne.mpr (by omega)
      have last : (k == d.lastStart) = false := beq_eq_false_iff_ne.mpr (by omega)
      have inner : (d.merged.any fun n => decide (d.start < k) && decide (k ≤ d.start + n)) = false := by
        have lt : ¬ d.start < k := by omega
        simp [isMerged, lt]
      simp [Description.marks, stop, last, inner]
    have same := agrees.before (by omega)
    refine ⟨fun _ => ?_, fun here => by omega, fun behind => by omega⟩
    rw [marks]
    rcases Nat.lt_or_eq_of_le front with lt | here
    · rw [Description.find_of_lt (start ▸ lt), same]
    · rw [Description.find_start (start.trans here.symm), ← same, first here, Bool.true_or]
  · have lt : d.start < k := by omega
    rw [Description.find_special lt special]
    have marks : d.marks valid k = (k == d.stop) := by
      by_cases inside : k ≤ d.start + n
      · simp [Description.marks, isMerged, lt, inside]
      · have unmarked := (agrees.behind (by omega)).1
        simp [Description.marks, unmarked]
    rw [marks]
    refine ⟨fun before => ?_, fun here => ?_, fun behind => ?_⟩
    · exact beq_eq_false_iff_ne.mpr (by omega)
    · exact ⟨beq_iff_eq.mpr here, rfl⟩
    · exact ⟨beq_eq_false_iff_ne.mpr (by omega), rfl⟩

end Steps

/-- `found_addr` behind the reports of some instructions. -/
def findAll (k : Nat) (ds : List Description) (found : Bool) : Bool :=
  ds.foldl (fun found d => d.find k found) found

theorem findAll_append (k : Nat) (ds ds' : List Description) (found : Bool) :
    findAll k (ds ++ ds') found = findAll k ds' (findAll k ds found) := List.foldl_append

theorem marksAll_append (ds ds' : List Description) (valid : Nat → Bool) :
    marksAll (ds ++ ds') valid = marksAll ds' (marksAll ds valid) := List.foldl_append

section Pieces

variable {code : Nat → BitVec 8} {q k : Nat} {restricted : OperandName} {valid : Nat → Bool}
  {found : Bool}

theorem describe_plain (i : Instruction) : (Step.describe code q restricted ⟨i, none⟩).Plain q :=
  ⟨rfl, rfl, rfl, Nat.lt_add_of_pos_right i.length_pos⟩

theorem describe_used_iff {i : Instruction} (flagged : i.Flagged)
    (clean : (Step.describe code q restricted ⟨i, none⟩).info &&& validationErrorsMask = 0) :
    (Step.describe code q restricted ⟨i, none⟩).info &&& restrictedRegisterUsed = 0 ↔
      (Step.describe code q restricted ⟨i, none⟩).unmarks = false :=
  actionsEffect_used_iff flagged.used clean

/-- Instructions of their own, or the sandboxing instructions of a superinstruction. -/
theorem describeSteps_plain_agrees {l : List Instruction} (flagged : ∀ i ∈ l, i.Flagged)
    (clean : ∀ d ∈ describeSteps code q restricted (l.map (⟨·, none⟩)),
      d.info &&& validationErrorsMask = 0) (agrees : Agrees q k (valid k) found) :
    Agrees (q + totalLength l) k (marksAll (describeSteps code q restricted (l.map (⟨·, none⟩))) valid k)
      (findAll k (describeSteps code q restricted (l.map (⟨·, none⟩))) found) := by
  induction l generalizing q restricted valid found with
  | nil => exact agrees
  | cons i l ih =>
    obtain ⟨here, later⟩ := List.forall_mem_cons.mp flagged
    obtain ⟨clean, cleanLater⟩ := List.forall_mem_cons.mp clean
    have step := (describe_plain i).agrees (describe_used_iff here clean) agrees
    rw [totalLength_cons, ← Nat.add_assoc]
    exact ih later cleanLater step

theorem describeSteps_plain_kept (l : List Instruction) (lt : k < q) :
    marksAll (describeSteps code q restricted (l.map (⟨·, none⟩))) valid k = valid k := by
  induction l generalizing q restricted valid with
  | nil => rfl
  | cons i l ih =>
    have plain : (Step.describe code q restricted ⟨i, none⟩).Plain q := describe_plain i
    have step := (@Description.Plain.kept _ q k valid false plain lt).1
    exact (ih (Nat.lt_add_right _ lt)).trans step

theorem actionsEffect_collects {rip : Nat} {actions : List Action} {bits mask : Info}
    (member : .collectInfo bits ∈ actions) (set : bits &&& mask ≠ 0) :
    (actionsEffect code rip restricted actions).info &&& mask ≠ 0 := by
  induction actions generalizing restricted with
  | nil => cases member
  | cons a actions ih =>
    cases List.mem_cons.mp member with
    | inl same =>
      subst same
      exact or_and_ne_zero set
    | inr later => exact or_and_ne_zero_right (ih later)

/-- A superinstruction without errors is merged. -/
theorem describe_merged {last : Instruction} {kind : Sandboxed} {n : Nat} (sandboxed : 0 < n)
    (special : ∃ bits, .collectInfo bits ∈ last.actions ∧ bits &&& specialInstruction ≠ 0)
    (clean : (Step.describe code (q + n) restricted ⟨last, some (kind, n)⟩).info &&&
      validationErrorsMask = 0) :
    (Step.describe code (q + n) restricted ⟨last, some (kind, n)⟩).Merged q n := by
  obtain ⟨bits, member, set⟩ := special
  unfold Step.describe at clean ⊢
  dsimp only at clean ⊢
  split at clean
  · next verified =>
    rw [if_pos verified]
    exact {
      start := Nat.add_sub_cancel q n
      lastStart := rfl
      merged := rfl
      sandboxed := sandboxed
      nonempty := Nat.lt_add_of_pos_right last.length_pos
      special := actionsEffect_collects member set }
  · exact absurd (or_and_eq_zero.mp clean).2 (by decide)

theorem describePiece_agrees {p : Piece} (flagged : p.Flagged)
    (clean : ∀ d ∈ describeSteps code q restricted p.steps, d.info &&& validationErrorsMask = 0)
    (agrees : Agrees q k (valid k) found) :
    Agrees (q + p.length) k (marksAll (describeSteps code q restricted p.steps) valid k)
      (findAll k (describeSteps code q restricted p.steps) found) := by
  cases p with
  | single i =>
    have flagged' : ∀ j ∈ [i], j.Flagged := List.forall_mem_singleton.mpr flagged
    exact describeSteps_plain_agrees flagged' clean agrees
  | super first others last kind =>
    obtain ⟨sandboxing, -, independent, special, -⟩ := flagged
    have length : (Piece.super first others last kind).length =
        totalLength (first :: others) + last.length := by
      simp [Piece.length, Piece.instructions, totalLength]
      omega
    have split := describeSteps_append code q restricted
      ((first :: others).map (⟨·, none⟩)) [⟨last, some (kind, totalLength (first :: others))⟩]
    have lengths : totalLength (((first :: others).map (Step.mk · none)).map Step.instruction) =
        totalLength (first :: others) := by
      rw [List.map_map]
      simp [Function.comp_def]
    rw [lengths] at split
    rw [Piece.steps] at clean ⊢
    rw [split] at clean ⊢
    rw [marksAll_append, findAll_append, length, ← Nat.add_assoc]
    -- the sandboxing instructions, of which the first keeps its mark
    have inner := @describeSteps_plain_agrees code q k restricted valid found (first :: others) sandboxing
      (fun d member => clean d (List.mem_append_left _ member)) agrees
    have firstMarked : k = q → marksAll (describeSteps code q restricted
        ((first :: others).map (⟨·, none⟩))) valid k = true := by
      rintro rfl
      have plain : (Step.describe code k restricted ⟨first, none⟩).Plain k := describe_plain first
      have unmarks : (Step.describe code k restricted ⟨first, none⟩).unmarks = false :=
        actionsEffect_unmarks fun a member relies => independent ⟨a, member, relies⟩
      have marked : (Step.describe code k restricted ⟨first, none⟩).marks valid k = true := by
        simp [Description.marks, (agrees.here rfl).1, unmarks, plain.merged]
      exact (describeSteps_plain_kept others plain.nonempty).trans marked
    have merged := describe_merged (Nat.lt_of_lt_of_le first.length_pos (by simp [totalLength]))
      special (clean _ (List.mem_append_right _ List.mem_cons_self))
    rw [← merged.lastStart] at inner
    have ended := merged.agrees inner firstMarked
    rw [Step.describe_stop] at ended
    exact ended

theorem describePieces_agrees {pieces : List Piece} (flagged : ∀ p ∈ pieces, p.Flagged)
    (clean : ∀ d ∈ describeSteps code q restricted (pieces.flatMap Piece.steps),
      d.info &&& validationErrorsMask = 0) (agrees : Agrees q k (valid k) found) :
    Agrees (q + (pieces.map Piece.length).sum) k
      (marksAll (describeSteps code q restricted (pieces.flatMap Piece.steps)) valid k)
      (findAll k (describeSteps code q restricted (pieces.flatMap Piece.steps)) found) := by
  induction pieces generalizing q restricted valid found with
  | nil => exact agrees
  | cons p pieces ih =>
    obtain ⟨here, later⟩ := List.forall_mem_cons.mp flagged
    rw [List.flatMap_cons, describeSteps_append, totalLength_steps] at clean ⊢
    rw [marksAll_append, findAll_append, piecesLength_cons, ← Nat.add_assoc]
    exact ih later (fun d member => clean d (List.mem_append_right _ member))
      (describePiece_agrees here (fun d member => clean d (List.mem_append_left _ member)) agrees)

end Pieces

section Bundle

variable {dfa : Dfa} {code : Nat → BitVec 8} {c k : Nat}

theorem Description.Inside.marks_start {d : Description} {b : Nat} (inside : d.Inside b)
    (unmarks : d.lastStart = b → d.unmarks = false) {valid : Nat → Bool} (marked : valid b = true) :
    d.marks valid b = true := by
  have kept : (d.unmarks && b == d.lastStart) = false := by
    by_cases first : d.lastStart = b
    · rw [unmarks first, Bool.false_and]
    · rw [beq_eq_false_iff_ne.mpr (Ne.symm first), Bool.and_false]
  have outside : (d.merged.any fun n => decide (d.start < b) && decide (b ≤ d.start + n)) = false := by
    cases merged : d.merged with
    | none => rfl
    | some n =>
      have start := (inside.merged n merged).1
      have notBefore : ¬ d.start < b := Nat.not_lt.mpr start
      simp [notBefore]
  simp [Description.marks, marked, kept, outside]

theorem bundleDescriptions_first (wellReporting : dfa.WellReporting)
    (clean : ∀ d ∈ bundleDescriptions dfa code c, d.info &&& validationErrorsMask = 0)
    {d : Description} (member : d ∈ bundleDescriptions dfa code c)
    (first : d.lastStart = c * kBundleSize) : d.unmarks = false := by
  have reported : ∀ p ∈ bundlePieces dfa code c, p.WellReported := wellReporting _ _ _
  unfold bundleDescriptions at member clean
  cases pieces : bundlePieces dfa code c with
  | nil =>
    rw [pieces] at member
    cases member
  | cons p rest =>
    rw [pieces] at member clean reported
    have head : ∃ steps, p.steps = ⟨p.head, none⟩ :: steps := by
      cases p with
      | single i => exact ⟨[], rfl⟩
      | super first others last kind => exact ⟨_, rfl⟩
    have headReported : p.head.WellReported := by
      have here := reported p List.mem_cons_self
      cases p with
      | single i => exact here
      | super first others last kind => exact here.1 first List.mem_cons_self
    obtain ⟨steps, steps_eq⟩ := head
    rw [List.flatMap_cons, steps_eq, List.cons_append, describeSteps] at member clean
    cases List.mem_cons.mp member with
    | inl same =>
      subst same
      exact headReported.unmarks (clean _ List.mem_cons_self)
    | inr later =>
      -- the later ones start further behind
      have bounds := (describeSteps_bounds code later).1
      have longer := p.head.length_pos
      rw [Step.describe_stop, first] at bounds
      exact absurd bounds (Nat.not_le.mpr (Nat.lt_add_of_pos_right longer))

/-- The callback finds the bundle starts and the valid targets. -/
theorem findAll_bundle (flagging : dfa.Flagging) (wellReporting : dfa.WellReporting)
    (parsed : (dfa code (c * kBundleSize) (c * kBundleSize + kBundleSize)).Accepts)
    (clean : ∀ d ∈ bundleDescriptions dfa code c, d.info &&& validationErrorsMask = 0)
    (first : c * kBundleSize ≤ k) (last : k < c * kBundleSize + kBundleSize) :
    findAll k (bundleDescriptions dfa code c) false = true ↔
      kBundleSize ∣ k ∨ ValidTarget dfa code k := by
  have start : Agrees (c * kBundleSize) k (k == c * kBundleSize) false :=
    ⟨fun before => by omega, fun here => ⟨beq_iff_eq.mpr here, rfl⟩,
      fun behind => ⟨beq_eq_false_iff_ne.mpr (by omega), rfl⟩⟩
  have total : ((bundlePieces dfa code c).map Piece.length).sum = kBundleSize := by
    unfold bundlePieces
    cases parse : dfa code (c * kBundleSize) (c * kBundleSize + kBundleSize) with
    | accept pieces total => exact total.trans (Nat.add_sub_cancel_left _ _)
    | error pieces pending pendingLength within =>
      rw [parse] at parsed
      exact parsed.elim
  have agrees := @describePieces_agrees code (c * kBundleSize) k ncNoReg (fun j => j == c * kBundleSize)
    false (bundlePieces dfa code c) (flagging _ _ _) clean start
  rw [total] at agrees
  have same : marksAll (bundleDescriptions dfa code c) (fun j => j == c * kBundleSize) k =
    findAll k (bundleDescriptions dfa code c) false := agrees.before last
  rw [← same]
  by_cases here : k = c * kBundleSize
  · subst here
    have marked : ∀ ds : List Description, (∀ d ∈ ds, d ∈ bundleDescriptions dfa code c) →
        ∀ valid : Nat → Bool, valid (c * kBundleSize) = true →
          marksAll ds valid (c * kBundleSize) = true := by
      intro ds among
      induction ds with
      | nil => exact fun valid start => start
      | cons d ds ih =>
        intro valid start
        have member := among d List.mem_cons_self
        exact ih (fun e he => among e (List.mem_cons_of_mem _ he)) _
          ((bundleDescriptions_inside dfa code member).marks_start
            (bundleDescriptions_first wellReporting clean member) start)
    exact iff_of_true (marked _ (fun _ member => member) _ (beq_self_eq_true _))
      (.inl (Nat.dvd_mul_left _ _))
  · have unaligned : ¬ kBundleSize ∣ k := by
      simp only [kBundleSize] at *
      omega
    have bundle : k / kBundleSize = c := by
      simp only [kBundleSize] at *
      omega
    have fresh : marksAll (bundleDescriptions dfa code c) (fun j => j == c * kBundleSize) k =
        marksAll (bundleDescriptions dfa code c) (fun _ => false) k :=
      marksAll_congr _ (beq_eq_false_iff_ne.mpr here)
    rw [ValidTarget, bundle, fresh, or_iff_right unaligned]

end Bundle

/-! ## A bundle through a pointer to it -/

/-- The description of the same instruction `b` bytes further on. -/
structure Shifted (b : Nat) (d d' : Description) : Prop where
  start : d'.start = b + d.start
  stop : d'.stop = b + d.stop
  lastStart : d'.lastStart = b + d.lastStart
  info : d'.info = d.info
  unmarks : d'.unmarks = d.unmarks
  merged : d'.merged = d.merged
  restricted : d'.restricted = d.restricted
  jumps : ∀ target ∈ d.jumps, (target + b) % 2 ^ 64 ∈ d'.jumps

section Shift

variable {code : Nat → BitVec 8} {b : Nat}

theorem jumpDest_add (offset : Int) (rip : Nat) :
    jumpDest offset (b + rip) = (jumpDest offset rip + b) % 2 ^ 64 := by
  simp only [jumpDest, BitVec.toNat_ofInt]
  omega

theorem Action.effect_shifted {rip : Nat} (restricted : OperandName) {a : Action} (behind : 1 ≤ rip)
    (rel32 : a = .rel32Operand → 4 ≤ rip) : (a.effect code (b + rip) restricted).unmarks =
        (a.effect (fun i => code (b + i)) rip restricted).unmarks ∧
      ∀ target ∈ (a.effect (fun i => code (b + i)) rip restricted).jumps,
        (target + b) % 2 ^ 64 ∈ (a.effect code (b + rip) restricted).jumps := by
  cases a with
  | rel8Operand =>
    have offset : rel8Offset (fun i => code (b + i)) rip = rel8Offset code (b + rip) := by
      simp only [rel8Offset, Nat.add_sub_assoc behind]
    refine ⟨rfl, fun target member => ?_⟩
    rw [List.mem_singleton.mp member, offset, ← jumpDest_add]
    exact List.mem_singleton_self _
  | rel32Operand =>
    have four := rel32 rfl
    have offset : rel32Offset (fun i => code (b + i)) rip = rel32Offset code (b + rip) := by
      simp only [rel32Offset, Nat.add_sub_assoc behind, Nat.add_sub_assoc (Nat.le_trans
        (by decide : 2 ≤ 4) four), Nat.add_sub_assoc (Nat.le_trans (by decide : 3 ≤ 4) four),
        Nat.add_sub_assoc four]
    refine ⟨rfl, fun target member => ?_⟩
    rw [List.mem_singleton.mp member, offset, ← jumpDest_add]
    exact List.mem_singleton_self _
  | checkMemoryAccess base index =>
    have noJump : ((Action.checkMemoryAccess base index).effect (fun i => code (b + i)) rip
        restricted).jumps = [] := by
      simp only [Action.effect]
      split_ifs <;> rfl
    refine ⟨rfl, fun target member => ?_⟩
    rw [noJump] at member
    cases member
  | _ => exact ⟨rfl, fun target member => by cases member⟩

theorem actionsEffect_shifted {rip : Nat} (restricted : OperandName) {actions : List Action}
    (behind : 1 ≤ rip) (rel32 : .rel32Operand ∈ actions → 4 ≤ rip) :
    (actionsEffect code (b + rip) restricted actions).unmarks =
        (actionsEffect (fun i => code (b + i)) rip restricted actions).unmarks ∧
      ∀ target ∈ (actionsEffect (fun i => code (b + i)) rip restricted actions).jumps,
        (target + b) % 2 ^ 64 ∈ (actionsEffect code (b + rip) restricted actions).jumps := by
  induction actions generalizing restricted with
  | nil => exact ⟨rfl, fun target member => by cases member⟩
  | cons a actions ih =>
    have same := (a.effect_alike code (fun i => code (b + i)) (b + rip) rip restricted).2
    obtain ⟨unmarks, jumps⟩ := @Action.effect_shifted code b rip restricted a behind
      fun is => rel32 (is ▸ List.mem_cons_self)
    obtain ⟨later, laterJumps⟩ := ih (a.effect code (b + rip) restricted).restricted
      fun member => rel32 (List.mem_cons_of_mem _ member)
    simp only [actionsEffect, Effect.andThen]
    rw [same] at later laterJumps ⊢
    refine ⟨by rw [unmarks, later], fun target member => ?_⟩
    cases List.mem_append.mp member with
    | inl first => exact List.mem_append_left _ (jumps target first)
    | inr rest => exact List.mem_append_right _ (laterJumps target rest)

theorem describe_shifted {q : Nat} (restricted : OperandName) {step : Step}
    (rel32 : .rel32Operand ∈ step.instruction.actions → 4 ≤ step.instruction.length)
    (sandboxed : ∀ kind n, step.merge = some (kind, n) → n ≤ q ∧ (kind ≠ .memoryAccess → 5 ≤ q)) :
    Shifted b (step.describe (fun i => code (b + i)) q restricted)
      (step.describe code (b + q) restricted) := by
  obtain ⟨i, merge⟩ := step
  have length := i.length_pos
  have stop : b + q + i.length = b + (q + i.length) := Nat.add_assoc b q i.length
  obtain ⟨info, same⟩ := actionsEffect_alike code (fun i => code (b + i)) (b + (q + i.length))
    (q + i.length) restricted i.actions
  obtain ⟨unmarks, jumps⟩ := @actionsEffect_shifted code b (q + i.length) restricted i.actions
    (by omega) fun member => Nat.le_add_left_of_le (rel32 member)
  cases merge with
  | none =>
    rw [← stop] at info unmarks same jumps
    exact ⟨rfl, stop, rfl, info, unmarks, rfl, same, jumps⟩
  | some merge =>
    obtain ⟨kind, n⟩ := merge
    obtain ⟨within, five⟩ := sandboxed kind n rfl
    -- the check of a call or jump reads the sandboxing instructions, which are in the bundle
    have verified : kind.verified code (b + q) (b + (q + i.length) - 1) =
        kind.verified (fun i => code (b + i)) q (q + i.length - 1) := by
      have current : b + (q + i.length) - 1 = b + (q + i.length - 1) := by omega
      cases kind with
      | memoryAccess => rfl
      | callOrJmpAddToRM =>
        have five := five (by decide)
        simp only [Sandboxed.verified, verifyNaclCallOrJmpAddToRM, current,
          Nat.add_sub_assoc five, Nat.add_sub_assoc (Nat.le_trans (by decide : 1 ≤ 5) five)]
      | callOrJmpAddToReg =>
        have five := five (by decide)
        simp only [Sandboxed.verified, verifyNaclCallOrJmpAddToReg, current,
          Nat.add_sub_assoc five, Nat.add_sub_assoc (Nat.le_trans (by decide : 1 ≤ 5) five)]
    unfold Step.describe
    dsimp only
    rw [stop, verified]
    split
    · exact ⟨Nat.add_sub_assoc within b, rfl, rfl, info, unmarks, rfl, same, jumps⟩
    · exact ⟨rfl, rfl, rfl, congrArg (· ||| unrecognizedInstruction) info, unmarks, rfl, same, jumps⟩

theorem restrictedAfter_shifted {ds ds' : List Description} (shifted : List.Forall₂ (Shifted b) ds ds')
    (restricted : OperandName) : restrictedAfter restricted ds' = restrictedAfter restricted ds := by
  induction shifted generalizing restricted with
  | nil => rfl
  | cons here _ ih =>
    rw [restrictedAfter, restrictedAfter, List.foldl_cons, List.foldl_cons, here.restricted]
    exact ih _

theorem describeSteps_append_shifted {q : Nat} {restricted : OperandName} {l l' : List Step}
    (front : List.Forall₂ (Shifted b) (describeSteps (fun i => code (b + i)) q restricted l)
      (describeSteps code (b + q) restricted l)) (rest : ∀ restricted, List.Forall₂ (Shifted b)
      (describeSteps (fun i => code (b + i)) (q + totalLength (l.map Step.instruction)) restricted l')
      (describeSteps code (b + (q + totalLength (l.map Step.instruction))) restricted l')) :
    List.Forall₂ (Shifted b) (describeSteps (fun i => code (b + i)) q restricted (l ++ l'))
      (describeSteps code (b + q) restricted (l ++ l')) := by
  rw [describeSteps_append, describeSteps_append, restrictedAfter_shifted front, Nat.add_assoc]
  exact List.rel_append front (rest _)

theorem describeSteps_plain_shifted {q : Nat} (restricted : OperandName) {l : List Instruction}
    (flagged : ∀ i ∈ l, i.Flagged) :
    List.Forall₂ (Shifted b) (describeSteps (fun i => code (b + i)) q restricted (l.map (⟨·, none⟩)))
      (describeSteps code (b + q) restricted (l.map (⟨·, none⟩))) := by
  induction l generalizing q restricted with
  | nil => exact .nil
  | cons i l ih =>
    obtain ⟨here, later⟩ := List.forall_mem_cons.mp flagged
    have first : Shifted b (Step.describe (fun i => code (b + i)) q restricted ⟨i, none⟩)
        (Step.describe code (b + q) restricted ⟨i, none⟩) :=
      describe_shifted restricted here.rel32 fun kind n none => by cases none
    have rest := @ih (q + i.length)
      (Step.describe (fun i => code (b + i)) q restricted ⟨i, none⟩).restricted later
    rw [← Nat.add_assoc] at rest
    rw [List.map_cons, describeSteps, describeSteps, first.restricted, Step.describe_stop,
      Step.describe_stop]
    exact .cons first rest

theorem describePiece_shifted {q : Nat} (restricted : OperandName) {p : Piece} (flagged : p.Flagged) :
    List.Forall₂ (Shifted b) (describeSteps (fun i => code (b + i)) q restricted p.steps)
      (describeSteps code (b + q) restricted p.steps) := by
  cases p with
  | single i =>
    have flagged' : ∀ j ∈ [i], j.Flagged := List.forall_mem_singleton.mpr flagged
    exact describeSteps_plain_shifted restricted flagged'
  | super first others last kind =>
    obtain ⟨sandboxing, lastFlagged, -, -, five⟩ := flagged
    have lengths : totalLength (((first :: others).map (Step.mk · none)).map Step.instruction) =
        totalLength (first :: others) := by
      rw [List.map_map]
      simp [Function.comp_def]
    apply describeSteps_append_shifted (describeSteps_plain_shifted restricted sandboxing)
    intro restricted
    rw [lengths]
    have merged : Shifted b
        (Step.describe (fun i => code (b + i)) (q + totalLength (first :: others)) restricted
          ⟨last, some (kind, totalLength (first :: others))⟩)
        (Step.describe code (b + (q + totalLength (first :: others))) restricted
          ⟨last, some (kind, totalLength (first :: others))⟩) := by
      apply describe_shifted restricted lastFlagged.rel32
      intro kind' n same
      cases same
      exact ⟨Nat.le_add_left _ q, fun jump => Nat.le_add_left_of_le (five jump)⟩
    exact .cons merged .nil

theorem describePieces_shifted {q : Nat} (restricted : OperandName) {pieces : List Piece}
    (flagged : ∀ p ∈ pieces, p.Flagged) : List.Forall₂ (Shifted b)
      (describeSteps (fun i => code (b + i)) q restricted (pieces.flatMap Piece.steps))
      (describeSteps code (b + q) restricted (pieces.flatMap Piece.steps)) := by
  induction pieces generalizing q restricted with
  | nil => exact .nil
  | cons p pieces ih =>
    obtain ⟨here, later⟩ := List.forall_mem_cons.mp flagged
    rw [List.flatMap_cons]
    exact describeSteps_append_shifted (describePiece_shifted restricted here) fun r => ih r later

theorem marksAll_shifted {ds ds' : List Description} (shifted : List.Forall₂ (Shifted b) ds ds')
    {valid valid' : Nat → Bool} {k : Nat} (same : valid' (b + k) = valid k) :
    marksAll ds' valid' (b + k) = marksAll ds valid k := by
  induction shifted generalizing valid valid' with
  | nil => exact same
  | @cons d d' ds ds' here _ ih =>
    apply ih
    have stop : (b + k == d'.stop) = (k == d.stop) := by
      rw [here.stop, beq_eq_decide, beq_eq_decide]
      exact decide_eq_decide.mpr (by omega)
    have last : (b + k == d'.lastStart) = (k == d.lastStart) := by
      rw [here.lastStart, beq_eq_decide, beq_eq_decide]
      exact decide_eq_decide.mpr (by omega)
    have inner : (fun n => decide (d'.start < b + k) && decide (b + k ≤ d'.start + n)) =
        fun n => decide (d.start < k) && decide (k ≤ d.start + n) := by
      funext n
      rw [here.start, ← Bool.decide_and, ← Bool.decide_and]
      exact decide_eq_decide.mpr (by omega)
    simp only [Description.marks, same, stop, last, inner, here.unmarks, here.merged]

/-- The callback finds the same from the reports of the bundle. -/
theorem foldl_report_shifted {ds ds' : List Description} (shifted : List.Forall₂ (Shifted b) ds ds')
    (k size : Nat) (found : Bool) : (ds.map (Description.report size)).foldl (fun found r =>
        isOnInstBoundaryCallback k (b + r.instructionBegin) r.info found) found =
      findAll k ds' found := by
  induction shifted generalizing found with
  | nil => rfl
  | @cons d d' ds ds' here _ ih =>
    have bits : ∀ mask : Info, directJumpOutOfRange &&& mask = 0#32 →
        restrictedRegisterMask &&& mask = 0#32 → (d.report size).info &&& mask = d'.info &&& mask := by
      intro mask range restricted
      rw [Description.report, BitVec.and_or_distrib_right, BitVec.and_assoc, restricted, BitVec.and_zero,
        BitVec.or_zero, d.errors_and range, here.info]
    have found' : isOnInstBoundaryCallback k (b + (d.report size).instructionBegin)
        (d.report size).info found = d'.find k found := by
      have start : b + (d.report size).instructionBegin = d'.start := here.start.symm
      simp only [Description.find, isOnInstBoundaryCallback, start, bits specialInstruction (by decide)
        (by decide), bits restrictedRegisterUsed (by decide) (by decide)]
    rw [List.map_cons, List.foldl_cons, found']
    exact ih _

end Shift

/-! ## The two runs -/

theorem approved_always (reports : List Report) : approved (fun _ _ => true) reports = true := by
  induction reports with
  | nil => rfl
  | cons r earlier ih => rw [approved, ih, Bool.and_self]

section Runs

variable {dfa : Dfa} {code : Nat → BitVec 8} {size c : Nat}

theorem bundleDescriptions_shifted (ofBytes : dfa.OfBytes) (flagging : dfa.Flagging) (c : Nat) :
    List.Forall₂ (Shifted (c * kBundleSize))
      (bundleDescriptions dfa (fun i => code (c * kBundleSize + i)) 0)
      (bundleDescriptions dfa code c) := by
  have pieces : bundlePieces dfa (fun i => code (c * kBundleSize + i)) 0 = bundlePieces dfa code c :=
    bundlePieces_from ofBytes ⟨code, false⟩ c
  have flagged : ∀ p ∈ bundlePieces dfa code c, p.Flagged := flagging _ _ _
  unfold bundleDescriptions
  rw [pieces, Nat.zero_mul]
  exact @describePieces_shifted code (c * kBundleSize) 0 ncNoReg _ flagged

theorem shifted_mem {b : Nat} {ds ds' : List Description} (shifted : List.Forall₂ (Shifted b) ds ds')
    {d : Description} (member : d ∈ ds) : ∃ d' ∈ ds', Shifted b d d' := by
  induction shifted with
  | nil => cases member
  | @cons e e' ds ds' here _ ih =>
    cases List.mem_cons.mp member with
    | inl same =>
      subst same
      exact ⟨e', List.mem_cons_self, here⟩
    | inr later =>
      obtain ⟨d', among, found⟩ := ih later
      exact ⟨d', List.mem_cons_of_mem _ among, found⟩

theorem validTarget_shifted (ofBytes : dfa.OfBytes) (flagging : dfa.Flagging) {k : Nat}
    (inside : k < kBundleSize) : ValidTarget dfa code (c * kBundleSize + k) ↔
      ValidTarget dfa (fun i => code (c * kBundleSize + i)) k := by
  have bundle : (c * kBundleSize + k) / kBundleSize = c := by
    simp only [kBundleSize] at *
    omega
  have first : k / kBundleSize = 0 := Nat.div_eq_of_lt inside
  have same := @marksAll_shifted _ _ _ (@bundleDescriptions_shifted dfa code ofBytes flagging c)
    (fun _ => false) (fun _ => false) k rfl
  rw [ValidTarget, ValidTarget, bundle, first, same]

/-- The bundle alone is in order, and its jumps inside it have valid targets. -/
theorem bundle_inOrder (ofBytes : dfa.OfBytes) (flagging : dfa.Flagging)
    (accepted : ChunkAccepted dfa code size) (small : size ≤ 2 ^ 32) (hc : c < size / kBundleSize) :
    BundleInOrder (fun _ => True) dfa (fun i => code (c * kBundleSize + i)) 0 ∧
      ∀ d ∈ bundleDescriptions dfa (fun i => code (c * kBundleSize + i)) 0, ∀ target ∈ d.jumps,
        ¬ kBundleSize ∣ target → target < kBundleSize →
          ValidTarget dfa (fun i => code (c * kBundleSize + i)) target := by
  have shifted := @bundleDescriptions_shifted dfa code ofBytes flagging c
  obtain ⟨parsed, clean, rbp, rsp, jumps⟩ := accepted.2 c hc
  have bundle : c * kBundleSize + kBundleSize ≤ size := by
    rw [← Nat.succ_mul]
    exact (Nat.le_div_iff_mul_le (by decide)).mp hc
  constructor
  · have same := restrictedAfter_shifted shifted ncNoReg
    have outline := @ofBytes (fun i => code (c * kBundleSize + i)) code 0 (c * kBundleSize) kBundleSize
      fun i _ => by rw [Nat.zero_add]
    refine ⟨?_, fun _ _ => trivial, same ▸ rbp, same ▸ rsp⟩
    rw [Nat.zero_mul]
    cases here : dfa (fun i => code (c * kBundleSize + i)) 0 (0 + kBundleSize) with
    | accept pieces total => exact trivial
    | error pieces pending pendingLength within =>
      rw [here] at outline
      cases there : dfa code (c * kBundleSize) (c * kBundleSize + kBundleSize) with
      | accept pieces total =>
        rw [there] at outline
        cases outline
      | error pieces pending pendingLength within =>
        rw [there] at parsed
        exact parsed.elim
  · intro d member target jump unaligned inside
    obtain ⟨d', member', found⟩ := shifted_mem shifted member
    have moved := found.jumps target jump
    have exact : (target + c * kBundleSize) % 2 ^ 64 = c * kBundleSize + target := by
      simp only [kBundleSize] at *
      omega
    rw [exact] at moved
    have unaligned' : ¬ kBundleSize ∣ c * kBundleSize + target := fun aligned =>
      unaligned ((Nat.dvd_add_right (Nat.dvd_mul_left _ _)).mp aligned)
    have valid := ((jumps d' member' _ moved).resolve_left unaligned').2
    exact (validTarget_shifted ofBytes flagging inside).mp valid

/-- The run of the debugger over the bundle of `k`. -/
theorem validateBundle_found (ofBytes : dfa.OfBytes) (flagging : dfa.Flagging)
    (accepted : ChunkAccepted dfa code size) (small : size ≤ 2 ^ 32) (hc : c < size / kBundleSize)
    (k : Nat) :
    ∃ reports, validateChunkReports (fun _ _ => true) dfa true (fun i => code (c * kBundleSize + i))
        kBundleSize callUserCallbackOnEachInstruction = some (true, reports) ∧
      reports.foldr (fun r foundAddr => isOnInstBoundaryCallback k (c * kBundleSize + r.instructionBegin)
        r.info foundAddr) false = findAll k (bundleDescriptions dfa code c) false := by
  obtain ⟨inOrder, jumps⟩ := bundle_inOrder ofBytes flagging accepted small hc
  have one : kBundleSize / kBundleSize = 1 := by decide
  have ran := @validateChunkReports_inOrder (fun _ _ => true) kBundleSize
    callUserCallbackOnEachInstruction dfa (fun i => code (c * kBundleSize + i)) (by decide) (by decide)
    (by decide) (fun _ => True) (Nat.dvd_refl _)
    (fun c' inside => by
      obtain rfl : c' = 0 := by omega
      exact ⟨inOrder, jumps⟩) true (.inr rfl)
  rw [approved_always] at ran
  refine ⟨_, ran, ?_⟩
  have reports : chunkReports dfa (fun i => code (c * kBundleSize + i)) kBundleSize =
      (bundleDescriptions dfa (fun i => code (c * kBundleSize + i)) 0).map
        (Description.report kBundleSize) := by
    simp [chunkReports, one]
  rw [List.foldr_reverse, reports]
  exact foldl_report_shifted (bundleDescriptions_shifted ofBytes flagging c) k kBundleSize false

/-- Clearing the low bits of an address gives its bundle. -/
theorem toNat_bundle (a : BitVec 64) : (a &&& ~~~31).toNat = a.toNat / kBundleSize * kBundleSize := by
  have parts := Lib.toNat_and_not a 31
  have low : (a &&& 31).toNat = a.toNat % kBundleSize := by
    rw [BitVec.toNat_and]
    exact and_kBundleMask a.toNat
  simp only [kBundleSize] at *
  omega

/-- A breakpoint may be set exactly at the bundle starts and the valid targets of an accepted
    chunk. -/
theorem isOnInstBoundary_x86_64_eq (ofBytes : dfa.OfBytes) (wellReporting : dfa.WellReporting)
    (flagging : dfa.Flagging) {userCallback : Callback} (rejects : RejectsErrors userCallback)
    {options : Options} (fresh : extractRestrictedRegisterInitialValue options = ncNoReg)
    (bundles : options &&& processChunkAsAContiguousStream = 0) {allocated : Bool}
    (accepted : validateChunkAMD64 userCallback dfa allocated code size options = some true)
    {guestAddr addr : BitVec 64} (aligned : kBundleSize ∣ guestAddr.toNat)
    (fits : guestAddr.toNat + size ≤ 2 ^ 32) (first : guestAddr.toNat ≤ addr.toNat)
    (last : addr.toNat < guestAddr.toNat + size) :
    isOnInstBoundary_x86_64 dfa guestAddr addr code size =
      some (if kBundleSize ∣ addr.toNat ∨ bitmapIsBitSet
        (chunkState userCallback size options dfa code).validTargets (addr - guestAddr).toNat = true
        then .succeeded else .failed) := by
  have acceptable := validateChunkAMD64_accepted rejects fresh bundles accepted
  obtain ⟨k, position⟩ : ∃ k, addr.toNat = guestAddr.toNat + k := ⟨_, (Nat.add_sub_cancel' first).symm⟩
  have offset : (addr - guestAddr).toNat = k := by
    rw [BitVec.toNat_sub_of_le (BitVec.le_def.mpr first)]
    omega
  have multiple : size % kBundleSize = 0 := Nat.mod_eq_zero_of_dvd acceptable.1
  have hc : k / kBundleSize < size / kBundleSize :=
    Nat.div_lt_div_of_lt_of_dvd acceptable.1 (by omega)
  -- nothing in the address arithmetic wraps around
  have dataEnd : (guestAddr + BitVec.ofNat 64 size).toNat = guestAddr.toNat + size := by
    rw [BitVec.toNat_add, BitVec.toNat_ofNat]
    omega
  have base : ((guestAddr &&& ~~~31).setWidth 32).setWidth 64 = guestAddr := by
    rw [← BitVec.toNat_inj, BitVec.toNat_setWidth, BitVec.toNat_setWidth, toNat_bundle,
      Nat.div_mul_cancel aligned]
    omega
  have bundle : (((addr &&& ~~~31).setWidth 32).setWidth 64 - guestAddr).toNat =
      k / kBundleSize * kBundleSize := by
    have wide : (((addr &&& ~~~31).setWidth 32).setWidth 64).toNat =
        guestAddr.toNat + k / kBundleSize * kBundleSize := by
      rw [BitVec.toNat_setWidth, BitVec.toNat_setWidth, toNat_bundle, position]
      simp only [kBundleSize] at *
      omega
    rw [BitVec.toNat_sub_of_le (BitVec.le_def.mpr (by omega)), wide, Nat.add_sub_cancel_left]
  obtain ⟨reports, run, found⟩ := validateBundle_found ofBytes flagging acceptable (by omega) hc k
  have boundary : findAll k (bundleDescriptions dfa code (k / kBundleSize)) false = true ↔
      kBundleSize ∣ addr.toNat ∨ bitmapIsBitSet
        (chunkState userCallback size options dfa code).validTargets (addr - guestAddr).toNat = true := by
    have ran := bundlesState_ran userCallback fresh fun c inside => (acceptable.2 c inside).parsed
    have low : k / kBundleSize * kBundleSize ≤ k := Nat.div_mul_le_self k kBundleSize
    have high : k < k / kBundleSize * kBundleSize + kBundleSize :=
      Nat.lt_div_mul_add (by decide)
    have bundleStart : kBundleSize ∣ addr.toNat ↔ kBundleSize ∣ k := by
      rw [position]
      exact Nat.dvd_add_right aligned
    rw [findAll_bundle flagging wellReporting (acceptable.2 _ hc).parsed (acceptable.2 _ hc).clean low
      high, bundleStart, offset, chunkState_eq bundles acceptable.1]
    by_cases start : kBundleSize ∣ k
    · exact iff_of_true (.inl start) (.inl start)
    · rw [or_iff_right start, or_iff_right start, ran.valid k start, and_iff_right hc]
  unfold isOnInstBoundary_x86_64
  dsimp only
  rw [if_neg (not_not.mpr (BitVec.lt_def.mpr (by omega))), if_neg (not_not.mpr ⟨multiple, by omega⟩),
    if_neg (not_not.mpr base), if_neg (not_or.mpr ⟨fun lt => by
      exact absurd (BitVec.lt_def.mp lt) (Nat.not_lt.mpr first), fun le => by
      have le := BitVec.le_def.mp le
      omega⟩), bundle, offset, run]
  dsimp only
  rw [found]
  simp only [boundary, offset]

end Runs

/-! ## A superinstruction -/

/-- `mov %esi,%esi`, `lea (%r15,%rsi,1),%rsi`, `lods %ds:(%rsi),%al`, and `nop`s. -/
def lodsCode (i : Nat) : BitVec 8 :=
  ([0x89, 0xf6, 0x49, 0x8d, 0x34, 0x37, 0xac] : List (BitVec 8)).getD i nopOpcode

def lodsPieces : List Piece :=
  .super ⟨2, Nat.zero_lt_two, [.process1OperandZeroExtends false 0x26]⟩
      [⟨4, Nat.zero_lt_succ 3, [.process1Operand true 0x36]⟩]
      ⟨1, Nat.zero_lt_one, [.collectInfo specialInstruction]⟩ .memoryAccess ::
    List.replicate 25 (.single ⟨1, Nat.zero_lt_one, [.process0Operands]⟩)

/-- A DFA for this bundle. -/
def lodsDfa : Dfa := fun code start stop =>
  if fits : stop - start = kBundleSize ∧ ∀ i < kBundleSize, code (start + i) = lodsCode i then
    .accept lodsPieces (by rw [fits.1]; decide)
  else .error [] [] 0 (nothing_within start stop)

theorem lodsDfa_ofBytes : lodsDfa.OfBytes := by
  intro code code' start start' n same
  have alike : (n = kBundleSize ∧ ∀ i < kBundleSize, code (start + i) = lodsCode i) ↔
      (n = kBundleSize ∧ ∀ i < kBundleSize, code' (start' + i) = lodsCode i) := by
    apply and_congr_right
    rintro rfl
    exact forall₂_congr fun i hi => by rw [same i hi]
  simp only [lodsDfa, Parse.outline, Nat.add_sub_cancel_left]
  by_cases lods : n = kBundleSize ∧ ∀ i < kBundleSize, code' (start' + i) = lodsCode i
  · rw [dif_pos (alike.mpr lods), dif_pos lods]
  · rw [dif_neg fun here => lods (alike.mp here), dif_neg lods]

theorem lodsDfa_pieces {code : Nat → BitVec 8} {start stop : Nat} {p : Piece}
    (member : p ∈ (lodsDfa code start stop).pieces) : p ∈ lodsPieces := by
  unfold lodsDfa at member
  split at member
  · exact member
  · cases member

theorem lodsDfa_wellReporting : lodsDfa.WellReporting := by
  intro code start stop p member
  have regular : ∀ (n : Nat) (pos : 0 < n) (process : Action), process.Processes →
      Instruction.WellReported ⟨n, pos, [process]⟩ := by
    intro n pos process processes
    refine .regular process ⟨processes, ⟨[], [], rfl, by simp, by simp⟩, ?_⟩
    rintro ⟨a, member, jumps⟩
    cases List.mem_singleton.mp member
    cases process with
    | rel8Operand => exact processes.elim
    | rel32Operand => exact processes.elim
    | _ => exact jumps.elim
  cases List.mem_cons.mp (lodsDfa_pieces member) with
  | inl same =>
    subst same
    refine ⟨fun i among => ?_, ?_, ?_⟩
    · cases List.mem_cons.mp among with
      | inl first =>
        subst first
        exact regular 2 (by decide) _ trivial
      | inr second =>
        cases List.mem_singleton.mp second
        exact regular 4 (by decide) _ trivial
    · rintro name ⟨a, among, extended⟩
      cases List.mem_singleton.mp among
      exact extended
    · intro a among
      cases List.mem_singleton.mp among
      exact trivial
  | inr nop =>
    cases List.eq_of_mem_replicate nop
    exact regular 1 (by decide) _ trivial

theorem lodsDfa_flagging : lodsDfa.Flagging := by
  intro code start stop p member
  have plain : ∀ (n : Nat) (pos : 0 < n) (a : Action), (∀ bits, a = .collectInfo bits →
      bits &&& restrictedRegisterUsed = 0) → a ≠ .rel32Operand → Instruction.Flagged ⟨n, pos, [a]⟩ := by
    intro n pos a used rel32
    exact ⟨fun bits among => used bits (List.mem_singleton.mp among).symm,
      fun among => absurd (List.mem_singleton.mp among).symm rel32⟩
  cases List.mem_cons.mp (lodsDfa_pieces member) with
  | inl same =>
    subst same
    refine ⟨fun i among => ?_, ?_, ?_, ?_, ?_⟩
    · cases List.mem_cons.mp among with
      | inl first =>
        subst first
        exact plain 2 (by decide) _ (by simp) (by simp)
      | inr second =>
        cases List.mem_singleton.mp second
        exact plain 4 (by decide) _ (by simp) (by simp)
    · apply plain 1 (by decide) _ _ (by simp)
      intro bits same
      cases same
      decide
    · rintro ⟨a, among, relies⟩
      cases List.mem_singleton.mp among
      exact relies
    · exact ⟨specialInstruction, List.mem_cons_self, by decide⟩
    · intro jump
      exact absurd rfl jump
  | inr nop =>
    cases List.eq_of_mem_replicate nop
    exact plain 1 (by decide) _ (by simp) (by simp)

/-- Behind the superinstruction, but not inside it. -/
theorem isOnInstBoundary_x86_64_eq_lods :
    isOnInstBoundary_x86_64 lodsDfa 0x20000 0x20007 lodsCode 32 = some .succeeded ∧
    isOnInstBoundary_x86_64 lodsDfa 0x20000 0x20002 lodsCode 32 = some .failed := by
  have accepted : validateChunkAMD64 naClDfaProcessValidationError lodsDfa true lodsCode 32 0 =
      some true := by decide +kernel
  have rejects : RejectsErrors naClDfaProcessValidationError := fun _ _ _ => rfl
  constructor
  · rw [isOnInstBoundary_x86_64_eq lodsDfa_ofBytes lodsDfa_wellReporting lodsDfa_flagging rejects
      (by decide) (by decide) accepted (by decide) (by decide) (by decide) (by decide)]
    decide +kernel
  · rw [isOnInstBoundary_x86_64_eq lodsDfa_ofBytes lodsDfa_wellReporting lodsDfa_flagging rejects
      (by decide) (by decide) accepted (by decide) (by decide) (by decide) (by decide)]
    decide +kernel

end SandboxTEE.Validator
