import SandboxTEE.Validator.RegisterUse

/-! # The sandbox registers on every path

An execution path of an accepted chunk enters at a bundle start or a valid jump target and
goes on by falling through, by direct jumps, and by the indirect jumps of superinstructions,
which go to bundle starts.

* `Reported.obeys`: each instruction keeps to its part, given the register its predecessor
  in the bundle has restricted.
* `not_entry`: an instruction that relies on this register is no entry, so on a path its
  predecessor in the bundle has been executed just before it.
-/

namespace SandboxTEE.Validator

/-! ## Paths -/

/-- The instructions of a list that starts at `b`, each with its address. -/
def placeSteps : Nat → List Step → List (Nat × Step)
  | _, [] => []
  | b, step :: l => (b, step) :: placeSteps (b + step.instruction.length) l

def bundleSteps (dfa : Dfa) (code : Nat → BitVec 8) (c : Nat) : List Step :=
  (bundlePieces dfa code c).flatMap Piece.steps

/-- Where the runs of the DFA start and stop. -/
def dfaRuns (size : Nat) (options : Options) : List (Nat × Nat) :=
  if options &&& processChunkAsAContiguousStream ≠ 0 then [(0, size)]
  else (List.range (size / kBundleSize)).map fun c =>
    (c * kBundleSize, c * kBundleSize + kBundleSize)

/-- An instruction of the chunk that the DFA reports, at its address. -/
def Reported (dfa : Dfa) (code : Nat → BitVec 8) (size : Nat) (options : Options)
    (x : Nat × Step) : Prop :=
  ∃ run ∈ dfaRuns size options,
    x ∈ placeSteps run.1 ((dfa code run.1 run.2).pieces.flatMap Piece.steps)

/-- Where execution may go from an instruction.  Addresses are those of a 64-bit machine,
    relative to the chunk. -/
inductive Next (code : Nat → BitVec 8) : Nat × Step → Nat → Prop where
  | through (x : Nat × Step) : Next code x (x.1 + x.2.instruction.length)
  | jump (x : Nat × Step) (a : Action) (target : Int) (mem : a ∈ x.2.instruction.actions)
      (jump : a.jumpTarget code (x.1 + x.2.instruction.length) = some target) :
      Next code x (BitVec.ofInt 64 target).toNat
  /-- `naclcall` and `nacljmp` go to a bundle start. -/
  | indirect (x : Nat × Step) (kind : Sandboxed) (n target : Nat)
      (merge : x.2.merge = some (kind, n)) (jump : kind ≠ .memoryAccess)
      (aligned : kBundleSize ∣ target) : Next code x target

/-- A bundle start or a valid jump target, after a run of the validator. -/
def Entry (userCallback : Callback) (size : Nat) (options : Options) (dfa : Dfa)
    (code : Nat → BitVec 8) (address : Nat) : Prop :=
  kBundleSize ∣ address ∨
    bitmapIsBitSet (chunkState userCallback size options dfa code).validTargets address = true

structure ExecutionPath (userCallback : Callback) (size : Nat) (options : Options) (dfa : Dfa)
    (code : Nat → BitVec 8) (path : List (Nat × Step)) : Prop where
  reported : ∀ x ∈ path, Reported dfa code size options x
  enters : ∀ x ∈ path.head?, Entry userCallback size options dfa code x.1
  goesOn : path.IsChain fun x y => Next code x y.1

/-- What the sandbox relies on, for each instruction of a path. -/
structure RegisterDiscipline (dfa : Dfa) (code : Nat → BitVec 8) (size : Nat) (options : Options)
    (path : List (Nat × Step)) : Prop where
  r15 : ∀ x ∈ path, ¬ x.2.instruction.Modifies ncRegR15
  base : ∀ x ∈ path, ∀ base index, .checkMemoryAccess base index ∈ x.2.instruction.actions →
    base = ncRegRip ∨ base = ncRegR15 ∨ base = ncRegRsp ∨ base = ncRegRbp
  index : ∀ k x, path[k]? = some x → ∀ base index,
    .checkMemoryAccess base index ∈ x.2.instruction.actions → index ≠ ncNoReg →
    index ≠ ncRegRiz →
    ∃ j y, k = j + 1 ∧ path[j]? = some y ∧ y.2.instruction.ZeroExtends index
  /-- The sandboxing instruction stands behind the one that zero-extends. -/
  followed : ∀ x ∈ path, ∀ register, register = ncRegRbp ∨ register = ncRegRsp →
    x.2.instruction.ZeroExtends register → ∃ y, Reported dfa code size options y ∧
      y.1 = x.1 + x.2.instruction.length ∧ y.2.instruction.Sandboxes register
  next : ∀ k x y, path[k]? = some x → path[k + 1]? = some y →
    ∀ register, register = ncRegRbp ∨ register = ncRegRsp →
    x.2.instruction.ZeroExtends register → y.2.instruction.Sandboxes register
  entered : ∀ k y, path[k]? = some y → ∀ register, y.2.instruction.Sandboxes register →
    ∃ j x, k = j + 1 ∧ path[j]? = some x ∧ x.2.instruction.ZeroExtends register
  inside : ∀ y ∈ path, ∀ register, y.2.instruction.Sandboxes register → ¬ kBundleSize ∣ y.1

/-! ## Instructions in their bundle -/

/-- The size of some instructions. -/
def stepsLength (l : List Step) : Nat := totalLength (l.map Step.instruction)

theorem stepsLength_nil : stepsLength [] = 0 := rfl

theorem stepsLength_append (l l' : List Step) :
    stepsLength (l ++ l') = stepsLength l + stepsLength l' := by
  rw [stepsLength, List.map_append, totalLength_append]
  rfl

theorem stepsLength_cons (step : Step) (l : List Step) :
    stepsLength (step :: l) = step.instruction.length + stepsLength l := totalLength_cons ..

theorem mem_placeSteps {x : Nat × Step} {b : Nat} {l : List Step} :
    x ∈ placeSteps b l ↔ ∃ l₁ l₂, l = l₁ ++ x.2 :: l₂ ∧ x.1 = b + stepsLength l₁ := by
  induction l generalizing b with
  | nil => simp [placeSteps]
  | cons step l ih =>
    rw [placeSteps, List.mem_cons, ih]
    constructor
    · rintro (rfl | ⟨l₁, l₂, rfl, address⟩)
      · exact ⟨[], l, rfl, rfl⟩
      · exact ⟨step :: l₁, l₂, rfl, by rw [address, stepsLength_cons, Nat.add_assoc]⟩
    · rintro ⟨l₁, l₂, split, address⟩
      cases l₁ with
      | nil =>
        obtain ⟨rfl, rfl⟩ := List.cons.inj split
        exact Or.inl (Prod.ext address rfl)
      | cons first l₁ =>
        obtain ⟨rfl, rfl⟩ := List.cons.inj split
        exact Or.inr ⟨l₁, l₂, rfl, by rw [address, stepsLength_cons, Nat.add_assoc]⟩

/-- Instructions have a size, so an address splits a list in one way. -/
theorem append_inj_of_stepsLength {l₁ l₂ m₁ m₂ : List Step} (same : l₁ ++ l₂ = m₁ ++ m₂)
    (length : stepsLength l₁ = stepsLength m₁) : l₁ = m₁ ∧ l₂ = m₂ := by
  induction l₁ generalizing m₁ with
  | nil =>
    cases m₁ with
    | nil => exact ⟨rfl, same⟩
    | cons step m₁ =>
      have := step.instruction.length_pos
      rw [stepsLength_cons, stepsLength_nil] at length
      omega
  | cons step l₁ ih =>
    have pos := step.instruction.length_pos
    cases m₁ with
    | nil =>
      rw [stepsLength_cons, stepsLength_nil] at length
      omega
    | cons step' m₁ =>
      obtain ⟨rfl, rest⟩ := List.cons.inj same
      rw [stepsLength_cons, stepsLength_cons] at length
      obtain ⟨rfl, rfl⟩ := ih rest (by omega)
      exact ⟨rfl, rfl⟩

/-! ## The shape of a bundle -/

/-- An instruction is well reported, or it ends a superinstruction, and the one before it
    leaves no register restricted. -/
theorem wellReported_split {pieces : List Piece} (wellReported : ∀ p ∈ pieces, p.WellReported)
    {l₁ l₂ : List Step} {step : Step} (split : pieces.flatMap Piece.steps = l₁ ++ step :: l₂) :
    step.merge = none ∧ step.instruction.WellReported ∨
      (∀ a ∈ step.instruction.actions, a.Collects) ∧ ∃ l₀ last, l₁ = l₀ ++ [last] ∧
        last.merge = none ∧ last.instruction.WellReported ∧ last.instruction.Releases := by
  induction pieces generalizing l₁ with
  | nil => simp at split
  | cons p pieces ih =>
    obtain ⟨here, rest⟩ := List.forall_mem_cons.mp wellReported
    rw [List.flatMap_cons] at split
    rcases List.append_eq_append_iff.mp split with ⟨m, rfl, later⟩ | ⟨m, own, later⟩
    · refine (ih rest later).imp id fun ⟨collects, l₀, last, split₀, found⟩ => ?_
      exact ⟨collects, p.steps ++ l₀, last, by rw [split₀, List.append_assoc], found⟩
    · cases m with
      | nil =>
        rw [List.append_nil] at own
        rw [List.nil_append] at later
        refine (@ih rest [] later.symm).imp id fun ⟨_, l₀, last, split₀, _⟩ => ?_
        simp at split₀
      | cons first m =>
        obtain ⟨rfl, rfl⟩ := List.cons.inj later
        cases p with
        | single i =>
          cases l₁ with
          | nil =>
            obtain ⟨rfl, _⟩ := List.cons.inj own
            exact Or.inl ⟨rfl, here⟩
          | cons _ l₁ => simp [Piece.steps] at own
        | super first others last kind =>
          obtain ⟨components, releases, collects⟩ := here
          rw [Piece.steps] at own
          rcases List.eq_nil_or_concat m with rfl | ⟨m, z, rfl⟩
          · -- the last instruction, behind all the components
            obtain ⟨rfl, same⟩ := List.append_inj' own rfl
            obtain rfl := List.cons.inj same |>.1
            refine Or.inr ⟨collects, _, _,
              (List.dropLast_append_getLast (l := (first :: others).map (Step.mk · none))
                (by simp)).symm, ?_⟩
            rw [List.getLast_map (by simp)]
            exact ⟨rfl, components _ (List.getLast_mem _), releases⟩
          · have within : (first :: others).map (Step.mk · none) = l₁ ++ step :: m := by
              rw [List.concat_eq_append, ← List.cons_append, ← List.append_assoc] at own
              exact (List.append_inj' own rfl).1
            have mem : step ∈ (first :: others).map (Step.mk · none) := by
              rw [within]
              exact List.mem_append_right _ List.mem_cons_self
            obtain ⟨i, isComponent, rfl⟩ := List.mem_map.mp mem
            exact Or.inl ⟨rfl, components i isComponent⟩

/-! ## The restricted register in a bundle -/

section Bundle

variable {dfa : Dfa} {code : Nat → BitVec 8} {size : Nat} {options : Options}

/-- The register restricted behind the first instructions of a bundle. -/
def restrictedBehind (code : Nat → BitVec 8) (b : Nat) (l : List Step) : OperandName :=
  restrictedAfter ncNoReg (describeSteps code b ncNoReg l)

/-- The effect of the instruction behind `l`. -/
def effectBehind (code : Nat → BitVec 8) (b : Nat) (l : List Step) (step : Step) : Effect :=
  actionsEffect code (b + stepsLength l + step.instruction.length) (restrictedBehind code b l)
    step.instruction.actions

theorem Step.describe_effect (code : Nat → BitVec 8) (b : Nat) (restricted : OperandName)
    (step : Step) : let d := step.describe code b restricted
    let e := actionsEffect code (b + step.instruction.length) restricted step.instruction.actions
    d.restricted = e.restricted ∧ d.unmarks = e.unmarks ∧ d.jumps = e.jumps ∧
      (d.info &&& validationErrorsMask = 0 → e.Clean) := by
  unfold Step.describe
  cases step.merge with
  | none => exact ⟨rfl, rfl, rfl, id⟩
  | some merge =>
    dsimp only
    split
    · exact ⟨rfl, rfl, rfl, id⟩
    · exact ⟨rfl, rfl, rfl, fun clean => (or_and_eq_zero.mp clean).1⟩

theorem restrictedBehind_append (code : Nat → BitVec 8) (b : Nat) (l : List Step) (step : Step) :
    restrictedBehind code b (l ++ [step]) = (effectBehind code b l step).restricted := by
  rw [restrictedBehind, describeSteps_append, restrictedAfter, List.foldl_append]
  exact (Step.describe_effect code _ _ step).1

/-- The descriptions of a bundle around one of its instructions. -/
theorem bundleDescriptions_split {c : Nat} {l₁ l₂ : List Step} {step : Step}
    (split : bundleSteps dfa code c = l₁ ++ step :: l₂) : ∃ ds, bundleDescriptions dfa code c =
      describeSteps code (c * kBundleSize) ncNoReg l₁ ++
        step.describe code (c * kBundleSize + stepsLength l₁)
          (restrictedBehind code (c * kBundleSize) l₁) :: ds ∧
      ∀ d ∈ ds, c * kBundleSize + stepsLength l₁ < d.stop := by
  have described : bundleDescriptions dfa code c = describeSteps code (c * kBundleSize) ncNoReg
      (l₁ ++ step :: l₂) := congrArg (describeSteps code (c * kBundleSize) ncNoReg) split
  rw [describeSteps_append, describeSteps] at described
  refine ⟨_, described, fun d mem => ?_⟩
  have pos := step.instruction.length_pos
  have bounds := describeSteps_bounds code mem
  rw [Step.describe_stop] at bounds
  simp only [stepsLength]
  omega

/-- Each instruction of an accepted bundle keeps to its part. -/
theorem obeys (accepted : ChunkAccepted dfa code size) (wellReporting : dfa.WellReporting) {c : Nat}
    (hc : c < size / kBundleSize) {l₁ l₂ : List Step} {step : Step}
    (split : bundleSteps dfa code c = l₁ ++ step :: l₂) :
    step.instruction.Obeys (restrictedBehind code (c * kBundleSize) l₁)
      (effectBehind code (c * kBundleSize) l₁ step) := by
  have clean : ∀ {l₁ l₂ : List Step} {step : Step}, bundleSteps dfa code c = l₁ ++ step :: l₂ →
      (effectBehind code (c * kBundleSize) l₁ step).Clean := by
    intro l₁ l₂ step split
    obtain ⟨ds, described, _⟩ := bundleDescriptions_split split
    apply (Step.describe_effect code _ _ step).2.2.2
    apply (accepted.2 c hc).clean
    rw [described]
    exact List.mem_append_right _ List.mem_cons_self
  rcases wellReported_split (wellReporting _ _ _) split with
    ⟨_, shape⟩ | ⟨collects, l₀, last, rfl, _, shape, releases⟩
  · exact shape.obeys (clean split)
  · have before : bundleSteps dfa code c = l₀ ++ last :: step :: l₂ := by
      rw [split, List.append_assoc]
      rfl
    have released : restrictedBehind code (c * kBundleSize) (l₀ ++ [last]) = ncNoReg := by
      rw [restrictedBehind_append]
      by_contra restricted
      exact releases _ ((shape.obeys (clean before)).extended restricted)
    rw [effectBehind, released]
    exact Instruction.obeys_of_collects collects code _

theorem Reported.split (bundles : options &&& processChunkAsAContiguousStream = 0)
    {x : Nat × Step} (reported : Reported dfa code size options x) :
    ∃ c < size / kBundleSize, ∃ l₁ l₂, bundleSteps dfa code c = l₁ ++ x.2 :: l₂ ∧
      x.1 = c * kBundleSize + stepsLength l₁ := by
  obtain ⟨run, isRun, mem⟩ := reported
  rw [dfaRuns, if_neg (not_not.mpr bundles)] at isRun
  obtain ⟨c, hc, rfl⟩ := List.mem_map.mp isRun
  obtain ⟨l₁, l₂, split, address⟩ := mem_placeSteps.mp mem
  exact ⟨c, List.mem_range.mp hc, l₁, l₂, split, address⟩

theorem Reported.of_split (bundles : options &&& processChunkAsAContiguousStream = 0)
    {x : Nat × Step} {c : Nat} (hc : c < size / kBundleSize) {l₁ l₂ : List Step}
    (split : bundleSteps dfa code c = l₁ ++ x.2 :: l₂)
    (address : x.1 = c * kBundleSize + stepsLength l₁) : Reported dfa code size options x := by
  refine ⟨(c * kBundleSize, c * kBundleSize + kBundleSize), ?_,
    mem_placeSteps.mpr ⟨l₁, l₂, split, address⟩⟩
  rw [dfaRuns, if_neg (not_not.mpr bundles)]
  exact List.mem_map.mpr ⟨c, List.mem_range.mpr hc, rfl⟩

theorem bundleSteps_length (accepted : ChunkAccepted dfa code size) {c : Nat}
    (hc : c < size / kBundleSize) : stepsLength (bundleSteps dfa code c) = kBundleSize :=
  bundlePieces_totalLength dfa code (accepted.2 c hc).parsed

theorem marksAll_eq_false {ds : List Description} {valid : Nat → Bool} {k : Nat}
    (before : valid k = false) (later : ∀ d ∈ ds, k ≠ d.stop) : marksAll ds valid k = false := by
  induction ds generalizing valid with
  | nil => exact before
  | cons d ds ih =>
    obtain ⟨here, rest⟩ := List.forall_mem_cons.mp later
    exact ih (by simp [Description.marks, before, here]) rest

/-- An instruction that unmarks itself is no valid target. -/
theorem not_validTarget {c : Nat} {l₁ l₂ : List Step} {step : Step}
    (split : bundleSteps dfa code c = l₁ ++ step :: l₂) (small : stepsLength l₁ < kBundleSize)
    (unmarks : (effectBehind code (c * kBundleSize) l₁ step).unmarks = true) :
    ¬ ValidTarget dfa code (c * kBundleSize + stepsLength l₁) := by
  obtain ⟨ds, described, later⟩ := bundleDescriptions_split split
  have bundle : (c * kBundleSize + stepsLength l₁) / kBundleSize = c := by
    rw [Nat.mul_comm, Nat.mul_add_div (by decide), Nat.div_eq_of_lt small, Nat.add_zero]
  have pos := step.instruction.length_pos
  rw [ValidTarget, bundle, described, marksAll, List.foldl_append, List.foldl_cons, Bool.not_eq_true]
  apply marksAll_eq_false
  · simp only [Description.marks, Step.describe_stop, Step.describe_lastStart]
    rw [(Step.describe_effect code _ _ step).2.1,
      show (actionsEffect code _ _ step.instruction.actions).unmarks = true from unmarks]
    simp only [beq_self_eq_true, Bool.and_self, Bool.not_true, Bool.and_false, Bool.false_and,
      Bool.or_false, beq_eq_false_iff_ne]
    omega
  · intro d mem
    have := later d mem
    omega

/-- An instruction that relies on a restricted register is no entry. -/
theorem not_entry (userCallback : Callback)
    (fresh : extractRestrictedRegisterInitialValue options = ncNoReg)
    (bundles : options &&& processChunkAsAContiguousStream = 0)
    (accepted : ChunkAccepted dfa code size) {c : Nat} (hc : c < size / kBundleSize)
    {l₁ l₂ : List Step} {step : Step} (split : bundleSteps dfa code c = l₁ ++ step :: l₂)
    (restricted : restrictedBehind code (c * kBundleSize) l₁ ≠ ncNoReg)
    (unmarks : (effectBehind code (c * kBundleSize) l₁ step).unmarks = true) : 0 < stepsLength l₁ ∧
      ¬ Entry userCallback size options dfa code (c * kBundleSize + stepsLength l₁) := by
  have total := bundleSteps_length accepted hc
  rw [split, stepsLength_append, stepsLength_cons] at total
  have pos := step.instruction.length_pos
  have small : stepsLength l₁ < kBundleSize := by omega
  have nonempty : 0 < stepsLength l₁ := by
    cases l₁ with
    | nil => exact absurd rfl restricted
    | cons first l₁ =>
      have := first.instruction.length_pos
      rw [stepsLength_cons]
      omega
  have unaligned : ¬ kBundleSize ∣ c * kBundleSize + stepsLength l₁ := by
    rw [Nat.dvd_add_right (Nat.dvd_mul_left ..)]
    exact Nat.not_dvd_of_pos_of_lt nonempty small
  refine ⟨nonempty, ?_⟩
  rintro (aligned | marked)
  · exact unaligned aligned
  · have ran := bundlesState_ran userCallback fresh fun c hc =>
      (accepted.2 c hc).parsed
    rw [chunkState_eq bundles accepted.1] at marked
    exact not_validTarget split small unmarks ((ran.valid _ unaligned).mp marked).2

theorem mem_actionsEffect_jumps {rip : Nat} {a : Action} {actions : List Action}
    (mem : a ∈ actions) {target : Int} (jump : a.jumpTarget code rip = some target)
    (restricted : OperandName) :
    (BitVec.ofInt 64 target).toNat ∈ (actionsEffect code rip restricted actions).jumps := by
  induction actions generalizing restricted with
  | nil => cases mem
  | cons b actions ih =>
    simp only [actionsEffect, Effect.andThen, List.mem_append]
    cases mem with
    | head =>
      cases a with
      | rel8Operand =>
        cases jump
        exact Or.inl List.mem_cons_self
      | rel32Operand =>
        cases jump
        exact Or.inl List.mem_cons_self
      | _ => cases jump
    | tail _ mem => exact Or.inr (ih mem _)

/-- Direct jumps of an accepted chunk go to entries. -/
theorem jump_entry {userCallback : Callback}
    (fresh : extractRestrictedRegisterInitialValue options = ncNoReg)
    (bundles : options &&& processChunkAsAContiguousStream = 0)
    (accepted : ChunkAccepted dfa code size) {x : Nat × Step} (reported : Reported dfa code size options x)
    {a : Action} (mem : a ∈ x.2.instruction.actions) {target : Int}
    (jump : a.jumpTarget code (x.1 + x.2.instruction.length) = some target) :
    Entry userCallback size options dfa code (BitVec.ofInt 64 target).toNat := by
  obtain ⟨c, hc, l₁, l₂, split, address⟩ := reported.split bundles
  obtain ⟨ds, described, _⟩ := bundleDescriptions_split split
  have recorded := mem_actionsEffect_jumps mem jump (restrictedBehind code (c * kBundleSize) l₁)
  rw [address, ← (Step.describe_effect code _ _ x.2).2.2.1] at recorded
  rcases (accepted.2 c hc).jumps _ (by rw [described]; simp) _ recorded with
    aligned | ⟨inside, valid⟩
  · exact Or.inl aligned
  · by_cases aligned : kBundleSize ∣ (BitVec.ofInt 64 target).toNat
    · exact Or.inl aligned
    · have ran := bundlesState_ran userCallback fresh fun c hc =>
        (accepted.2 c hc).parsed
      refine Or.inr ?_
      rw [chunkState_eq bundles accepted.1]
      exact ((ran.valid _ aligned).mpr
        ⟨Nat.div_lt_div_of_lt_of_dvd accepted.1 inside, valid⟩)

theorem Reported.eq_of_address (bundles : options &&& processChunkAsAContiguousStream = 0)
    (accepted : ChunkAccepted dfa code size) {y : Nat × Step}
    (reported : Reported dfa code size options y) {c : Nat} (hc : c < size / kBundleSize)
    {l₁ l₂ : List Step} {step : Step} (split : bundleSteps dfa code c = l₁ ++ step :: l₂)
    (address : y.1 = c * kBundleSize + stepsLength l₁) : y.2 = step := by
  obtain ⟨c', hc', m₁, m₂, split', address'⟩ := reported.split bundles
  have total := bundleSteps_length accepted hc
  have total' := bundleSteps_length accepted hc'
  have pos := step.instruction.length_pos
  have pos' := y.2.instruction.length_pos
  rw [split, stepsLength_append, stepsLength_cons] at total
  rw [split', stepsLength_append, stepsLength_cons] at total'
  obtain rfl : c = c' := by
    simp only [kBundleSize] at *
    omega
  have same := append_inj_of_stepsLength (split'.symm.trans split) (by omega)
  exact (List.cons.inj same.2).1

/-- The instruction that ends where another one starts, inside a bundle, stands before it. -/
theorem Reported.predecessor (bundles : options &&& processChunkAsAContiguousStream = 0)
    (accepted : ChunkAccepted dfa code size) {x : Nat × Step}
    (reported : Reported dfa code size options x) {c : Nat} (hc : c < size / kBundleSize)
    {l₁ l₂ : List Step} {step : Step} (split : bundleSteps dfa code c = l₁ ++ step :: l₂)
    (inner : 0 < stepsLength l₁)
    (ends : x.1 + x.2.instruction.length = c * kBundleSize + stepsLength l₁) :
    ∃ l₀, l₁ = l₀ ++ [x.2] := by
  obtain ⟨c', hc', m₁, m₂, split', address⟩ := reported.split bundles
  have total := bundleSteps_length accepted hc
  have total' := bundleSteps_length accepted hc'
  have pos := step.instruction.length_pos
  have pos' := x.2.instruction.length_pos
  rw [split, stepsLength_append, stepsLength_cons] at total
  rw [split', stepsLength_append, stepsLength_cons] at total'
  obtain rfl : c = c' := by
    simp only [kBundleSize] at *
    omega
  have same : l₁ ++ step :: l₂ = (m₁ ++ [x.2]) ++ m₂ := by
    rw [← split, split', List.append_assoc]
    rfl
  refine ⟨m₁, (append_inj_of_stepsLength same ?_).1⟩
  rw [stepsLength_append, stepsLength_cons, stepsLength_nil]
  omega

end Bundle

/-! ## Paths -/

/-- On a path, what is no entry is reached by falling through. -/
theorem ExecutionPath.through {userCallback : Callback} {dfa : Dfa} {code : Nat → BitVec 8}
    {size : Nat} {options : Options}
    (fresh : extractRestrictedRegisterInitialValue options = ncNoReg)
    (bundles : options &&& processChunkAsAContiguousStream = 0)
    (accepted : ChunkAccepted dfa code size) {path : List (Nat × Step)}
    (execution : ExecutionPath userCallback size options dfa code path) {k : Nat} {y : Nat × Step}
    (here : path[k]? = some y) (notEntry : ¬ Entry userCallback size options dfa code y.1) :
    ∃ j x, k = j + 1 ∧ path[j]? = some x ∧ y.1 = x.1 + x.2.instruction.length := by
  cases k with
  | zero => exact absurd (execution.enters y (by rw [List.head?_eq_getElem?]; exact here)) notEntry
  | succ j =>
    obtain ⟨inside, rfl⟩ := List.getElem?_eq_some_iff.mp here
    have before : path[j]? = some path[j] := List.getElem?_eq_getElem (by omega)
    refine ⟨j, path[j], rfl, before, ?_⟩
    have next := List.isChain_iff_getElem.mp execution.goesOn j inside
    have reported := execution.reported _ (List.getElem_mem (by omega : j < path.length))
    generalize path[j] = x at next reported ⊢
    generalize (path[j + 1]).1 = address at next notEntry ⊢
    cases next with
    | through => rfl
    | jump a target mem jump => exact absurd (jump_entry fresh bundles accepted reported mem jump) notEntry
    | indirect kind n _ merge jump aligned => exact absurd (Or.inl aligned) notEntry

/-- Behind an instruction that zero-extends `%rbp` or `%rsp` stands the one that restores it. -/
theorem sandboxing_behind {dfa : Dfa} {code : Nat → BitVec 8} {size : Nat}
    (accepted : ChunkAccepted dfa code size) (wellReporting : dfa.WellReporting) {c : Nat}
    (hc : c < size / kBundleSize) {l₁ l₂ : List Step} {step : Step}
    (split : bundleSteps dfa code c = l₁ ++ step :: l₂) {register : OperandName}
    (isName : register = ncRegRbp ∨ register = ncRegRsp)
    (extended : step.instruction.ZeroExtends register) :
    ∃ step' l₃, l₂ = step' :: l₃ ∧ step'.instruction.Sandboxes register := by
  have restricted : restrictedBehind code (c * kBundleSize) (l₁ ++ [step]) = register := by
    rw [restrictedBehind_append]
    exact (obeys accepted wellReporting hc split).restricts register isName extended
  cases l₂ with
  | nil =>
    have ended : restrictedAfter ncNoReg (bundleDescriptions dfa code c) = register := by
      rw [← restricted, ← split]
      rfl
    rcases isName with rfl | rfl
    · exact absurd ended (accepted.2 c hc).rbp
    · exact absurd ended (accepted.2 c hc).rsp
  | cons step' l₃ =>
    have split' : bundleSteps dfa code c = (l₁ ++ [step]) ++ step' :: l₃ := by
      rw [split, List.append_assoc]
      rfl
    have behind := (obeys accepted wellReporting hc split').restores
    rw [restricted] at behind
    exact ⟨step', l₃, rfl, behind isName⟩

section Path

variable {userCallback : Callback} {dfa : Dfa} {code : Nat → BitVec 8} {size : Nat}
  {options : Options} {path : List (Nat × Step)}
  (fresh : extractRestrictedRegisterInitialValue options = ncNoReg)
  (bundles : options &&& processChunkAsAContiguousStream = 0)
  (accepted : ChunkAccepted dfa code size) (wellReporting : dfa.WellReporting)
  (execution : ExecutionPath userCallback size options dfa code path)

include fresh bundles accepted wellReporting execution

/-- What relies on a restricted register is executed just behind the instruction that
    zero-extends this register. -/
theorem ExecutionPath.relies {k : Nat} {y : Nat × Step} (here : path[k]? = some y) {c : Nat}
    (hc : c < size / kBundleSize) {l₁ l₂ : List Step}
    (split : bundleSteps dfa code c = l₁ ++ y.2 :: l₂)
    (address : y.1 = c * kBundleSize + stepsLength l₁)
    (restricted : restrictedBehind code (c * kBundleSize) l₁ ≠ ncNoReg)
    (unmarks : (effectBehind code (c * kBundleSize) l₁ y.2).unmarks = true) :
    ∃ j x, k = j + 1 ∧ path[j]? = some x ∧
      x.2.instruction.ZeroExtends (restrictedBehind code (c * kBundleSize) l₁) := by
  obtain ⟨inner, notEntry⟩ := not_entry userCallback fresh bundles accepted hc split
    restricted unmarks
  rw [← address] at notEntry
  obtain ⟨j, x, hk, before, ends⟩ := execution.through fresh bundles accepted here notEntry
  have reported := execution.reported x (List.mem_of_getElem? before)
  obtain ⟨l₀, rfl⟩ := reported.predecessor bundles accepted hc split inner (by rw [← ends, address])
  refine ⟨j, x, hk, before, ?_⟩
  have splitBefore : bundleSteps dfa code c = l₀ ++ x.2 :: y.2 :: l₂ := by
    rw [split, List.append_assoc]
    rfl
  rw [restrictedBehind_append] at restricted ⊢
  exact (obeys accepted wellReporting hc splitBefore).extended restricted

omit fresh in
theorem ExecutionPath.next {k : Nat} {x y : Nat × Step} (here : path[k]? = some x)
    (behind : path[k + 1]? = some y) {register : OperandName}
    (isName : register = ncRegRbp ∨ register = ncRegRsp)
    (extended : x.2.instruction.ZeroExtends register) : y.2.instruction.Sandboxes register := by
  have reported := execution.reported x (List.mem_of_getElem? here)
  have reported' := execution.reported y (List.mem_of_getElem? behind)
  obtain ⟨c, hc, l₁, l₂, split, address⟩ := reported.split bundles
  obtain ⟨step', l₃, rfl, sandboxes⟩ :=
    sandboxing_behind accepted wellReporting hc split isName extended
  have own := obeys accepted wellReporting hc split
  have next : Next code x y.1 := by
    obtain ⟨inside, rfl⟩ := List.getElem?_eq_some_iff.mp behind
    obtain ⟨_, rfl⟩ := List.getElem?_eq_some_iff.mp here
    exact List.isChain_iff_getElem.mp execution.goesOn k inside
  generalize hy : y.1 = target at next
  cases next with
  | through =>
    have split' : bundleSteps dfa code c = (l₁ ++ [x.2]) ++ step' :: l₃ := by
      rw [split, List.append_assoc]
      rfl
    have same := reported'.eq_of_address bundles accepted hc split' (by
      rw [hy, address, stepsLength_append, stepsLength_cons, stepsLength_nil, Nat.add_zero,
        Nat.add_assoc])
    rwa [same]
  | jump a target mem jump =>
    have jumps : x.2.instruction.Jumps := by
      refine ⟨a, mem, ?_⟩
      cases a <;> trivial
    have released := own.jumps jumps
    rw [own.restricts register isName extended] at released
    rcases isName with rfl | rfl <;> exact absurd released (by decide)
  | indirect kind n _ merge jump aligned =>
    rcases wellReported_split (wellReporting _ _ _) split with ⟨none, _⟩ | ⟨collects, _⟩
    · rw [none] at merge
      cases merge
    · obtain ⟨a, mem, extended⟩ := extended
      exact absurd extended (Action.Prepares.silent (Or.inl (collects a mem)) register).2.1

theorem ExecutionPath.discipline : RegisterDiscipline dfa code size options path := by
  have own : ∀ x ∈ path, ∃ c, ∃ _ : c < size / kBundleSize, ∃ l₁ l₂,
      bundleSteps dfa code c = l₁ ++ x.2 :: l₂ ∧ x.1 = c * kBundleSize + stepsLength l₁ ∧
      x.2.instruction.Obeys (restrictedBehind code (c * kBundleSize) l₁)
        (effectBehind code (c * kBundleSize) l₁ x.2) := by
    intro x mem
    obtain ⟨c, hc, l₁, l₂, split, address⟩ := (execution.reported x mem).split bundles
    exact ⟨c, hc, l₁, l₂, split, address, obeys accepted wellReporting hc split⟩
  have isRegister : ∀ {i : Instruction} {register}, i.Sandboxes register →
      register = ncRegRbp ∨ register = ncRegRsp := by
    rintro i register ⟨a, _, sandboxes⟩
    cases a with
    | rbpSandboxing => exact Or.inl sandboxes
    | rspSandboxing => exact Or.inr sandboxes
    | _ => exact sandboxes.elim
  have notNone : ∀ {register}, register = ncRegRbp ∨ register = ncRegRsp → register ≠ ncNoReg := by
    rintro register (rfl | rfl) <;> decide
  exact {
    r15 := fun x mem => by
      obtain ⟨c, hc, l₁, l₂, _, _, obeys⟩ := own x mem
      exact obeys.r15
    base := fun x mem => by
      obtain ⟨c, hc, l₁, l₂, _, _, obeys⟩ := own x mem
      exact obeys.base
    index := fun k x here base index access noReg riz => by
      obtain ⟨c, hc, l₁, l₂, split, address, obeys⟩ := own x (List.mem_of_getElem? here)
      obtain ⟨used, unmarks⟩ := obeys.index base index access noReg riz
      rw [used] at noReg ⊢
      exact execution.relies fresh bundles accepted wellReporting here hc split address noReg unmarks
    followed := fun x mem register isName extended => by
      obtain ⟨c, hc, l₁, l₂, split, address, _⟩ := own x mem
      obtain ⟨step', l₃, rfl, sandboxes⟩ :=
        sandboxing_behind accepted wellReporting hc split isName extended
      refine ⟨(x.1 + x.2.instruction.length, step'), ?_, rfl, sandboxes⟩
      apply @Reported.of_split _ _ _ _ bundles _ _ hc (l₁ ++ [x.2]) l₃
      · rw [split, List.append_assoc]
        rfl
      · rw [address, stepsLength_append, stepsLength_cons, stepsLength_nil, Nat.add_zero,
          Nat.add_assoc]
    next := fun k x y here behind register isName extended =>
      execution.next bundles accepted wellReporting here behind isName extended
    entered := fun k y here register sandboxes => by
      obtain ⟨c, hc, l₁, l₂, split, address, obeys⟩ := own y (List.mem_of_getElem? here)
      obtain ⟨used, unmarks⟩ := obeys.sandboxes register sandboxes
      have restricted := notNone (isRegister sandboxes)
      rw [← used] at restricted ⊢
      exact execution.relies fresh bundles accepted wellReporting here hc split address restricted unmarks
    inside := fun y mem register sandboxes aligned => by
      obtain ⟨c, hc, l₁, l₂, split, address, obeys⟩ := own y mem
      obtain ⟨used, unmarks⟩ := obeys.sandboxes register sandboxes
      have restricted := notNone (isRegister sandboxes)
      rw [← used] at restricted
      have notEntry := (not_entry userCallback fresh bundles accepted hc split
        restricted unmarks).2
      exact notEntry (Or.inl (address ▸ aligned)) }

end Path

/-- In a chunk accepted bundle by bundle, with a callback that rejects errors and no register
    restricted initially, every path keeps to the discipline of the sandbox registers. -/
theorem validateChunkAMD64_registerDiscipline {userCallback : Callback}
    (rejects : RejectsErrors userCallback) {dfa : Dfa} (wellReporting : dfa.WellReporting)
    {allocated : Bool} {code : Nat → BitVec 8} {size : Nat} {options : Options}
    (fresh : extractRestrictedRegisterInitialValue options = ncNoReg)
    (bundles : options &&& processChunkAsAContiguousStream = 0)
    (accepted : validateChunkAMD64 userCallback dfa allocated code size options = some true)
    {path : List (Nat × Step)}
    (execution : ExecutionPath userCallback size options dfa code path) :
    RegisterDiscipline dfa code size options path :=
  execution.discipline fresh bundles (validateChunkAMD64_accepted rejects fresh bundles accepted)
    wellReporting

/-! ## A small decoder -/

/-- `nop` -/
def nop : Instruction := ⟨1, Nat.zero_lt_one, [.process0Operands]⟩

/-- `mov %eax,%eax` -/
def movEaxEax : Instruction :=
  ⟨2, Nat.zero_lt_two, [.process1OperandZeroExtends false operandSandboxRestricted]⟩

/-- `mov (%r15,%rax,1),%eax` -/
def loadEax : Instruction :=
  ⟨4, by decide, [.checkMemoryAccess ncRegR15 0,
    .process1OperandZeroExtends true operandSandboxRestricted]⟩

def decodeByte (byte : BitVec 8) : Option Instruction :=
  if byte = 0x90 then some nop
  else if byte = 0x89 then some movEaxEax
  else if byte = 0x41 then some loadEax
  else none

def decodePieces (code : Nat → BitVec 8) (stop : Nat) : Nat → Nat → List Piece
  | 0, _ => []
  | fuel + 1, position =>
    if position < stop then
      match decodeByte (code position) with
      | some i => .single i :: decodePieces code stop fuel (position + i.length)
      | none => []
    else []

/-- A DFA that knows three instructions. -/
def smallDfa : Dfa := fun code start stop =>
  if total : ((decodePieces code stop (stop - start) start).map Piece.length).sum = stop - start then
    .accept (decodePieces code stop (stop - start) start) total
  else .error [] [] 0 (nothing_within start stop)

theorem decodeByte_wellReported {byte : BitVec 8} {i : Instruction}
    (decoded : decodeByte byte = some i) : i.WellReported := by
  unfold decodeByte at decoded
  split_ifs at decoded <;> obtain rfl := Option.some.inj decoded
  · exact .regular .process0Operands ⟨trivial, ⟨[], [], rfl, by simp, by simp⟩, fun _ => rfl⟩
  · exact .regular (.process1OperandZeroExtends _ _) ⟨trivial, ⟨[], [], rfl, by simp, by simp⟩, by
      simp [Instruction.Jumps, movEaxEax, Action.Jumps]⟩
  · exact .regular (.process1OperandZeroExtends _ _) ⟨trivial,
      ⟨[.checkMemoryAccess ncRegR15 0], [], rfl, by simp [Action.Prepares], by simp⟩, by simp [Instruction.Jumps, loadEax, Action.Jumps]⟩

theorem decodePieces_wellReported {code : Nat → BitVec 8} {stop fuel position : Nat} {p : Piece}
    (mem : p ∈ decodePieces code stop fuel position) : p.WellReported := by
  induction fuel generalizing position with
  | zero => cases mem
  | succ fuel ih =>
    rw [decodePieces] at mem
    split at mem
    · split at mem
      · next i decoded =>
        cases mem with
        | tail _ mem => exact ih mem
        | head => exact decodeByte_wellReported decoded
      · cases mem
    · cases mem

theorem smallDfa_wellReporting : smallDfa.WellReporting := by
  intro code start stop p mem
  unfold smallDfa at mem
  split at mem
  · exact decodePieces_wellReported mem
  · cases mem

/-- `mov %eax,%eax; mov (%r15,%rax,1),%eax; nop; …` -/
def loadCode : Nat → BitVec 8 := fun i =>
  [0x89, 0xc0, 0x41, 0x8b, 0x04, 0x07].getD i 0x90

theorem validateChunkAMD64_registerDiscipline_loadCode :
    RegisterDiscipline smallDfa loadCode 32 0 [(0, ⟨movEaxEax, none⟩), (2, ⟨loadEax, none⟩)] := by
  have accepted : validateChunkAMD64 (fun _ _ => false) smallDfa true loadCode 32 0 = some true := by
    decide +kernel
  refine validateChunkAMD64_registerDiscipline (fun _ _ _ => rfl) smallDfa_wellReporting
    (by decide) (by decide) accepted ⟨?_, ?_, ?_⟩
  · refine List.forall_mem_cons.mpr ⟨?_, List.forall_mem_singleton.mpr ?_⟩
    · exact ⟨(0, 32), List.mem_cons_self, mem_placeSteps.mpr ⟨[], _, rfl, rfl⟩⟩
    · exact ⟨(0, 32), List.mem_cons_self, mem_placeSteps.mpr ⟨[⟨movEaxEax, none⟩], _, rfl, rfl⟩⟩
  · intro x mem
    obtain rfl := Option.some.inj mem
    exact Or.inl (Nat.dvd_zero _)
  · exact .cons_cons (Next.through _) (.singleton _)

/-- With another initial restricted register, or when the chunk is processed as one stream, a
    bundle may start with an instruction that relies on a restricted register. -/
theorem registerDiscipline_options :
    (validateChunkAMD64 (fun _ _ => false) smallDfa true (fun i => loadCode (i + 2)) 32 25 =
        some true ∧
      ExecutionPath (fun _ _ => false) 32 25 smallDfa (fun i => loadCode (i + 2))
        [(0, ⟨loadEax, none⟩)] ∧
      ¬ RegisterDiscipline smallDfa (fun i => loadCode (i + 2)) 32 25 [(0, ⟨loadEax, none⟩)]) ∧
    validateChunkAMD64 (fun _ _ => false) smallDfa true
        (fun i => if i < 30 then 0x90 else loadCode (i - 30)) 64
        processChunkAsAContiguousStream = some true ∧
      ExecutionPath (fun _ _ => false) 64 processChunkAsAContiguousStream smallDfa
        (fun i => if i < 30 then 0x90 else loadCode (i - 30)) [(32, ⟨loadEax, none⟩)] ∧
      ¬ RegisterDiscipline smallDfa (fun i => if i < 30 then 0x90 else loadCode (i - 30)) 64
        processChunkAsAContiguousStream [(32, ⟨loadEax, none⟩)] := by
  have undisciplined : ∀ code size options address,
      ¬ RegisterDiscipline smallDfa code size options [(address, ⟨loadEax, none⟩)] := by
    intro code size options address discipline
    obtain ⟨j, _, impossible, _⟩ := discipline.index 0 _ rfl ncRegR15 0 List.mem_cons_self
      (by decide) (by decide)
    omega
  refine ⟨⟨by decide +kernel, ⟨?_, ?_, .singleton _⟩, undisciplined _ _ _ _⟩,
    by decide +kernel, ⟨?_, ?_, .singleton _⟩, undisciplined _ _ _ _⟩
  · exact List.forall_mem_singleton.mpr
      ⟨(0, 32), List.mem_cons_self, mem_placeSteps.mpr ⟨[], _, rfl, rfl⟩⟩
  · intro x mem
    obtain rfl := Option.some.inj mem
    exact Or.inl (Nat.dvd_zero _)
  · refine List.forall_mem_singleton.mpr ⟨(0, 64), List.mem_cons_self, mem_placeSteps.mpr
      ⟨List.replicate 30 ⟨nop, none⟩ ++ [⟨movEaxEax, none⟩], _, rfl, rfl⟩⟩
  · intro x mem
    obtain rfl := Option.some.inj mem
    exact Or.inl (by decide)

end SandboxTEE.Validator
