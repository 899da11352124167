import SandboxTEE.Validator.Described
import SandboxTEE.Validator.JumpTargets

/-! # When a chunk is accepted

With a callback that rejects errors, a chunk is accepted exactly when each bundle is: its
pieces are clean, it ends with neither `%rbp` nor `%rsp` restricted, and its direct jumps go
to bundle starts or to valid targets (`ChunkAccepted`).  The valid targets of a bundle
depend on its own descriptions only (`ValidTarget`).
-/

namespace SandboxTEE.Validator

/-! ## Valid targets of a bundle -/

/-- The valid targets after an instruction, given those before it. -/
def Description.marks (d : Description) (valid : Nat → Bool) (k : Nat) : Bool :=
  k == d.stop || valid k && !(d.unmarks && k == d.lastStart) &&
    !d.merged.any fun n => d.start < k && k ≤ d.start + n

def marksAll (ds : List Description) (valid : Nat → Bool) : Nat → Bool :=
  ds.foldl (fun valid d => d.marks valid) valid

/-- The description is of an instruction in the bundle that starts at `b`. -/
structure Description.Inside (b : Nat) (d : Description) : Prop where
  first : b ≤ d.lastStart
  nonempty : d.lastStart < d.stop
  last : d.stop ≤ b + kBundleSize
  merged : ∀ n ∈ d.merged, b ≤ d.start ∧ d.start + n = d.lastStart

variable {b : Nat} {v : Bitmap}

theorem Description.Inside.mark_isBitSet {d : Description} (inside : d.Inside b)
    (aligned : b % kBundleSize = 0) (words : d.stop / 64 < v.length) (k : Nat) :
    bitmapIsBitSet (d.mark v) k = d.marks (bitmapIsBitSet v) k := by
  obtain ⟨first, nonempty, last, merged⟩ := inside
  simp only [kBundleSize] at aligned last
  have unmarked : ∀ j, bitmapIsBitSet
      (if d.unmarks then bitmapClearBit v d.lastStart else v) j =
      (bitmapIsBitSet v j && !(d.unmarks && j == d.lastStart)) := by
    intro j
    cases d.unmarks with
    | false => simp
    | true => simp [bitmapClearBit_isBitSet, beq_eq_decide]
  have length : (if d.unmarks then bitmapClearBit v d.lastStart else v).length = v.length := by
    split
    · exact List.length_modify ..
    · rfl
  simp only [Description.mark, Description.marks, markValidJumpTarget, ← unmarked]
  generalize (if d.unmarks then bitmapClearBit v d.lastStart else v) = w at *
  cases hm : d.merged with
  | none =>
    rw [Option.elim_none, bitmapSetBit_isBitSet (by omega)]
    simp [beq_eq_decide, Bool.or_comm]
  | some n =>
    obtain ⟨start, size⟩ := merged n hm
    have inWord : (d.start + 1) % 64 + n ≤ 64 := by omega
    have small : n < 64 := by omega
    have cleared : (unmarkValidJumpTargets (d.start + 1) n w).length = w.length :=
      List.length_modify ..
    rw [Option.elim_some, bitmapSetBit_isBitSet (by omega), unmarkValidJumpTargets,
      bitmapClearBits_isBitSet _ small inWord, Option.any_some, Bool.or_comm, beq_eq_decide]
    congr 3
    rw [← Bool.decide_and]
    exact decide_eq_decide.mpr (by omega)

theorem Description.length_mark (d : Description) (v : Bitmap) : (d.mark v).length = v.length := by
  simp only [Description.mark, markValidJumpTarget, length_bitmapSetBit]
  cases d.merged <;> cases d.unmarks <;>
    simp [unmarkValidJumpTargets, bitmapClearBits, bitmapClearBit]

/-- What becomes of a target depends on this target only. -/
theorem marksAll_congr (ds : List Description) {valid valid' : Nat → Bool} {k : Nat}
    (same : valid k = valid' k) : marksAll ds valid k = marksAll ds valid' k := by
  induction ds generalizing valid valid' with
  | nil => exact same
  | cons d ds ih => exact ih (by simp only [Description.marks, same])

variable {ds : List Description}

theorem marksAll_isBitSet (aligned : b % kBundleSize = 0) (inside : ∀ d ∈ ds, d.Inside b)
    (words : (b + kBundleSize) / 64 < v.length) (k : Nat) :
    bitmapIsBitSet (ds.foldl (fun v d => d.mark v) v) k = marksAll ds (bitmapIsBitSet v) k := by
  induction ds generalizing v with
  | nil => rfl
  | cons d ds ih =>
    have here := inside d List.mem_cons_self
    have word : d.stop / 64 < v.length :=
      Nat.lt_of_le_of_lt (Nat.div_le_div_right here.last) words
    rw [List.foldl_cons, ih (fun e he => inside e (List.mem_cons_of_mem _ he))
      (by rwa [Description.length_mark])]
    exact marksAll_congr ds (here.mark_isBitSet aligned word k)

theorem length_foldl_mark (ds : List Description) (v : Bitmap) :
    (ds.foldl (fun v d => d.mark v) v).length = v.length := by
  induction ds generalizing v with
  | nil => rfl
  | cons d ds ih => rw [List.foldl_cons, ih, Description.length_mark]

/-- The targets inside a bundle are those of its own instructions. -/
theorem marksAll_outside (inside : ∀ d ∈ ds, d.Inside b) {k : Nat}
    (outside : k < b ∨ b + kBundleSize < k) (valid : Nat → Bool) :
    marksAll ds valid k = valid k := by
  induction ds generalizing valid with
  | nil => rfl
  | cons d ds ih =>
    obtain ⟨first, nonempty, last, merged⟩ := inside d List.mem_cons_self
    have here : d.marks valid k = valid k := by
      have stop : (k == d.stop) = false := beq_eq_false_iff_ne.mpr (by omega)
      have start : (k == d.lastStart) = false := beq_eq_false_iff_ne.mpr (by omega)
      have inner : (d.merged.any fun n => d.start < k && k ≤ d.start + n) = false := by
        cases hm : d.merged with
        | none => rfl
        | some n =>
          obtain ⟨_, size⟩ := merged n hm
          simp only [Option.any_some, Bool.and_eq_false_iff, decide_eq_false_iff_not]
          omega
      simp [Description.marks, stop, start, inner]
    rw [← here]
    exact ih (fun e he => inside e (List.mem_cons_of_mem _ he)) _

/-! ## Descriptions of pieces -/

/-- The restricted register after some instructions. -/
def restrictedAfter (restricted : OperandName) (ds : List Description) : OperandName :=
  ds.foldl (fun _ d => d.restricted) restricted

section Describe

variable (code : Nat → BitVec 8)

@[simp] theorem Step.describe_stop (b : Nat) (restricted : OperandName) (step : Step) :
    (step.describe code b restricted).stop = b + step.instruction.length := by
  unfold Step.describe
  cases step.merge with
  | none => rfl
  | some merge =>
    dsimp only
    split <;> rfl

@[simp] theorem Step.describe_lastStart (b : Nat) (restricted : OperandName) (step : Step) :
    (step.describe code b restricted).lastStart = b := by
  unfold Step.describe
  cases step.merge with
  | none => rfl
  | some merge =>
    dsimp only
    split <;> rfl

variable {restricted : OperandName} {b : Nat}

theorem Step.describe_merged {step : Step} {n : Nat}
    (merged : (step.describe code b restricted).merged = some n) :
    (∃ kind, step.merge = some (kind, n)) ∧ (step.describe code b restricted).start = b - n := by
  unfold Step.describe at *
  cases hm : step.merge with
  | none =>
    rw [hm] at merged
    cases merged
  | some merge =>
    rw [hm] at merged
    dsimp only at merged ⊢
    split at merged
    · next verified =>
      cases merged
      exact ⟨⟨merge.1, rfl⟩, by rw [if_pos verified]⟩
    · cases merged

theorem describeSteps_append (b : Nat) (restricted : OperandName) (l l' : List Step) :
    describeSteps code b restricted (l ++ l') = describeSteps code b restricted l ++
        describeSteps code (b + totalLength (l.map Step.instruction))
          (restrictedAfter restricted (describeSteps code b restricted l)) l' := by
  induction l generalizing b restricted with
  | nil => rfl
  | cons step l ih =>
    simp only [List.cons_append, describeSteps, ih, Step.describe_stop, List.map_cons,
      totalLength_cons, Nat.add_assoc]
    rfl

theorem totalLength_steps (p : Piece) : totalLength (p.steps.map Step.instruction) = p.length := by
  cases p with
  | single i => rfl
  | super first others last kind =>
    simp [Piece.steps, Piece.length, Piece.instructions, Function.comp_def]

variable {d : Description}

variable {l : List Step}

/-- Each instruction of a list is described at its place. -/
theorem describeSteps_bounds (mem : d ∈ describeSteps code b restricted l) :
    b ≤ d.lastStart ∧ d.lastStart < d.stop ∧ d.stop ≤ b + totalLength (l.map Step.instruction) := by
  induction l generalizing b restricted with
  | nil => cases mem
  | cons step l ih =>
    rw [List.map_cons, totalLength_cons]
    have pos := step.instruction.length_pos
    cases mem with
    | head => simp [pos]
    | tail _ mem =>
      have rest := ih mem
      rw [Step.describe_stop] at rest
      omega

theorem describeSteps_mem (mem : d ∈ describeSteps code b restricted l) :
    ∃ step ∈ l, ∃ b' restricted', d = step.describe code b' restricted' := by
  induction l generalizing b restricted with
  | nil => cases mem
  | cons step l ih =>
    cases mem with
    | head => exact ⟨step, List.mem_cons_self, b, restricted, rfl⟩
    | tail _ mem =>
      obtain ⟨step', mem', found⟩ := ih mem
      exact ⟨step', List.mem_cons_of_mem _ mem', found⟩

variable {q : Nat}

theorem describePiece_inside {p : Piece} (first : b ≤ q) (last : q + p.length ≤ b + kBundleSize)
    (mem : d ∈ describeSteps code q restricted p.steps) : d.Inside b := by
  have bounds := describeSteps_bounds code mem
  rw [totalLength_steps] at bounds
  refine ⟨by omega, bounds.2.1, by omega, fun n hn => ?_⟩
  have plain : ∀ l : List Instruction, ∀ q restricted,
      d ∉ describeSteps code q restricted (l.map (⟨·, none⟩)) := by
    intro l q restricted mem
    obtain ⟨step, mem', b', restricted', rfl⟩ := describeSteps_mem code mem
    obtain ⟨i, _, rfl⟩ := List.mem_map.mp mem'
    obtain ⟨⟨kind, merge⟩, _⟩ := Step.describe_merged code hn
    cases merge
  cases p with
  | single i => exact absurd mem (plain [i] q restricted)
  | super first others last kind =>
    rw [Piece.steps, describeSteps_append, List.mem_append] at mem
    have mem := mem.resolve_left (plain _ _ _)
    rw [List.map_map] at mem
    simp only [Function.comp_def, List.map_id', describeSteps, List.mem_singleton] at mem
    subst mem
    obtain ⟨⟨kind', merge⟩, start⟩ := Step.describe_merged code hn
    cases merge
    rw [start, Step.describe_lastStart]
    omega

theorem describePieces_inside {pieces : List Piece} (first : b ≤ q)
    (last : q + (pieces.map Piece.length).sum ≤ b + kBundleSize)
    (mem : d ∈ describeSteps code q restricted (pieces.flatMap Piece.steps)) : d.Inside b := by
  induction pieces generalizing q restricted with
  | nil => cases mem
  | cons p pieces ih =>
    rw [piecesLength_cons] at last
    rw [List.flatMap_cons, describeSteps_append, totalLength_steps, List.mem_append] at mem
    cases mem with
    | inl mem => exact describePiece_inside code first (by omega) mem
    | inr mem => exact ih (by omega) (by omega) mem

end Describe

/-! ## Chunks -/

section Chunk

variable (dfa : Dfa) (code : Nat → BitVec 8)

/-- What is done in bundle `c`, entered with no restricted register. -/
def bundleDescriptions (c : Nat) : List Description :=
  describeSteps code (c * kBundleSize) ncNoReg ((bundlePieces dfa code c).flatMap Piece.steps)

/-- A direct jump may go to `k`, which is inside a bundle. -/
def ValidTarget (k : Nat) : Prop :=
  marksAll (bundleDescriptions dfa code (k / kBundleSize)) (fun _ => false) k = true

/-- The parse accepts all the bytes. -/
def Parse.Accepts {n : Nat} : Parse n → Prop
  | .accept _ _ => True
  | .error _ _ _ _ => False

structure BundleAccepted (size c : Nat) : Prop where
  parsed : (dfa code (c * kBundleSize) (c * kBundleSize + kBundleSize)).Accepts
  clean : ∀ d ∈ bundleDescriptions dfa code c, d.info &&& validationErrorsMask = 0
  rbp : restrictedAfter ncNoReg (bundleDescriptions dfa code c) ≠ ncRegRbp
  rsp : restrictedAfter ncNoReg (bundleDescriptions dfa code c) ≠ ncRegRsp
  jumps : ∀ d ∈ bundleDescriptions dfa code c, ∀ target ∈ d.jumps,
    kBundleSize ∣ target ∨ target < size ∧ ValidTarget dfa code target

def ChunkAccepted (size : Nat) : Prop :=
  kBundleSize ∣ size ∧ ∀ c < size / kBundleSize, BundleAccepted dfa code size c

theorem bundleDescriptions_inside {c : Nat} {d : Description}
    (mem : d ∈ bundleDescriptions dfa code c) : d.Inside (c * kBundleSize) := by
  apply describePieces_inside code (Nat.le_refl _) _ mem
  unfold bundlePieces
  cases dfa code (c * kBundleSize) (c * kBundleSize + kBundleSize) with
  | accept pieces total =>
    simp only [Parse.pieces]
    omega
  | error pieces pending pendingLength within =>
    simp only [Parse.pieces]
    omega

/-- The instructions of an accepted bundle fill it. -/
theorem bundlePieces_totalLength {c : Nat}
    (parsed : (dfa code (c * kBundleSize) (c * kBundleSize + kBundleSize)).Accepts) :
    totalLength (((bundlePieces dfa code c).flatMap Piece.steps).map Step.instruction) = kBundleSize := by
  have total : ∀ pieces : List Piece,
      totalLength ((pieces.flatMap Piece.steps).map Step.instruction) =
        (pieces.map Piece.length).sum := by
    intro pieces
    induction pieces with
    | nil => rfl
    | cons p pieces ih =>
      rw [List.flatMap_cons, List.map_append, totalLength_append, ih, totalLength_steps,
        piecesLength_cons]
  rw [total]
  unfold bundlePieces
  cases hp : dfa code (c * kBundleSize) (c * kBundleSize + kBundleSize) with
  | accept pieces sum =>
    rw [Parse.pieces, sum]
    omega
  | error pieces pending pendingLength within =>
    rw [hp] at parsed
    exact parsed.elim

end Chunk

/-! ## Jumps and errors of descriptions -/

variable {size : Nat}

theorem markJumps_isBitSet (jumps : List Nat) (words : size / 64 < v.length) (k : Nat) :
    bitmapIsBitSet (markJumps size jumps v) k = true ↔
      bitmapIsBitSet v k = true ∨ k < size ∧ ¬ kBundleSize ∣ k ∧ k ∈ jumps := by
  induction jumps generalizing v with
  | nil => simp [markJumps]
  | cons target jumps ih =>
    have unfolded : markJumps size (target :: jumps) v =
        markJumps size jumps (markJumpTarget target v size).2 := rfl
    rw [unfolded, ih (by rwa [(markJumpTarget_effect target v size).2]), List.mem_cons]
    have here : bitmapIsBitSet (markJumpTarget target v size).2 k = true ↔
        bitmapIsBitSet v k = true ∨ k < size ∧ ¬ kBundleSize ∣ k ∧ k = target := by
      simp only [markJumpTarget, and_kBundleMask, Nat.dvd_iff_mod_eq_zero]
      by_cases aligned : target % kBundleSize = 0
      · rw [if_pos aligned]
        constructor
        · exact Or.inl
        · rintro (old | ⟨_, unaligned, rfl⟩)
          · exact old
          · exact absurd aligned unaligned
      · rw [if_neg aligned]
        by_cases outside : target ≥ size
        · rw [if_pos outside]
          constructor
          · exact Or.inl
          · rintro (old | ⟨inside, _, rfl⟩)
            · exact old
            · omega
        · have word : target / 64 < v.length :=
            Nat.lt_of_le_of_lt (Nat.div_le_div_right (by omega)) words
          rw [if_neg outside, bitmapSetBit_isBitSet word, Bool.or_eq_true, decide_eq_true_iff]
          constructor
          · rintro (old | rfl)
            · exact Or.inl old
            · exact Or.inr ⟨by omega, aligned, rfl⟩
          · rintro (old | ⟨_, _, same⟩)
            · exact Or.inl old
            · exact Or.inr same
    rw [here]
    tauto

theorem length_markJumps (size : Nat) (jumps : List Nat) (v : Bitmap) :
    (markJumps size jumps v).length = v.length := by
  induction jumps generalizing v with
  | nil => rfl
  | cons target jumps ih => exact (ih _).trans (markJumpTarget_effect target v size).2

theorem or_and_eq_zero {a b m : Info} : (a ||| b) &&& m = 0 ↔ a &&& m = 0 ∧ b &&& m = 0 := by
  constructor
  · intro zero
    constructor
    · by_contra h
      exact or_and_ne_zero h zero
    · by_contra h
      exact or_and_ne_zero_right h zero
  · rintro ⟨ha, hb⟩
    rw [BitVec.and_comm, BitVec.and_or_distrib_left, BitVec.and_comm m a, BitVec.and_comm m b, ha,
      hb]
    rfl

/-- An instruction is clean if its bits are, and its jumps are aligned or inside the chunk. -/
theorem Description.errors_eq_zero (size : Nat) (d : Description) :
    d.errors size &&& validationErrorsMask = 0 ↔ d.info &&& validationErrorsMask = 0 ∧
        ∀ target ∈ d.jumps, kBundleSize ∣ target ∨ target < size := by
  rw [Description.errors, or_and_eq_zero, and_congr_right_iff]
  intro _
  have range : rangeError size d.jumps &&& validationErrorsMask = 0 ↔
      ¬ d.jumps.any (outOfRange size) = true := by
    unfold rangeError
    split
    · next found =>
      simp only [found, not_true_eq_false, iff_false]
      decide
    · next quiet =>
      simp only [quiet]
      decide
  rw [range, List.any_eq_true]
  simp only [outOfRange, and_kBundleMask, decide_eq_true_eq, Nat.dvd_iff_mod_eq_zero]
  constructor
  · intro none target mem
    by_contra bad
    exact none ⟨target, mem, by tauto, by omega⟩
  · rintro all ⟨target, mem, unaligned, outside⟩
    rcases all target mem with aligned | inside
    · exact unaligned aligned
    · omega

section Chunk

variable {dfa : Dfa} {code : Nat → BitVec 8}

/-- The DFA accepts bundle `c`, each instruction is `Fine`, and it ends with neither `%rbp` nor
    `%rsp` restricted. -/
structure BundleInOrder (Fine : Description → Prop) (dfa : Dfa) (code : Nat → BitVec 8)
    (c : Nat) : Prop where
  parsed : (dfa code (c * kBundleSize) (c * kBundleSize + kBundleSize)).Accepts
  fine : ∀ d ∈ bundleDescriptions dfa code c, Fine d
  rbp : restrictedAfter ncNoReg (bundleDescriptions dfa code c) ≠ ncRegRbp
  rsp : restrictedAfter ncNoReg (bundleDescriptions dfa code c) ≠ ncRegRsp

def Description.Clean (size : Nat) (d : Description) : Prop :=
  d.errors size &&& validationErrorsMask = 0

/-- The instruction is clean, or the callback may let it pass. -/
def Description.Passes (userCallback : Callback) (size : Nat) (d : Description) : Prop :=
  d.Clean size ∨ ∃ earlier, userCallback earlier (d.report size) = true

theorem BundleAccepted.inOrder {c : Nat} (accepted : BundleAccepted dfa code size c) :
    BundleInOrder (Description.Clean size) dfa code c where
  parsed := accepted.parsed
  fine := fun d mem => (d.errors_eq_zero size).mpr ⟨accepted.clean d mem, fun target found =>
    (accepted.jumps d mem target found).imp id And.left⟩
  rbp := accepted.rbp
  rsp := accepted.rsp

end Chunk

/-! ## Runs -/

section Run

variable {userCallback : Callback} {size : Nat} {options : Options}

variable {s : State}

theorem apply_result {d : Description} (ok : (s.apply userCallback size options d).result = true) :
    s.result = true ∧ d.Passes userCallback size := by
  unfold State.apply at ok
  split at ok
  · simp only [State.report, Bool.and_eq_true] at ok
    exact ⟨ok.1, Or.inr ⟨s.reports, ok.2⟩⟩
  · next quiet => exact ⟨ok, Or.inl (not_not.mp (not_or.mp quiet).1)⟩

theorem foldl_apply_result (ds : List Description)
    (ok : (ds.foldl (State.apply userCallback size options) s).result = true) :
    s.result = true ∧ ∀ d ∈ ds, d.Passes userCallback size := by
  induction ds generalizing s with
  | nil => exact ⟨ok, fun d mem => by cases mem⟩
  | cons d ds ih =>
    obtain ⟨ok', rest⟩ := ih ok
    obtain ⟨ok'', here⟩ := apply_result ok'
    exact ⟨ok'', List.forall_mem_cons.mpr ⟨here, rest⟩⟩

variable (userCallback) in
theorem foldl_apply_clean (quiet : options &&& callUserCallbackOnEachInstruction = 0)
    (ds : List Description) (clean : ∀ d ∈ ds, d.Clean size) (s : State) :
    (ds.foldl (State.apply userCallback size options) s).reports = s.reports ∧
      (ds.foldl (State.apply userCallback size options) s).result = s.result := by
  induction ds generalizing s with
  | nil => exact ⟨rfl, rfl⟩
  | cons d ds ih =>
    obtain ⟨here, rest⟩ := List.forall_mem_cons.mp clean
    rw [List.foldl_cons]
    obtain ⟨reports, result⟩ := ih rest (s.apply userCallback size options d)
    rw [reports, result]
    unfold Description.Clean at here
    simp [State.apply, here, quiet]

variable (userCallback size options)

theorem foldl_apply_validTargets (ds : List Description) (s : State) :
    (ds.foldl (State.apply userCallback size options) s).validTargets =
      ds.foldl (fun v d => d.mark v) s.validTargets := by
  induction ds generalizing s with
  | nil => rfl
  | cons d ds ih => rw [List.foldl_cons, ih, State.apply_validTargets, List.foldl_cons]

theorem foldl_apply_jumpDests (ds : List Description) (s : State) :
    (ds.foldl (State.apply userCallback size options) s).jumpDests =
      markJumps size (ds.flatMap Description.jumps) s.jumpDests := by
  induction ds generalizing s with
  | nil => rfl
  | cons d ds ih =>
    rw [List.foldl_cons, ih, State.apply_jumpDests, List.flatMap_cons, markJumps, markJumps,
      markJumps, List.foldl_append]

theorem foldl_apply_restrictedRegister (ds : List Description) (s : State) :
    (ds.foldl (State.apply userCallback size options) s).restrictedRegister =
      restrictedAfter s.restrictedRegister ds := by
  induction ds generalizing s with
  | nil => rfl
  | cons d ds ih =>
    rw [List.foldl_cons, ih]
    rfl

variable {userCallback size options} (dfa : Dfa) (code : Nat → BitVec 8)

/-- What holds of the bitmaps after the bundles before `c`. -/
structure RanTo (size c : Nat) (s : State) : Prop where
  validWords : size / 64 < s.validTargets.length
  jumpWords : size / 64 < s.jumpDests.length
  valid : ∀ k, ¬ kBundleSize ∣ k → (bitmapIsBitSet s.validTargets k = true ↔
    k / kBundleSize < c ∧ ValidTarget dfa code k)
  jumps : ∀ k, bitmapIsBitSet s.jumpDests k = true ↔ k < size ∧ ¬ kBundleSize ∣ k ∧
    ∃ c' < c, ∃ d ∈ bundleDescriptions dfa code c', k ∈ d.jumps

variable {dfa code}

variable {c : Nat}

theorem RanTo.step {t : State} (ran : RanTo dfa code size c s)
    (inside : c * kBundleSize + kBundleSize ≤ size)
    (valid : t.validTargets = (bundleDescriptions dfa code c).foldl (fun v d => d.mark v)
      s.validTargets) (jumps : t.jumpDests = markJumps size
      ((bundleDescriptions dfa code c).flatMap Description.jumps) s.jumpDests) :
    RanTo dfa code size (c + 1) t where
  validWords := by
    rw [valid, length_foldl_mark]
    exact ran.validWords
  jumpWords := by
    rw [jumps, length_markJumps]
    exact ran.jumpWords
  valid := by
    intro k unaligned
    have words : (c * kBundleSize + kBundleSize) / 64 < s.validTargets.length :=
      Nat.lt_of_le_of_lt (Nat.div_le_div_right inside) ran.validWords
    have own := fun d mem => bundleDescriptions_inside dfa code (c := c) (d := d) mem
    rw [valid, marksAll_isBitSet (Nat.mul_mod_left _ _) own words]
    by_cases here : k / kBundleSize = c
    · have fresh : bitmapIsBitSet s.validTargets k = false := by
        rw [← Bool.not_eq_true, ran.valid k unaligned]
        omega
      rw [@marksAll_congr _ _ (fun _ => false) _ fresh, ValidTarget, here]
      simp
    · have outside : k < c * kBundleSize ∨ c * kBundleSize + kBundleSize < k := by
        rw [Nat.dvd_iff_mod_eq_zero] at unaligned
        simp only [kBundleSize] at *
        omega
      rw [marksAll_outside own outside, ran.valid k unaligned]
      simp only [and_congr_left_iff]
      omega
  jumps := by
    intro k
    rw [jumps, markJumps_isBitSet _ ran.jumpWords, ran.jumps]
    simp only [List.mem_flatMap, Nat.lt_succ_iff_lt_or_eq]
    constructor
    · rintro (⟨below, unaligned, c', lt, found⟩ | ⟨below, unaligned, found⟩)
      · exact ⟨below, unaligned, c', Or.inl lt, found⟩
      · exact ⟨below, unaligned, c, Or.inr rfl, found⟩
    · rintro ⟨below, unaligned, c', lt | rfl, found⟩
      · exact Or.inl ⟨below, unaligned, c', lt, found⟩
      · exact Or.inr ⟨below, unaligned, found⟩

/-- The start of a bundle. -/
def State.enter (b : Nat) (s : State) : State :=
  { s with instructionBegin := b, info := 0, restrictedRegister := ncNoReg }

theorem runBundle_accept (fresh : extractRestrictedRegisterInitialValue options = ncNoReg)
    (parsed : (dfa code (c * kBundleSize) (c * kBundleSize + kBundleSize)).Accepts) (s : State) :
    runBundle userCallback code size options dfa (c * kBundleSize) (c * kBundleSize + kBundleSize)
      s = checkEndOfBundle userCallback (c * kBundleSize + kBundleSize)
        ((bundleDescriptions dfa code c).foldl (State.apply userCallback size options)
          (s.enter (c * kBundleSize))) := by
  unfold runBundle bundleDescriptions bundlePieces
  cases hp : dfa code (c * kBundleSize) (c * kBundleSize + kBundleSize) with
  | error pieces pending pendingLength within =>
    rw [hp] at parsed
    exact parsed.elim
  | accept pieces total =>
    simp only [Parse.pieces, fresh, runPieces_eq]
    rw [runSteps_eq userCallback size options code _ rfl]
    rfl

/-- A bundle that does not spoil the result is in order. -/
theorem runBundle_result (breaks : RejectsBreaks userCallback)
    (fresh : extractRestrictedRegisterInitialValue options = ncNoReg)
    (ok : (runBundle userCallback code size options dfa (c * kBundleSize)
      (c * kBundleSize + kBundleSize) s).result = true) :
    s.result = true ∧ BundleInOrder (Description.Passes userCallback size) dfa code c := by
  by_cases parsed : (dfa code (c * kBundleSize) (c * kBundleSize + kBundleSize)).Accepts
  · rw [runBundle_accept fresh parsed] at ok
    obtain ⟨s', hs'⟩ : ∃ s', s' = (bundleDescriptions dfa code c).foldl
      (State.apply userCallback size options) (s.enter (c * kBundleSize)) := ⟨_, rfl⟩
    have restricted : s'.restrictedRegister =
        restrictedAfter ncNoReg (bundleDescriptions dfa code c) := by
      rw [hs', foldl_apply_restrictedRegister]
      rfl
    have kept := (@checkEndOfBundle_effect userCallback (c * kBundleSize + kBundleSize) s').1.result
    rw [← hs'] at ok
    have passed := foldl_apply_result _ (hs' ▸ kept ok)
    unfold checkEndOfBundle at ok
    split at ok
    · rw [State.report, breaks.rbp, Bool.and_false] at ok
      cases ok
    next rbp =>
    split at ok
    · rw [State.report, breaks.rsp, Bool.and_false] at ok
      cases ok
    next rsp =>
    exact ⟨passed.1, parsed, passed.2, restricted ▸ rbp, restricted ▸ rsp⟩
  · unfold runBundle at ok
    cases hp : dfa code (c * kBundleSize) (c * kBundleSize + kBundleSize) with
    | accept pieces total => exact absurd (by rw [hp]; trivial) parsed
    | error pieces pending pendingLength within =>
      simp only [hp] at ok
      rw [report_fatal breaks] at ok
      cases ok

variable (userCallback) in
theorem runBundle_clean (fresh : extractRestrictedRegisterInitialValue options = ncNoReg)
    (quiet : options &&& callUserCallbackOnEachInstruction = 0)
    (inOrder : BundleInOrder (Description.Clean size) dfa code c) (s : State) :
    let t := runBundle userCallback code size options dfa (c * kBundleSize)
      (c * kBundleSize + kBundleSize) s
    t.reports = s.reports ∧ t.result = s.result := by
  obtain ⟨reports, result⟩ := foldl_apply_clean userCallback quiet _ inOrder.fine
    (s.enter (c * kBundleSize))
  have restricted := foldl_apply_restrictedRegister userCallback size options
    (bundleDescriptions dfa code c) (s.enter (c * kBundleSize))
  rw [runBundle_accept fresh inOrder.parsed, checkEndOfBundle,
    if_neg (by rw [restricted]; exact inOrder.rbp),
    if_neg (by rw [restricted]; exact inOrder.rsp)]
  exact ⟨reports, result⟩

theorem runBundle_ran (fresh : extractRestrictedRegisterInitialValue options = ncNoReg)
    (parsed : (dfa code (c * kBundleSize) (c * kBundleSize + kBundleSize)).Accepts)
    (inside : c * kBundleSize + kBundleSize ≤ size) (ran : RanTo dfa code size c s) :
    RanTo dfa code size (c + 1) (runBundle userCallback code size options dfa (c * kBundleSize)
      (c * kBundleSize + kBundleSize) s) := by
  have ended : ∀ e t, (checkEndOfBundle userCallback e t).validTargets = t.validTargets ∧
      (checkEndOfBundle userCallback e t).jumpDests = t.jumpDests := by
    intro e t
    unfold checkEndOfBundle
    split_ifs <;> exact ⟨rfl, rfl⟩
  apply ran.step inside
  · rw [runBundle_accept fresh parsed, (ended _ _).1, foldl_apply_validTargets]
    rfl
  · rw [runBundle_accept fresh parsed, (ended _ _).2, foldl_apply_jumpDests]
    rfl

variable (userCallback options dfa code size)

theorem bundleLoop_eq {n : Nat} (hsize : size = n * kBundleSize) (fuel : Nat)
    (enough : n ≤ c + fuel) (s : State) :
    bundleLoop userCallback code size options dfa fuel (c * kBundleSize)
      (c * kBundleSize + kBundleSize) s =
    (List.range' c (n - c)).foldl (fun s c => runBundle userCallback code size options dfa
      (c * kBundleSize) (c * kBundleSize + kBundleSize) s) s := by
  induction fuel generalizing c s with
  | zero =>
    have done : n - c = 0 := by omega
    rw [done]
    rfl
  | succ fuel ih =>
    rw [bundleLoop]
    by_cases more : c < n
    · have lt : c * kBundleSize < size := by
        simp only [kBundleSize] at *
        omega
      obtain ⟨m, hm⟩ : ∃ m, n - c = m + 1 := ⟨n - c - 1, by omega⟩
      have rest : n - (c + 1) = m := by omega
      rw [if_pos lt, hm, List.range'_succ, List.foldl_cons, ← rest, ← ih (by omega), Nat.succ_mul]
    · have done : n - c = 0 := by omega
      rw [if_neg (by simp only [kBundleSize] at *; omega), done]
      rfl

/-- The state before the first bundle. -/
def initialState (size : Nat) : State :=
  ⟨bitmapAllocate (size + 1), bitmapAllocate (size + 1), true, [], 0, 0, ncNoReg⟩

/-- The state after the main loop, with the valid targets of the whole chunk. -/
def chunkState : State :=
  bundleLoop userCallback code size options dfa size 0
    (if options &&& processChunkAsAContiguousStream ≠ 0 then size else kBundleSize)
    (initialState size)

/-- The state after all the bundles. -/
def bundlesState : State :=
  (List.range (size / kBundleSize)).foldl (fun s c => runBundle userCallback code size options dfa
    (c * kBundleSize) (c * kBundleSize + kBundleSize) s) (initialState size)

variable {userCallback options dfa code size}

theorem initialState_ran : RanTo dfa code size 0 (initialState size) where
  validWords := by
    simp only [initialState, bitmapAllocate, List.length_replicate, naclHostWordsize]
    omega
  jumpWords := by
    simp only [initialState, bitmapAllocate, List.length_replicate, naclHostWordsize]
    omega
  valid := fun k _ => by simp [initialState]
  jumps := fun k => by simp [initialState]

theorem chunkState_eq (bundles : options &&& processChunkAsAContiguousStream = 0)
    (multiple : kBundleSize ∣ size) : chunkState userCallback size options dfa code =
      bundlesState userCallback size options dfa code := by
  have hsize : size = size / kBundleSize * kBundleSize := (Nat.div_mul_cancel multiple).symm
  have enough : size / kBundleSize ≤ 0 + size := by
    rw [Nat.zero_add]
    exact Nat.div_le_self ..
  have loop := bundleLoop_eq userCallback size options dfa code hsize size enough
    (initialState size)
  rw [Nat.zero_mul, Nat.zero_add, Nat.sub_zero, ← List.range_eq_range'] at loop
  rw [chunkState, if_neg (not_not.mpr bundles), loop]
  rfl

/-- In bundle mode, the loop over the bundles is followed by the check of the jumps. -/
theorem validateChunkAMD64_eq {allocated : Bool}
    (bundles : options &&& processChunkAsAContiguousStream = 0) :
    validateChunkAMD64 userCallback dfa allocated code size options =
      if size % kBundleSize ≠ 0 then none
      else if ¬ size + 1 ≤ naclHostWordsize ∧ allocated = false then some false
      else some (processInvalidJumpTargets userCallback size
        (bundlesState userCallback size options dfa code)).result := by
  unfold validateChunkAMD64
  by_cases multiple : size % kBundleSize = 0
  · have loop := @chunkState_eq userCallback _ options dfa code bundles
      (Nat.dvd_of_mod_eq_zero multiple)
    rw [← loop]
    rfl
  · rw [if_pos multiple, if_pos multiple]

theorem foldl_runBundle_result (breaks : RejectsBreaks userCallback)
    (fresh : extractRestrictedRegisterInitialValue options = ncNoReg) (l : List Nat)
    (ok : (l.foldl (fun s c => runBundle userCallback code size options dfa (c * kBundleSize)
      (c * kBundleSize + kBundleSize) s) s).result = true) : s.result = true ∧
      ∀ c ∈ l, BundleInOrder (Description.Passes userCallback size) dfa code c := by
  induction l generalizing s with
  | nil => exact ⟨ok, fun c mem => by cases mem⟩
  | cons c l ih =>
    obtain ⟨ok', rest⟩ := ih ok
    obtain ⟨ok'', here⟩ := runBundle_result breaks fresh ok'
    exact ⟨ok'', List.forall_mem_cons.mpr ⟨here, rest⟩⟩

theorem foldl_runBundle_clean (fresh : extractRestrictedRegisterInitialValue options = ncNoReg)
    (quiet : options &&& callUserCallbackOnEachInstruction = 0) (l : List Nat) (s : State)
    (inOrder : ∀ c ∈ l, BundleInOrder (Description.Clean size) dfa code c) :
    let t := l.foldl (fun s c => runBundle userCallback code size options dfa (c * kBundleSize)
      (c * kBundleSize + kBundleSize) s) s
    t.reports = s.reports ∧ t.result = s.result := by
  induction l generalizing s with
  | nil => exact ⟨rfl, rfl⟩
  | cons c l ih =>
    obtain ⟨here, rest⟩ := List.forall_mem_cons.mp inOrder
    obtain ⟨reports, result⟩ := runBundle_clean userCallback fresh quiet here s
    obtain ⟨reports', result'⟩ := ih (runBundle userCallback code size options dfa
      (c * kBundleSize) (c * kBundleSize + kBundleSize) s) rest
    exact ⟨reports'.trans reports, result'.trans result⟩

variable (userCallback) in
/-- The bitmaps of a chunk describe all its bundles. -/
theorem bundlesState_ran (fresh : extractRestrictedRegisterInitialValue options = ncNoReg)
    (parsed : ∀ c < size / kBundleSize,
      (dfa code (c * kBundleSize) (c * kBundleSize + kBundleSize)).Accepts) :
    RanTo dfa code size (size / kBundleSize) (bundlesState userCallback size options dfa code) := by
  have upTo : ∀ n ≤ size / kBundleSize, RanTo dfa code size n
      ((List.range n).foldl (fun s c => runBundle userCallback code size options dfa
        (c * kBundleSize) (c * kBundleSize + kBundleSize) s) (initialState size)) := by
    intro n hn
    induction n with
    | zero => exact initialState_ran
    | succ n ih =>
      have inside : n * kBundleSize + kBundleSize ≤ size := by
        rw [← Nat.succ_mul]
        exact (Nat.le_div_iff_mul_le (by decide)).mp hn
      rw [List.range_succ, List.foldl_append]
      exact runBundle_ran fresh (parsed n hn) inside (ih (Nat.le_of_lt hn))
  exact upTo _ (Nat.le_refl _)

/-- The check of the jumps reports nothing when every recorded jump is valid. -/
theorem processInvalidJumpTargets_clean
    (valid : ∀ k, bitmapIsBitSet s.jumpDests k = true → bitmapIsBitSet s.validTargets k = true) :
    processInvalidJumpTargets userCallback size s = s := by
  have still : ∀ i, reportInvalidTargets userCallback i s = s := by
    intro i
    apply List.foldl_fixed'
    intro j
    rw [if_neg]
    intro bad
    simp only [Bool.and_eq_true, Bool.not_eq_true'] at bad
    rw [valid j bad.1] at bad
    cases bad.2
  apply List.foldl_fixed'
  intro i
  rw [still, ite_self]

end Run

variable {code : Nat → BitVec 8} {allocated : Bool} {userCallback : Callback} {options : Options} {dfa : Dfa}

/-- In an accepted chunk each instruction has passed, and the direct jumps that are not aligned
    or out of range have valid targets. -/
theorem validateChunkAMD64_passed (breaks : RejectsBreaks userCallback)
    (fresh : extractRestrictedRegisterInitialValue options = ncNoReg)
    (bundles : options &&& processChunkAsAContiguousStream = 0)
    (accepted : validateChunkAMD64 userCallback dfa allocated code size options = some true) :
    kBundleSize ∣ size ∧ ∀ c < size / kBundleSize,
      BundleInOrder (Description.Passes userCallback size) dfa code c ∧
      ∀ d ∈ bundleDescriptions dfa code c, ∀ target ∈ d.jumps, ¬ kBundleSize ∣ target →
        target < size → ValidTarget dfa code target := by
  rw [validateChunkAMD64_eq bundles] at accepted
  split at accepted
  · cases accepted
  next multiple =>
  split at accepted
  · cases accepted
  obtain ⟨ok, valid⟩ := processInvalidJumpTargets_spec breaks _ (Option.some.inj accepted)
  have inOrder : ∀ c < size / kBundleSize,
      BundleInOrder (Description.Passes userCallback size) dfa code c := fun c hc =>
    (foldl_runBundle_result breaks fresh _ ok).2 c (List.mem_range.mpr hc)
  have ran := bundlesState_ran userCallback fresh
    fun c hc => (inOrder c hc).parsed
  refine ⟨Nat.dvd_of_mod_eq_zero (not_not.mp multiple), fun c hc => ⟨inOrder c hc, ?_⟩⟩
  intro d mem target found unaligned inside
  have recorded := (ran.jumps target).mpr ⟨inside, unaligned, c, hc, d, mem, found⟩
  exact ((ran.valid target unaligned).mp (valid target inside recorded)).2

/-- The callback rejects every instruction of the chunk that is not clean. -/
def RejectsInstructions (userCallback : Callback) (dfa : Dfa) (code : Nat → BitVec 8)
    (size : Nat) : Prop :=
  ∀ c < size / kBundleSize, ∀ d ∈ bundleDescriptions dfa code c, ¬ d.Clean size →
    ∀ earlier, userCallback earlier (d.report size) = false

theorem RejectsErrors.instructions (rejects : RejectsErrors userCallback) (dfa : Dfa)
    (code : Nat → BitVec 8) (size : Nat) :
    RejectsInstructions userCallback dfa code size := fun _ _ d _ erroneous earlier =>
  rejects earlier (d.report size) (and_or_ne_zero (or_and_ne_zero erroneous))

/-- With a callback that rejects its errors, in bundle mode, an accepted chunk is acceptable. -/
theorem validateChunkAMD64_acceptable (breaks : RejectsBreaks userCallback)
    (instructions : RejectsInstructions userCallback dfa code size)
    (fresh : extractRestrictedRegisterInitialValue options = ncNoReg)
    (bundles : options &&& processChunkAsAContiguousStream = 0)
    (accepted : validateChunkAMD64 userCallback dfa allocated code size options = some true) :
    ChunkAccepted dfa code size := by
  obtain ⟨multiple, passed⟩ := validateChunkAMD64_passed breaks fresh bundles accepted
  refine ⟨multiple, fun c hc => ?_⟩
  obtain ⟨⟨parsed, passes, rbp, rsp⟩, valid⟩ := passed c hc
  have clean : ∀ d ∈ bundleDescriptions dfa code c, d.Clean size := by
    intro d mem
    by_contra erroneous
    rcases passes d mem with clean | ⟨earlier, let_pass⟩
    · exact erroneous clean
    · rw [instructions c hc d mem erroneous earlier] at let_pass
      cases let_pass
  refine ⟨parsed, fun d mem => ((d.errors_eq_zero size).mp (clean d mem)).1, rbp, rsp,
    fun d mem target found => ?_⟩
  by_cases aligned : kBundleSize ∣ target
  · exact Or.inl aligned
  · have inside := (((d.errors_eq_zero size).mp (clean d mem)).2 target found).resolve_left aligned
    exact Or.inr ⟨inside, valid d mem target found aligned inside⟩

theorem validateChunkAMD64_accepted (rejects : RejectsErrors userCallback)
    (fresh : extractRestrictedRegisterInitialValue options = ncNoReg)
    (bundles : options &&& processChunkAsAContiguousStream = 0)
    (accepted : validateChunkAMD64 userCallback dfa allocated code size options = some true) :
    ChunkAccepted dfa code size :=
  validateChunkAMD64_acceptable rejects.breaks (rejects.instructions dfa code size) fresh bundles
    accepted

/-- The bundles of an acceptable chunk make no report. -/
theorem ChunkAccepted.silent (accepted : ChunkAccepted dfa code size) (userCallback : Callback) :
    (bundlesState userCallback size 0 dfa code).reports = [] ∧
      (bundlesState userCallback size 0 dfa code).result = true :=
  @foldl_runBundle_clean userCallback _ 0 _ _ (by decide) (by decide) _
    (initialState size) fun c hc => (accepted.2 c (List.mem_range.mp hc)).inOrder

/-- The recorded jumps of an acceptable chunk have valid targets. -/
theorem ChunkAccepted.targetsValid (accepted : ChunkAccepted dfa code size)
    (userCallback : Callback) (k : Nat)
    (recorded : bitmapIsBitSet (bundlesState userCallback size 0 dfa code).jumpDests k = true) :
    bitmapIsBitSet (bundlesState userCallback size 0 dfa code).validTargets k = true := by
  obtain ⟨multiple, bundles⟩ := accepted
  have ran := @bundlesState_ran userCallback size 0 dfa code
    (by decide) fun c hc => (bundles c hc).parsed
  obtain ⟨inside, unaligned, c, hc, d, mem, found⟩ := (ran.jumps k).mp recorded
  have target := ((bundles c hc).jumps d mem k found).resolve_left unaligned
  exact (ran.valid k unaligned).mpr ⟨Nat.div_lt_div_of_lt_of_dvd multiple inside, target.2⟩

/-- An acceptable chunk is accepted with any callback. -/
theorem ChunkAccepted.validateChunkAMD64 (accepted : ChunkAccepted dfa code size)
    (memory : size + 1 ≤ naclHostWordsize ∨ allocated = true) :
    Validator.validateChunkAMD64 userCallback dfa allocated code size 0 = some true := by
  rw [validateChunkAMD64_eq (by decide),
    if_neg (not_not.mpr (Nat.mod_eq_zero_of_dvd accepted.1)),
    if_neg (by rintro ⟨large, failed⟩; simp [large, failed] at memory),
    processInvalidJumpTargets_clean (accepted.targetsValid userCallback)]
  exact congrArg some (accepted.silent userCallback).2

end SandboxTEE.Validator
