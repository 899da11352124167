import SandboxTEE.Vmmap.Lookup
import SandboxTEE.Vmmap.Protect
import Mathlib.Data.List.Infix

/-! # The search for a hole

A mapping goes to a run of pages between two entries that follow each other in the sorted
array, and starts at a multiple of the map page.  The two searches find the highest such run,
and the lowest one from a hint on.
-/

namespace SandboxTEE.Vmmap

/-- A run of `num` pages at `s`, between the entries `e` and `f`. -/
structure RunBetween (num s : Nat) (e f : Entry) : Prop where
  aligned : s % naClPagesPerMap = 0
  after : e.endPage ≤ s
  before : s + num ≤ f.pageNum

/-- A run in a gap between two consecutive entries. -/
def IsRun (l : List Entry) (num s : Nat) : Prop := ∃ e f, [e, f] <:+: l ∧ RunBetween num s e f

/-! ## Rounding -/

variable {p s : Nat}

theorem naClRoundPageNumUpToMapMultiple_le (aligned : s % naClPagesPerMap = 0) :
    naClRoundPageNumUpToMapMultiple p ≤ s ↔ p ≤ s := by
  simp only [naClRoundPageNumUpToMapMultiple, naClPagesPerMap] at *
  omega

theorem le_naClTruncPageNumDownToMapMultiple (aligned : s % naClPagesPerMap = 0) :
    s ≤ naClTruncPageNumDownToMapMultiple p ↔ s ≤ p := by
  simp only [naClTruncPageNumDownToMapMultiple, naClPagesPerMap] at *
  omega

@[simp] theorem naClRoundPageNumUpToMapMultiple_mod (p : Nat) :
    naClRoundPageNumUpToMapMultiple p % naClPagesPerMap = 0 := Nat.mul_mod_left _ _

@[simp] theorem naClTruncPageNumDownToMapMultiple_mod (p : Nat) :
    naClTruncPageNumDownToMapMultiple p % naClPagesPerMap = 0 := Nat.mul_mod_left _ _

theorem naClRoundPageNumUpToMapMultiple_pos : 0 < naClRoundPageNumUpToMapMultiple p ↔ 0 < p := by
  simp only [naClRoundPageNumUpToMapMultiple, naClPagesPerMap]
  omega

variable {num : Nat} {l : List Entry}

theorem not_isRun_of_length (short : l.length ≤ 1) : ¬ IsRun l num s := by
  rintro ⟨e, f, infix_l, -⟩
  have := infix_l.length_le
  simp only [List.length_cons, List.length_nil] at this
  omega

variable {e f : Entry}

theorem isRun_cons : IsRun (e :: f :: l) num s ↔ RunBetween num s e f ∨ IsRun (f :: l) num s := by
  have pairs : ∀ e' f', [e', f'] <:+: e :: f :: l ↔
      (e' = e ∧ f' = f) ∨ [e', f'] <:+: f :: l := by
    intro e' f'
    rw [List.infix_cons_iff]
    simp [List.cons_prefix_cons]
  simp only [IsRun, pairs]
  grind

/-- The gaps of an array that is given from its end. -/
theorem infix_reverse : [e, f] <:+: l.reverse ↔ [f, e] <:+: l :=
  @List.reverse_infix _ [f, e] l

theorem isRun_reverse_cons : IsRun (f :: e :: l).reverse num s ↔
      RunBetween num s e f ∨ IsRun (e :: l).reverse num s := by
  have pairs : ∀ e' f', [e', f'] <:+: (f :: e :: l).reverse ↔
      (e' = e ∧ f' = f) ∨ [e', f'] <:+: (e :: l).reverse := by
    intro e' f'
    rw [infix_reverse, infix_reverse, List.infix_cons_iff]
    simp [List.cons_prefix_cons, and_comm]
  simp only [IsRun, pairs]
  grind

theorem IsRun.ends (run : IsRun l num s) : ∃ f ∈ l, s + num ≤ f.pageNum := by
  obtain ⟨e, f, infix_l, between⟩ := run
  exact ⟨f, infix_l.subset (by simp), between.before⟩

theorem IsRun.starts (run : IsRun l num s) : ∃ e ∈ l, e.endPage ≤ s := by
  obtain ⟨e, f, infix_l, between⟩ := run
  exact ⟨e, infix_l.subset (by simp), between.after⟩

theorem lowest_pageNum (ascending : Ascending (e :: l)) (member : f ∈ e :: l) :
    e.pageNum ≤ f.pageNum := by
  cases List.mem_cons.mp member with
  | inl same => exact same ▸ Nat.le_refl _
  | inr above =>
    exact Nat.le_trans (Nat.le_add_right _ _) ((List.pairwise_cons.mp ascending).1 f above)

theorem highest_pageNum (ascending : Ascending (e :: l).reverse) (member : f ∈ e :: l) :
    f.pageNum ≤ e.pageNum := by
  rw [List.reverse_cons] at ascending
  cases List.mem_cons.mp member with
  | inl same => exact same ▸ Nat.le_refl _
  | inr below =>
    exact Nat.le_trans (Nat.le_add_right _ _) ((List.pairwise_append.mp ascending).2.2 f
      (List.mem_reverse.mpr below) e (List.mem_singleton_self e))

section Runs

variable {num : Nat} (whole : num % naClPagesPerMap = 0)
include whole

/-- The runs between two entries are those between the rounded ends of the gap. -/
theorem runBetween_iff : RunBetween num s e f ↔
    s % naClPagesPerMap = 0 ∧ naClRoundPageNumUpToMapMultiple e.endPage ≤ s ∧
      s + num ≤ naClTruncPageNumDownToMapMultiple f.pageNum := by
  have ends {s : Nat} (aligned : s % naClPagesPerMap = 0) : (s + num) % naClPagesPerMap = 0 := by
    rw [Nat.add_mod, aligned, whole]
    rfl
  constructor
  · intro run
    exact ⟨run.aligned, (naClRoundPageNumUpToMapMultiple_le run.aligned).mpr run.after,
      (le_naClTruncPageNumDownToMapMultiple (ends run.aligned)).mpr run.before⟩
  · rintro ⟨aligned, after, before⟩
    exact ⟨aligned, (naClRoundPageNumUpToMapMultiple_le aligned).mp after,
      (le_naClTruncPageNumDownToMapMultiple (ends aligned)).mp before⟩

/-! ## The search from the last entry down -/

variable (pos : 0 < num)
include pos

/-- Nothing fits between rounded ends that are too close. -/
theorem not_runBetween (narrow : ¬ (naClRoundPageNumUpToMapMultiple e.endPage <
        naClTruncPageNumDownToMapMultiple f.pageNum ∧
      num ≤ naClTruncPageNumDownToMapMultiple f.pageNum -
        naClRoundPageNumUpToMapMultiple e.endPage)) : ¬ RunBetween num s e f := by
  rw [runBetween_iff whole]
  omega

/-- What the search finds: the highest run, or zero if there is none. -/
def Highest (l : List Entry) (num found : Nat) : Prop :=
  (found = 0 ∧ ∀ s, ¬ IsRun l num s) ∨ (found ≠ 0 ∧ IsGreatest {s | IsRun l num s} found)

theorem findMapSpaceLoop_spec : ∀ {l : List Entry}, Ascending l.reverse →
    (∀ e ∈ l, 0 < e.npages) → Highest l.reverse num (findMapSpaceLoop num l)
  | [], _, _ => Or.inl ⟨rfl, fun s => not_isRun_of_length (Nat.zero_le 1)⟩
  | [_], _, _ => Or.inl ⟨rfl, fun s => not_isRun_of_length (Nat.le_refl 1)⟩
  | f :: e :: rest, ascending, positive => by
    have lower : Ascending (e :: rest).reverse := by
      rw [List.reverse_cons] at ascending
      exact (List.pairwise_append.mp ascending).1
    have ih := findMapSpaceLoop_spec lower fun g hg => positive g (List.mem_cons_of_mem f hg)
    rw [findMapSpaceLoop]
    split
    · next wide =>
      have nonzero : 0 < naClRoundPageNumUpToMapMultiple e.endPage :=
        naClRoundPageNumUpToMapMultiple_pos.mpr
          (Nat.lt_of_lt_of_le (positive e (by simp)) (Nat.le_add_left _ _))
      refine Or.inr ⟨by omega, ?_, ?_⟩
      · refine isRun_reverse_cons.mpr (Or.inl ((runBetween_iff whole).mpr ⟨?_, by omega, by omega⟩))
        have ends := naClTruncPageNumDownToMapMultiple_mod f.pageNum
        simp only [naClPagesPerMap] at *
        omega
      · -- a run in a lower gap ends before `e`
        intro s run
        cases isRun_reverse_cons.mp run with
        | inl here =>
          have := ((runBetween_iff whole).mp here).2.2
          omega
        | inr later =>
          obtain ⟨g, hg, before⟩ := later.ends
          have below := highest_pageNum lower (List.mem_reverse.mp hg)
          have := (naClRoundPageNumUpToMapMultiple_le
            (naClRoundPageNumUpToMapMultiple_mod e.endPage)).mp (Nat.le_refl _)
          simp only [Entry.endPage] at *
          omega
    · next narrow =>
      simp only [Highest, isRun_reverse_cons, not_runBetween whole pos narrow, false_or]
      exact ih

/-! ## The search from a hint up -/

/-- What the search finds: the lowest run from `hint` on, or zero if there is none. -/
def LowestAbove (l : List Entry) (num hint found : Nat) : Prop :=
  (found = 0 ∧ ∀ s, hint ≤ s → ¬ IsRun l num s) ∨
    (found ≠ 0 ∧ IsLeast {s | IsRun l num s ∧ hint ≤ s} found)

theorem findMapSpaceAboveLoop_spec {hint : Nat} (aligned : hint % naClPagesPerMap = 0) :
    ∀ {l : List Entry}, Ascending l → (∀ e ∈ l, 0 < e.npages) →
      LowestAbove l num hint (findMapSpaceAboveLoop hint num l)
  | [], _, _ => Or.inl ⟨rfl, fun s _ => not_isRun_of_length (Nat.zero_le 1)⟩
  | [_], _, _ => Or.inl ⟨rfl, fun s _ => not_isRun_of_length (Nat.le_refl 1)⟩
  | e :: f :: rest, ascending, positive => by
    obtain ⟨ahead, higher⟩ := List.pairwise_cons.mp ascending
    have ih := findMapSpaceAboveLoop_spec aligned higher
      fun g hg => positive g (List.mem_cons_of_mem e hg)
    have nonzero : 0 < naClRoundPageNumUpToMapMultiple e.endPage :=
      naClRoundPageNumUpToMapMultiple_pos.mpr
        (Nat.lt_of_lt_of_le (positive e (by simp)) (Nat.le_add_left _ _))
    rw [findMapSpaceAboveLoop]
    -- without a run in the first gap, the lowest run is in the others
    have skip (none : ∀ s, hint ≤ s → ¬ RunBetween num s e f) :
        LowestAbove (e :: f :: rest) num hint (findMapSpaceAboveLoop hint num (f :: rest)) := by
      have same : ∀ s, IsRun (e :: f :: rest) num s ∧ hint ≤ s ↔
          IsRun (f :: rest) num s ∧ hint ≤ s := by
        intro s
        rw [isRun_cons]
        have := none s
        tauto
      cases ih with
      | inl missing =>
        refine Or.inl ⟨missing.1, fun s above run => ?_⟩
        exact missing.2 s above ((same s).mp ⟨run, above⟩).1
      | inr found =>
        refine Or.inr ⟨found.1, ?_⟩
        simp only [same]
        exact found.2
    split
    · next closed =>
      refine skip fun s _ => not_runBetween whole pos fun wide => ?_
      omega
    · next opened =>
      have truncated := (le_naClTruncPageNumDownToMapMultiple
        (naClTruncPageNumDownToMapMultiple_mod f.pageNum)).mp (Nat.le_refl _)
      generalize candidate_eq : (if naClRoundPageNumUpToMapMultiple e.endPage ≤ hint ∧
          hint < naClTruncPageNumDownToMapMultiple f.pageNum then hint
        else naClRoundPageNumUpToMapMultiple e.endPage) = candidate
      have candidate_le {s : Nat} (above : hint ≤ s) (run : RunBetween num s e f) :
          candidate ≤ s := by
        have := (runBetween_iff whole).mp run
        rw [← candidate_eq]
        split <;> omega
      dsimp only
      split
      · next fits =>
        refine Or.inr ⟨by split at candidate_eq <;> omega, ⟨?_, fits.1⟩, ?_⟩
        · refine isRun_cons.mpr (Or.inl ((runBetween_iff whole).mpr ⟨?_, ?_, by omega⟩))
          · rw [← candidate_eq]
            split
            · exact aligned
            · exact naClRoundPageNumUpToMapMultiple_mod _
          · rw [← candidate_eq]
            split <;> omega
        · -- a run in a higher gap starts behind `f`
          rintro s ⟨run, above⟩
          cases isRun_cons.mp run with
          | inl here => exact candidate_le above here
          | inr later =>
            obtain ⟨g, hg, after⟩ := later.starts
            have := lowest_pageNum higher hg
            simp only [Entry.endPage] at *
            omega
      · next narrow =>
        refine skip fun s above run => narrow ?_
        have := candidate_le above run
        have := (runBetween_iff whole).mp run
        refine ⟨?_, by omega⟩
        rw [← candidate_eq]
        split <;> omega

end Runs

/-! ## The searches on a map -/

theorem IsRun.apart (ascending : Ascending l) (run : IsRun l num s) :
    ∀ g ∈ l, g.endPage ≤ s ∨ s + num ≤ g.pageNum := by
  obtain ⟨e, f, ⟨before, behind, rfl⟩, between⟩ := run
  intro g hg
  have := between.after
  have := between.before
  obtain ⟨lower, -, crossing⟩ := List.pairwise_append.mp ascending
  obtain ⟨-, pair, lowerCrossing⟩ := List.pairwise_append.mp lower
  simp only [List.append_assoc, List.cons_append, List.nil_append, List.mem_append,
    List.mem_cons] at hg
  rcases hg with low | rfl | rfl | high
  · have := lowerCrossing g low e (by simp)
    simp only [Entry.endPage] at *
    omega
  · exact Or.inl between.after
  · exact Or.inr between.before
  · have := crossing f (by simp) g high
    simp only [Entry.endPage] at *
    omega

variable {m : Map}

theorem Sorted.positive {m' : Map} (wf : m.Wf) (sorted : Sorted m m') :
    ∀ e ∈ m'.vmentry, 0 < e.npages := fun e he => wf.positive e (sorted.perm.mem_iff.mp he)

variable {numPages : Nat}

theorem naClVmmapFindMapSpace_spec (wf : m.Wf) (pos : 0 < numPages) :
    ∃ found m', naClVmmapFindMapSpace m numPages = some (found, m') ∧ Sorted m m' ∧
      Highest m'.vmentry (naClRoundPageNumUpToMapMultiple numPages) found := by
  rw [naClVmmapFindMapSpace]
  split
  · next empty =>
    have nil : m.vmentry = [] := List.length_eq_zero_iff.mp empty
    refine ⟨0, m, rfl, ⟨by simp [Map.live, nil], by simp [nil, Ascending]⟩, Or.inl ⟨rfl, ?_⟩⟩
    exact fun s => not_isRun_of_length (by simp [nil])
  · obtain ⟨m', run, perm, ascending, -⟩ := naClVmmapMakeSorted_spec wf
    have sorted : Sorted m m' := ⟨perm, ascending⟩
    have found := findMapSpaceLoop_spec (l := m'.vmentry.reverse)
      (naClRoundPageNumUpToMapMultiple_mod numPages)
      (naClRoundPageNumUpToMapMultiple_pos.mpr pos) (by rwa [List.reverse_reverse])
      fun e he => sorted.positive wf e (List.mem_reverse.mp he)
    rw [List.reverse_reverse] at found
    exact ⟨_, m', by rw [run]; rfl, sorted, found⟩

theorem naClVmmapFindMapSpaceAboveHint_spec (wf : m.Wf) {uaddr : Nat}
    (aligned : uaddr / 2 ^ naclPageShift % naClPagesPerMap = 0) (pos : 0 < numPages) :
    ∃ found m', naClVmmapFindMapSpaceAboveHint m uaddr numPages = some (found, m') ∧
      Sorted m m' ∧ LowestAbove m'.vmentry (naClRoundPageNumUpToMapMultiple numPages)
        (uaddr / 2 ^ naclPageShift) found := by
  obtain ⟨m', run, perm, ascending, -⟩ := naClVmmapMakeSorted_spec wf
  have sorted : Sorted m m' := ⟨perm, ascending⟩
  refine ⟨_, m', by rw [naClVmmapFindMapSpaceAboveHint, run]; rfl, sorted, ?_⟩
  exact findMapSpaceAboveLoop_spec (naClRoundPageNumUpToMapMultiple_mod numPages)
    (naClRoundPageNumUpToMapMultiple_pos.mpr pos) aligned ascending (sorted.positive wf)

end SandboxTEE.Vmmap
