import SandboxTEE.FaultInjection.Parsing
import SandboxTEE.Lib.Text

/-! # The growth of the table of sites

`naClFaultInjectGrowIfNeeded` reallocates, but leaves `gNaClSizeFaultInjectInfo` at 0, so every
call of it asks for four entries again.
-/

namespace SandboxTEE.FaultInjection

open SandboxTEE.Lib
open SandboxTEE.Stdlib

/-! ## The entries of a configuration -/

/-- The text between the separators; behind the last one there need not be an entry. -/
def entryTexts (config : List Byte) : List (List Byte) :=
  let pieces := config.splitOnP fun c => decide (c = 44 ∨ c = 58)
  if pieces.getLast? = some [] then pieces.dropLast else pieces

/-- The entries in front of the first one that is malformed. -/
def wellFormed : List (List Byte) → List NaClFaultInjectInfo
  | [] => []
  | text :: texts =>
    match naClFaultInjectionParseConfigEntry text with
    | none => []
    | some entry => entry :: wellFormed texts

@[simp] theorem entryTexts_nil : entryTexts [] = [] := by
  simp [entryTexts]

variable {config : List Byte}

theorem entryTexts_unbroken (nonempty : config ≠ []) (unbroken : Unbroken config) :
    entryTexts config = [config] := by
  have whole : (config.splitOnP fun c => decide (c = 44 ∨ c = 58)) = [config] := by
    apply List.splitOnP_eq_singleton
    intro c member
    simp [unbroken c member]
  rw [entryTexts, whole]
  simp [nonempty]

theorem entryTexts_broken {front rest : List Byte} {c : Byte} (unbroken : Unbroken front)
    (separator : c = 44 ∨ c = 58) : entryTexts (front ++ c :: rest) = front :: entryTexts rest := by
  have pieces : ((front ++ c :: rest).splitOnP fun c => decide (c = 44 ∨ c = 58)) =
      front :: rest.splitOnP fun c => decide (c = 44 ∨ c = 58) := by
    apply List.splitOnP_append_cons_of_forall_mem
    · intro d member
      simp [unbroken d member]
    · simp [separator]
  have more := List.splitOnP_ne_nil (fun c : Byte => decide (c = 44 ∨ c = 58)) rest
  cases split : rest.splitOnP fun c => decide (c = 44 ∨ c = 58) with
  | nil => exact absurd split more
  | cons next later =>
    simp only [entryTexts, pieces, split, List.getLast?_cons_cons, List.dropLast_cons_cons]
    split <;> rfl

theorem entryTexts_step (nonempty : config ≠ []) :
    entryTexts config = (config.takeWhile fun c => c ≠ 44 ∧ c ≠ 58) ::
      entryTexts ((config.dropWhile fun c => c ≠ 44 ∧ c ≠ 58).drop 1) := by
  have whole := List.takeWhile_append_dropWhile (p := fun c : Byte => decide (c ≠ 44 ∧ c ≠ 58))
    (l := config)
  have unbroken : Unbroken (config.takeWhile fun c => c ≠ 44 ∧ c ≠ 58) := by
    intro c member
    simpa using List.mem_takeWhile_imp member
  cases behind : config.dropWhile fun c => c ≠ 44 ∧ c ≠ 58 with
  | nil =>
    rw [behind, List.append_nil] at whole
    rw [whole] at unbroken ⊢
    simpa using entryTexts_unbroken nonempty unbroken
  | cons c rest =>
    have separator : c = 44 ∨ c = 58 := by
      have head := List.head?_dropWhile_not (fun c : Byte => decide (c ≠ 44 ∧ c ≠ 58)) config
      rw [behind] at head
      simpa [Decidable.or_iff_not_not_and_not] using head
    rw [behind] at whole
    calc entryTexts config
        = entryTexts ((config.takeWhile fun c => c ≠ 44 ∧ c ≠ 58) ++ c :: rest) := by rw [whole]
      _ = _ := entryTexts_broken unbroken separator

/-! ## The calls of `naClFaultInjectAddEntry` -/

/-- The loop stands in front of `curEntry`, with the table so far. -/
inductive Reached (config : List Byte) : Table → List Byte → Prop where
  | start : Reached config .empty config
  | round {t t' : Table} {curEntry : List Byte} {entry : NaClFaultInjectInfo}
      (reached : Reached config t curEntry) (more : curEntry ≠ [])
      (parsed : naClFaultInjectionParseConfigEntry
        (curEntry.takeWhile fun c => c ≠ 44 ∧ c ≠ 58) = some entry)
      (added : naClFaultInjectAddEntry t entry = .ok t') :
      Reached config t' ((curEntry.dropWhile fun c => c ≠ 44 ∧ c ≠ 58).drop 1)

/-- Each call has a record left behind the growth, for the entry it writes. -/
def WritesInside (config : List Byte) : Prop :=
  ∀ (t : Table) (curEntry : List Byte) (entry : NaClFaultInjectInfo), Reached config t curEntry →
    curEntry ≠ [] → naClFaultInjectionParseConfigEntry
      (curEntry.takeWhile fun c => c ≠ 44 ∧ c ≠ 58) = some entry →
    ∀ grown, naClFaultInjectGrowIfNeeded t = .ok grown → grown.info.length < grown.allocated

variable {t : Table}

theorem naClFaultInjectGrowIfNeeded_four (size : t.size = 0) :
    naClFaultInjectGrowIfNeeded t = .ok { t with allocated := 4 } := by
  simp [naClFaultInjectGrowIfNeeded, size, uintptrMax, infoSize]

theorem addEntry_overrun (size : t.size = 0) (full : 4 ≤ t.info.length)
    (entry : NaClFaultInjectInfo) : naClFaultInjectAddEntry t entry = .error .overrun := by
  rw [naClFaultInjectAddEntry, naClFaultInjectGrowIfNeeded_four size]
  exact if_neg (Nat.not_lt.mpr full)

/-- An entry that is added is one of the first four. -/
theorem addEntry_inv {t' : Table} {entry : NaClFaultInjectInfo} (size : t.size = 0)
    (added : naClFaultInjectAddEntry t entry = .ok t') : t' = ⟨t.info ++ [entry], 0, 4⟩ := by
  by_cases room : t.info.length < 4
  · rw [addEntry_ok size room] at added
    exact (Except.ok.inj added).symm
  · rw [addEntry_overrun size (Nat.not_lt.mp room)] at added
    cases added

variable {curEntry : List Byte}

/-- What the next round makes of the text behind it. -/
theorem wellFormed_step {entry : NaClFaultInjectInfo} (more : curEntry ≠ [])
    (parsed : naClFaultInjectionParseConfigEntry
      (curEntry.takeWhile fun c => c ≠ 44 ∧ c ≠ 58) = some entry) :
    wellFormed (entryTexts curEntry) = entry :: wellFormed
      (entryTexts ((curEntry.dropWhile fun c => c ≠ 44 ∧ c ≠ 58).drop 1)) := by
  rw [entryTexts_step more]
  simp only [wellFormed, parsed]

/-- What the loop keeps: the static is still 0, and the table holds the entries in front of what
    is yet to be read. -/
theorem Reached.kept {config : List Byte} {t : Table} {curEntry : List Byte}
    (reached : Reached config t curEntry) :
    t.size = 0 ∧ wellFormed (entryTexts config) = t.info ++ wellFormed (entryTexts curEntry) := by
  induction reached with
  | start => exact ⟨rfl, rfl⟩
  | round reached more parsed added ih =>
    obtain ⟨size, entries⟩ := ih
    have same := addEntry_inv size added
    subst same
    constructor
    · rfl
    · rw [entries, wellFormed_step more parsed]
      simp

/-- The loop goes on while an entry is left and the table is not full. -/
theorem Reached.next (reached : Reached config t curEntry)
    (left : t.info.length < (wellFormed (entryTexts config)).length) :
    ∃ entry, curEntry ≠ [] ∧ naClFaultInjectionParseConfigEntry
      (curEntry.takeWhile fun c => c ≠ 44 ∧ c ≠ 58) = some entry := by
  have entries := reached.kept.2
  have more : curEntry ≠ [] := by
    intro ended
    simp [entries, ended, wellFormed] at left
  cases parsed : naClFaultInjectionParseConfigEntry
      (curEntry.takeWhile fun c => c ≠ 44 ∧ c ≠ 58) with
  | none =>
    have ended : wellFormed (entryTexts curEntry) = [] := by
      rw [entryTexts_step more]
      simp only [wellFormed, parsed]
    simp [entries, ended] at left
  | some entry => exact ⟨entry, more, rfl⟩

theorem reached_of_le {n : Nat} (few : n ≤ 4)
    (among : n ≤ (wellFormed (entryTexts config)).length) :
    ∃ t curEntry, Reached config t curEntry ∧ t.info.length = n := by
  induction n with
  | zero => exact ⟨.empty, config, .start, rfl⟩
  | succ n ih =>
    obtain ⟨t, curEntry, reached, length⟩ := ih (by omega) (by omega)
    obtain ⟨entry, more, parsed⟩ := reached.next (by omega)
    have added := addEntry_ok reached.kept.1 (by omega) entry
    exact ⟨_, _, .round reached more parsed added, by simp [length]⟩

/-! ## The function -/

/-- The initialisation goes through what is reached. -/
theorem Reached.init_eq (reached : Reached config t curEntry) : ∃ fuel, curEntry.length < fuel ∧
      naClFaultInjectionModuleInternalInit (some config) = initLoop fuel t curEntry := by
  induction reached with
  | start => exact ⟨_, Nat.lt_succ_self _, rfl⟩
  | @round t t' curEntry entry reached more parsed added ih =>
    obtain ⟨fuel, enough, run⟩ := ih
    cases fuel with
    | zero => exact absurd enough (Nat.not_lt_zero _)
    | succ fuel =>
      refine ⟨fuel, ?_, ?_⟩
      · have shorter := (List.dropWhile_suffix (fun c : Byte => decide (c ≠ 44 ∧ c ≠ 58))
          (l := curEntry)).length_le
        have nonempty := List.length_pos_iff.mpr more
        rw [List.length_drop]
        omega
      · rw [run, initLoop, if_neg more, parsed]
        simp only [added]
        rfl

/-- A run that ends behind the array has made a call that writes there. -/
theorem initLoop_overrun {fuel : Nat} (reached : Reached config t curEntry)
    (overrun : initLoop fuel t curEntry = .error .overrun) : ¬ WritesInside config := by
  induction fuel generalizing t curEntry with
  | zero => cases overrun
  | succ fuel ih =>
    by_cases more : curEntry = []
    · rw [initLoop, if_pos more] at overrun
      cases overrun
    · rw [initLoop, if_neg more] at overrun
      cases parsed : naClFaultInjectionParseConfigEntry
          (curEntry.takeWhile fun c => c ≠ 44 ∧ c ≠ 58) with
      | none =>
        rw [parsed] at overrun
        cases overrun
      | some entry =>
        rw [parsed] at overrun
        by_cases room : t.info.length < 4
        · have added := addEntry_ok reached.kept.1 room entry
          simp only [added] at overrun
          exact ih (.round reached more parsed added) overrun
        · intro inside
          exact room (inside t curEntry entry reached more parsed _
            (naClFaultInjectGrowIfNeeded_four reached.kept.1))

/-- The initialisation overruns the array exactly when a call does not write inside it. -/
theorem moduleInternalInit_overrun_iff (config : List Byte) :
    naClFaultInjectionModuleInternalInit (some config) = .error .overrun ↔
      ¬ WritesInside config := by
  constructor
  · exact initLoop_overrun .start
  · intro outside
    -- the run comes to the call that has no record left, and ends there
    simp only [WritesInside, not_forall] at outside
    obtain ⟨t, curEntry, entry, reached, more, parsed, grown, grew, full⟩ := outside
    have size := reached.kept.1
    rw [naClFaultInjectGrowIfNeeded_four size] at grew
    cases grew
    obtain ⟨fuel, enough, run⟩ := reached.init_eq
    cases fuel with
    | zero => exact absurd enough (Nat.not_lt_zero _)
    | succ fuel =>
      have overrun := addEntry_overrun size (Nat.not_lt.mp full) entry
      rw [run, initLoop, if_neg more, parsed]
      simp only [overrun]
      rfl

/-- **The bound on the table.**  The entries are written inside the array if and only if at most
    four of them are in front of the first malformed one. -/
theorem naClFaultInjectAddEntry_inside_iff (config : List Byte) :
    WritesInside config ↔ (wellFormed (entryTexts config)).length ≤ 4 := by
  constructor
  · intro inside
    by_contra many
    -- the static says 0 to the end, so the fifth call asks for four entries like the first
    have four : 4 ≤ (wellFormed (entryTexts config)).length := by omega
    obtain ⟨t, curEntry, reached, length⟩ := reached_of_le (Nat.le_refl 4) four
    obtain ⟨entry, more, parsed⟩ := reached.next (by omega)
    have room := inside t curEntry entry reached more parsed _
      (naClFaultInjectGrowIfNeeded_four reached.kept.1)
    simp only [length] at room
    exact Nat.lt_irrefl 4 room
  · intro few t curEntry entry reached more parsed grown grew
    obtain ⟨size, entries⟩ := reached.kept
    rw [naClFaultInjectGrowIfNeeded_four size] at grew
    cases grew
    rw [entries, wellFormed_step more parsed] at few
    simp only [List.length_append, List.length_cons] at few
    show t.info.length < 4
    omega

/-- `a=GF,b=GF,c=GF,d=GF,e=GF` -/
def fiveEntries : List Byte := ascii "a=GF,b=GF,c=GF,d=GF,e=GF"

/-- The fifth entry is written behind the array. -/
theorem naClFaultInjectAddEntry_outside :
    naClFaultInjectionModuleInternalInit (some fiveEntries) = .error .overrun ∧
    ¬ WritesInside fiveEntries := by
  have overrun : naClFaultInjectionModuleInternalInit (some fiveEntries) = .error .overrun := by
    decide +kernel
  exact ⟨overrun, initLoop_overrun .start overrun⟩

end SandboxTEE.FaultInjection
