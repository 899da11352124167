import Mathlib.Data.List.Infix

/-! # Texts as bytes, and where one occurs in another -/

namespace SandboxTEE.Lib

/-- The bytes of an ASCII text. -/
def ascii (text : String) : List UInt8 := text.toList.map fun c => UInt8.ofNat c.toNat

section Occurrence

variable {α : Type} [DecidableEq α]

/-- Where `needle` first stands whole in a list. -/
def firstOccurrence (needle : List α) : List α → Option Nat
  | [] => if needle = [] then some 0 else none
  | a :: hay =>
    if needle <+: a :: hay then some 0 else (firstOccurrence needle hay).map (· + 1)

variable {needle hay : List α} {i : Nat}

theorem firstOccurrence_eq_some_iff : firstOccurrence needle hay = some i ↔
      i ≤ hay.length ∧ needle <+: hay.drop i ∧ ∀ j < i, ¬ needle <+: hay.drop j := by
  induction hay generalizing i with
  | nil =>
    rw [firstOccurrence]
    by_cases empty : needle = []
    · rw [if_pos empty, empty, Option.some.injEq, List.length_nil, Nat.le_zero]
      constructor
      · rintro rfl
        exact ⟨rfl, List.nil_prefix, fun j before => absurd before (Nat.not_lt_zero j)⟩
      · exact fun found => found.1.symm
    · simp [empty]
  | cons a hay ih =>
    rw [firstOccurrence]
    by_cases here : needle <+: a :: hay
    · rw [if_pos here, Option.some.injEq]
      constructor
      · rintro rfl
        exact ⟨Nat.zero_le _, here, fun j before => absurd before (Nat.not_lt_zero j)⟩
      · rintro ⟨-, -, first⟩
        cases i with
        | zero => rfl
        | succ i => exact absurd here (first 0 (Nat.succ_pos i))
    · rw [if_neg here, Option.map_eq_some_iff]
      constructor
      · rintro ⟨k, found, rfl⟩
        obtain ⟨bound, occurs, first⟩ := ih.mp found
        refine ⟨Nat.succ_le_succ bound, occurs, fun j before => ?_⟩
        cases j with
        | zero => exact here
        | succ j => exact first j (Nat.lt_of_succ_lt_succ before)
      · rintro ⟨bound, occurs, first⟩
        cases i with
        | zero => exact absurd occurs here
        | succ i =>
          refine ⟨i, ih.mpr ⟨Nat.le_of_succ_le_succ bound, occurs, fun j before => ?_⟩, rfl⟩
          exact first (j + 1) (Nat.succ_lt_succ before)

theorem firstOccurrence_eq_none_iff :
    firstOccurrence needle hay = none ↔ ∀ i ≤ hay.length, ¬ needle <+: hay.drop i := by
  constructor
  · intro absent i
    induction i using Nat.strongRecOn with
    | ind i ih =>
      intro bound occurs
      -- nowhere before, so it would be found here
      have found := firstOccurrence_eq_some_iff.mpr
        ⟨bound, occurs, fun j before => ih j before (by omega)⟩
      rw [absent] at found
      cases found
  · intro nowhere
    cases found : firstOccurrence needle hay with
    | none => rfl
    | some i =>
      obtain ⟨bound, occurs, -⟩ := firstOccurrence_eq_some_iff.mp found
      exact absurd occurs (nowhere i bound)

/-- Where it does not occur in front, it first occurs in the rest. -/
theorem firstOccurrence_drop {k : Nat} (inside : k ≤ hay.length)
    (absent : ∀ j < k, ¬ needle <+: hay.drop j) :
    firstOccurrence needle hay = (firstOccurrence needle (hay.drop k)).map (k + ·) := by
  cases found : firstOccurrence needle (hay.drop k) with
  | none =>
    rw [firstOccurrence_eq_none_iff] at found
    rw [Option.map_none, firstOccurrence_eq_none_iff]
    intro i bound
    by_cases front : i < k
    · exact absent i front
    · have later := found (i - k) (by rw [List.length_drop]; omega)
      rwa [List.drop_drop, Nat.add_sub_cancel' (by omega)] at later
  | some i =>
    obtain ⟨bound, occurs, first⟩ := firstOccurrence_eq_some_iff.mp found
    rw [List.length_drop] at bound
    change firstOccurrence needle hay = some (k + i)
    refine firstOccurrence_eq_some_iff.mpr ⟨by omega, ?_, fun j before => ?_⟩
    · rwa [List.drop_drop] at occurs
    · by_cases front : j < k
      · exact absent j front
      · have later := first (j - k) (by omega)
        rwa [List.drop_drop, Nat.add_sub_cancel' (by omega)] at later

/-- What occurs in the front of a list first occurs there. -/
theorem firstOccurrence_append (behind : List α) (found : firstOccurrence needle hay = some i) :
    firstOccurrence needle (hay ++ behind) = some i := by
  obtain ⟨bound, occurs, first⟩ := firstOccurrence_eq_some_iff.mp found
  refine firstOccurrence_eq_some_iff.mpr ⟨?_, ?_, fun j before earlier => ?_⟩
  · rw [List.length_append]
    omega
  · rw [List.drop_append_of_le_length bound]
    exact occurs.trans (List.prefix_append _ _)
  · -- the earlier occurrence would be in front as well
    refine first j before ?_
    rw [List.drop_append_of_le_length (by omega)] at earlier
    refine List.prefix_of_prefix_length_le earlier (List.prefix_append _ _) ?_
    have fits := occurs.length_le
    rw [List.length_drop] at fits ⊢
    omega

end Occurrence

end SandboxTEE.Lib
