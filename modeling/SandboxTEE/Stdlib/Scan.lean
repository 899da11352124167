import Mathlib.Algebra.Group.Int.Defs
import Mathlib.Algebra.Group.Nat.Defs
import Mathlib.Data.List.TakeWhile
import SandboxTEE.Lib.ByteMemory
import SandboxTEE.Stdlib.Cstring

/-! # Scans of the enclave's stdlib

`strtok_r` with a set of separators, `atoi`, and a string read from memory, which faults at the
end of what is mapped.
-/

namespace SandboxTEE.Stdlib

open SandboxTEE.Lib (bytesAt getElem?_bytesAt)

/-! ## `strtok_r` -/

/-- The token and the rest; `none` is the NULL pointer. -/
def strtokRSet (controls : List Byte) (str : List Byte) : Option (List Byte) × List Byte :=
  let str := str.dropWhile fun b => b ∈ controls
  let token := str.takeWhile fun b => b ∉ controls
  let lasts := (str.dropWhile fun b => b ∉ controls).drop 1
  if token = [] then (none, lasts) else (some token, lasts)

/-- A token is a part of the string without separators. -/
theorem strtokRSet_some {controls str token lasts : List Byte}
    (found : strtokRSet controls str = (some token, lasts)) :
    (∀ b ∈ token, b ∈ str ∧ b ∉ controls) ∧ ∀ b ∈ lasts, b ∈ str := by
  rw [strtokRSet] at found
  split at found
  · cases found
  · cases found
    refine ⟨fun b member => ⟨?_, ?_⟩, fun b member => ?_⟩
    · exact (List.dropWhile_sublist _).subset ((List.takeWhile_sublist _).subset member)
    · simpa using List.mem_takeWhile_imp member
    · exact (List.dropWhile_sublist _).subset ((List.dropWhile_sublist _).subset
        ((List.drop_sublist _ _).subset member))

/-! ## `atoi` -/

def isDigit (b : Byte) : Bool := 48 ≤ b && b ≤ 57

/-- Base ten, with leading blanks and a sign; both conversions wrap. -/
def atoi (str : List Byte) : Int :=
  let str := str.dropWhile fun b => b = 32 || b = 9
  let (sign, digits) : Int × List Byte :=
    match str with
    | 43 :: rest => (1, rest)
    | 45 :: rest => (-1, rest)
    | rest => (1, rest)
  let value := (digits.takeWhile isDigit).foldl
    (fun value b => value * 10 + ((b.toNat : Int) - 48) * sign) 0
  Int.bmod value (2 ^ 32)

/-! ## Strings in memory -/

def stringFrom (mem : Memory) : Nat → Nat → Option (List Byte)
  | 0, _ => none
  | fuel + 1, a => if mem a = 0 then some [] else (stringFrom mem fuel (a + 1)).map (mem a :: ·)

/-- The string at an address; memory ends at `top`. -/
def stringAt (mem : Memory) (top a : Nat) : Option (List Byte) := stringFrom mem (top - a) a

variable {s : List Byte} {mem : Memory} {a : Nat}

theorem stringFrom_eq_some_iff {fuel : Nat} :
    stringFrom mem fuel a = some s ↔ HoldsString mem a s ∧ s.length < fuel := by
  induction fuel generalizing a s with
  | zero => simp [stringFrom]
  | succ fuel ih =>
    rw [stringFrom]
    split
    · next zero =>
      cases s with
      | nil => simp [HoldsString, zero]
      | cons b s =>
        refine iff_of_false (fun same => nomatch Option.some.inj same) fun holds => ?_
        exact holds.1.1 (holds.1.2.1.symm.trans zero)
    · next nonzero =>
      cases s with
      | nil => simp [HoldsString, nonzero]
      | cons b s =>
        rw [Option.map_eq_some_iff]
        constructor
        · rintro ⟨rest, found, same⟩
          obtain ⟨rfl, rfl⟩ := List.cons.inj same
          obtain ⟨holds, short⟩ := ih.mp found
          exact ⟨⟨nonzero, rfl, holds⟩, Nat.succ_lt_succ short⟩
        · rintro ⟨⟨_, first, holds⟩, short⟩
          exact ⟨s, ih.mpr ⟨holds, Nat.lt_of_succ_lt_succ short⟩, by rw [first]⟩

/-- A block that holds the bytes of a string holds the string if a NUL stands behind it. -/
theorem holdsString_iff (noNul : (0 : Byte) ∉ s) (block : bytesAt mem a s.length = s) :
    HoldsString mem a s ↔ mem (a + s.length) = 0 := by
  induction s generalizing a with
  | nil => rfl
  | cons b s ih =>
    have cell (i : Nat) (inside : i < s.length + 1) :
        (b :: s)[i]? = some (mem (a + i)) := by
      rw [← block, getElem?_bytesAt, List.length_cons, if_pos inside]
    have first : mem a = b := (Option.some.inj (cell 0 (Nat.succ_pos _))).symm
    have rest : bytesAt mem (a + 1) s.length = s := by
      refine List.ext_getElem? fun i => ?_
      rw [getElem?_bytesAt]
      by_cases inside : i < s.length
      · rw [if_pos inside, Nat.add_right_comm, Nat.add_assoc, ← cell (i + 1) (by omega)]
        rfl
      · rw [if_neg inside, List.getElem?_eq_none (by omega)]
    have nonzero : b ≠ 0 := fun zero => noNul (zero ▸ List.mem_cons_self)
    rw [HoldsString, ih (fun mem => noNul (List.mem_cons_of_mem b mem)) rest, List.length_cons]
    simp only [nonzero, first, ne_eq, not_false_eq_true, true_and, Nat.add_assoc, Nat.add_comm 1]

theorem stringAt_eq_some_iff {top : Nat} (noNul : (0 : Byte) ∉ s)
    (block : bytesAt mem a s.length = s) (inside : a + s.length < top) :
    stringAt mem top a = some s ↔ mem (a + s.length) = 0 := by
  rw [stringAt, stringFrom_eq_some_iff, holdsString_iff noNul block]
  exact and_iff_left (by omega)

end SandboxTEE.Stdlib
