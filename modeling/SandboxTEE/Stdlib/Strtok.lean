import Mathlib.Data.List.TakeWhile
import SandboxTEE.Lib.Fields
import SandboxTEE.Stdlib.Cstring

/-! # `strtok_r` of the enclave's stdlib

The scan is over the string of the buffer; what `*lasts` points at afterwards is the
rest of it.  Successive calls return the non-empty fields one by one.
-/

namespace SandboxTEE.Stdlib

open SandboxTEE.Lib (fields tokens tokens_nil tokens_sep_cons tokens_append_sep tokens_of_not_mem)

/-- The token and the rest; `none` is the NULL pointer. -/
def strtokR (control : Byte) (str : List Byte) : Option (List Byte) × List Byte :=
  let str := str.dropWhile fun b => b = control
  let token := str.takeWhile fun b => b ≠ control
  let lasts := (str.dropWhile fun b => b ≠ control).drop 1
  if token = [] then (none, lasts) else (some token, lasts)

variable {control : Byte}

theorem strtokR_control_cons (str : List Byte) :
    strtokR control (control :: str) = strtokR control str := by
  rw [strtokR, strtokR, List.dropWhile_cons_of_pos (by simp)]

theorem takeWhile_append_control {token rest : List Byte} (h : control ∉ token) :
    (token ++ control :: rest).takeWhile (fun b => b ≠ control) = token ∧
      (token ++ control :: rest).dropWhile (fun b => b ≠ control) = control :: rest := by
  induction token with
  | nil => simp
  | cons b token ih =>
    have ne : b ≠ control := fun eq => h (eq ▸ List.mem_cons_self)
    have ih := ih fun mem => h (List.mem_cons_of_mem b mem)
    rw [List.cons_append, List.takeWhile_cons_of_pos (by simpa using ne),
      List.dropWhile_cons_of_pos (by simpa using ne), ih.1, ih.2]
    exact ⟨rfl, rfl⟩

theorem strtokR_append {token : List Byte} (h : control ∉ token) (ne : token ≠ [])
    (rest : List Byte) : strtokR control (token ++ control :: rest) = (some token, rest) := by
  obtain ⟨b, token', rfl⟩ := List.exists_cons_of_ne_nil ne
  have first : b ≠ control := fun eq => h (eq ▸ List.mem_cons_self)
  have same : ((b :: token') ++ control :: rest).dropWhile (fun b => b = control) =
      (b :: token') ++ control :: rest := by
    rw [List.cons_append, List.dropWhile_cons_of_neg (by simpa using first)]
  rw [strtokR, same, (takeWhile_append_control h).1, (takeWhile_append_control h).2]
  rfl

theorem strtokR_of_not_mem {token : List Byte} (h : control ∉ token) (ne : token ≠ []) :
    strtokR control token = (some token, []) := by
  have all : ∀ b ∈ token, b ≠ control := fun b mem eq => h (eq ▸ mem)
  obtain ⟨b, token', rfl⟩ := List.exists_cons_of_ne_nil ne
  have same : (b :: token').dropWhile (fun b => b = control) = b :: token' :=
    List.dropWhile_cons_of_neg (by simpa using all b List.mem_cons_self)
  have taken : (b :: token').takeWhile (fun b => b ≠ control) = b :: token' :=
    List.takeWhile_eq_self_iff.mpr fun c mem => by simpa using all c mem
  have rest : (b :: token').dropWhile (fun b => b ≠ control) = [] :=
    List.dropWhile_eq_nil_iff.mpr fun c mem => by simpa using all c mem
  rw [strtokR, same, taken, rest]
  rfl

/-- A call returns the first non-empty field, and leaves the others. -/
theorem strtokR_tokens : ∀ str : List Byte,
    (strtokR control str).1 = (tokens control str).head? ∧
      tokens control (strtokR control str).2 = (tokens control str).tail
  | [] => by simp [strtokR]
  | b :: str => by
    by_cases first : b = control
    · rw [first, strtokR_control_cons, tokens_sep_cons]
      exact strtokR_tokens str
    · by_cases sep : control ∈ str
      · -- the token ends at the first separator
        obtain ⟨token, rest, rfl, notMem⟩ := List.eq_append_cons_of_mem sep
        have h : control ∉ b :: token := by
          intro mem
          rcases List.mem_cons.mp mem with eq | mem
          · exact first eq.symm
          · exact notMem mem
        rw [← List.cons_append, strtokR_append h (List.cons_ne_nil b token), tokens_append_sep,
          tokens_of_not_mem h (List.cons_ne_nil b token)]
        exact ⟨rfl, rfl⟩
      · have h : control ∉ b :: str := by
          intro mem
          rcases List.mem_cons.mp mem with eq | mem
          · exact first eq.symm
          · exact sep mem
        rw [strtokR_of_not_mem h (List.cons_ne_nil b str),
          tokens_of_not_mem h (List.cons_ne_nil b str)]
        exact ⟨rfl, tokens_nil⟩

end SandboxTEE.Stdlib
