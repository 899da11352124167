import Mathlib.Data.List.Basic

/-! # Memory as a function of addresses

`bytesAt` reads a range, `store` writes one.  A store changes the cells of its range only, and
a range that the cells of a second memory agree on reads the same there.
-/

namespace SandboxTEE.Lib

variable {α : Type} {mem mem' : Nat → α} {addr len : Nat} {bs : List α}

def bytesAt (mem : Nat → α) (addr len : Nat) : List α :=
  (List.range len).map fun i => mem (addr + i)

def store (mem : Nat → α) (addr : Nat) (bs : List α) : Nat → α := fun p =>
  if addr ≤ p then (bs[p - addr]?).getD (mem p) else mem p

@[simp] theorem length_bytesAt : (bytesAt mem addr len).length = len := by
  rw [bytesAt, List.length_map, List.length_range]

theorem getElem?_bytesAt (i : Nat) :
    (bytesAt mem addr len)[i]? = if i < len then some (mem (addr + i)) else none := by
  rw [bytesAt, List.getElem?_map]
  by_cases inside : i < len
  · rw [if_pos inside, List.getElem?_range inside, Option.map_some]
  · rw [if_neg inside, List.getElem?_eq_none (by simpa using inside), Option.map_none]

theorem bytesAt_congr (agree : ∀ i < len, mem (addr + i) = mem' (addr + i)) :
    bytesAt mem addr len = bytesAt mem' addr len :=
  List.map_congr_left fun i member => agree i (List.mem_range.mp member)

theorem bytesAt_eq_iff :
    bytesAt mem addr len = bytesAt mem' addr len ↔ ∀ i < len, mem (addr + i) = mem' (addr + i) := by
  refine ⟨fun same i inside => ?_, bytesAt_congr⟩
  have cell := congrArg (·[i]?) same
  simpa only [getElem?_bytesAt, if_pos inside, Option.some.injEq] using cell

theorem bytesAt_add {m n : Nat} :
    bytesAt mem addr (m + n) = bytesAt mem addr m ++ bytesAt mem (addr + m) n := by
  refine List.ext_getElem? fun i => ?_
  rw [List.getElem?_append, length_bytesAt, getElem?_bytesAt, getElem?_bytesAt, getElem?_bytesAt]
  by_cases front : i < m
  · rw [if_pos front, if_pos front, if_pos (by omega)]
  · rw [if_neg front, show addr + m + (i - m) = addr + i by omega]
    simp only [show i - m < n ↔ i < m + n by omega]

theorem bytesAt_prefix {m n : Nat} (le : m ≤ n) : bytesAt mem addr m <+: bytesAt mem addr n := by
  rw [← Nat.add_sub_cancel' le, bytesAt_add]
  exact List.prefix_append _ _

/-- A range holds two blocks if each part of it holds one. -/
theorem bytesAt_eq_append {bs' : List α} : bytesAt mem addr (bs ++ bs').length = bs ++ bs' ↔
      bytesAt mem addr bs.length = bs ∧ bytesAt mem (addr + bs.length) bs'.length = bs' := by
  rw [List.length_append, bytesAt_add]
  exact ⟨fun same => List.append_inj same length_bytesAt, fun parts => by rw [parts.1, parts.2]⟩

@[simp] theorem store_nil : store mem addr [] = mem := by
  funext p
  simp [store]

theorem store_of_outside {p : Nat} (outside : p < addr ∨ addr + bs.length ≤ p) :
    store mem addr bs p = mem p := by
  rw [store]
  split
  · rw [List.getElem?_eq_none (by omega), Option.getD_none]
  · rfl

theorem store_of_inside {p : Nat} (above : addr ≤ p) (below : p < addr + bs.length) :
    store mem addr bs p = bs[p - addr] := by
  rw [store, if_pos above, List.getElem?_eq_getElem (by omega), Option.getD_some]

theorem store_singleton (b : α) (p : Nat) :
    store mem addr [b] p = if p = addr then b else mem p := by
  by_cases here : p = addr
  · rw [if_pos here, store_of_inside (Nat.le_of_eq here.symm) (by simp [here])]
    simp [here]
  · rw [if_neg here, store_of_outside]
    simp only [List.length_singleton]
    omega

theorem bytesAt_store : bytesAt (store mem addr bs) addr bs.length = bs := by
  refine List.ext_getElem? fun i => ?_
  rw [getElem?_bytesAt]
  by_cases inside : i < bs.length
  · rw [if_pos inside, store_of_inside (by omega) (by omega), List.getElem?_eq_getElem inside]
    simp only [Nat.add_sub_cancel_left]
  · rw [if_neg inside, List.getElem?_eq_none (by omega)]

theorem bytesAt_copy {src : Nat} :
    bytesAt (store mem addr (bytesAt mem' src len)) addr len = bytesAt mem' src len := by
  have copied := @bytesAt_store _ mem addr (bytesAt mem' src len)
  rwa [length_bytesAt] at copied

/-- A range apart from the one that is stored reads as before. -/
theorem bytesAt_store_of_apart {addr' : Nat}
    (apart : addr' + len ≤ addr ∨ addr + bs.length ≤ addr') :
    bytesAt (store mem addr bs) addr' len = bytesAt mem addr' len := by
  refine bytesAt_congr fun i inside => store_of_outside ?_
  omega

/-- Two stores one behind the other are one store. -/
theorem store_append {bs' : List α} :
    store (store mem addr bs) (addr + bs.length) bs' = store mem addr (bs ++ bs') := by
  funext p
  simp only [store, List.getElem?_append]
  by_cases behind : addr + bs.length ≤ p
  · have none : bs[p - addr]? = none := List.getElem?_eq_none (by omega)
    have above : addr ≤ p := by omega
    rw [if_pos behind, if_pos above, if_pos above, if_neg (by omega), none, Option.getD_none,
      Nat.sub_add_eq]
  · rw [if_neg behind]
    split
    · rw [if_pos (by omega)]
    · rfl

/-- A store over cells where two memories agree keeps that they agree. -/
theorem store_congr {p : Nat} (agree : mem p = mem' p) :
    store mem addr bs p = store mem' addr bs p := by
  rw [store, store, agree]

theorem store_eq_self_iff : store mem addr bs = mem ↔ bytesAt mem addr bs.length = bs := by
  constructor
  · intro same
    have copied := @bytesAt_store _ mem addr bs
    rwa [same] at copied
  · intro there
    funext p
    by_cases inside : addr ≤ p ∧ p < addr + bs.length
    · have cell := congrArg (·[p - addr]?) there
      rw [store_of_inside inside.1 inside.2]
      simp only [getElem?_bytesAt, if_pos (show p - addr < bs.length by omega),
        List.getElem?_eq_getElem (show p - addr < bs.length by omega), Option.some.injEq,
        Nat.add_sub_cancel' inside.1] at cell
      exact cell.symm
    · apply store_of_outside
      omega

end SandboxTEE.Lib
