import Mathlib.Algebra.GroupWithZero.Nat
import Mathlib.Data.List.Basic

/-! # Sequences written and read in pieces

A file is a list; `readAt` and `writeAt` are its transfers at an offset.  A transformation
that counts positions from the start of every piece is `mapChunks`, and `chunkOffset`
says what it takes for the position of an index.
-/

namespace SandboxTEE.Lib

variable {α β γ : Type}

/-! ## Transfers at an offset -/

/-- `n` elements from `off` on, as far as there are any. -/
def readAt (l : List α) (off n : Nat) : List α := (l.drop off).take n

/-- `bs` put at `off`, with `fill` in a gap behind the end.  Nothing to put leaves no gap. -/
def writeAt (fill : α) (l : List α) (off : Nat) (bs : List α) : List α :=
  if bs.isEmpty then l
  else l.take off ++ (List.replicate (off - l.length) fill ++ (bs ++ l.drop (off + bs.length)))

variable (fill : α)

@[simp] theorem writeAt_nil (l : List α) (off : Nat) : writeAt fill l off [] = l := rfl

variable {bs : List α}

theorem writeAt_of_ne_nil (l : List α) (off : Nat) (h : bs ≠ []) :
    writeAt fill l off bs =
      l.take off ++ (List.replicate (off - l.length) fill ++ (bs ++ l.drop (off + bs.length))) := by
  rw [writeAt, if_neg (by simpa using h)]

theorem length_readAt (l : List α) (off n : Nat) :
    (readAt l off n).length = min n (l.length - off) := by
  rw [readAt, List.length_take, List.length_drop]

theorem length_writeAt (l : List α) (off : Nat) (h : bs ≠ []) :
    (writeAt fill l off bs).length = max l.length (off + bs.length) := by
  have : 0 < bs.length := List.length_pos_iff.mpr h
  simp only [writeAt_of_ne_nil fill l off h, List.length_append, List.length_take,
    List.length_replicate, List.length_drop]
  omega

theorem getElem?_readAt (l : List α) (off n i : Nat) :
    (readAt l off n)[i]? = if i < n then l[off + i]? else none := by
  rw [readAt, List.getElem?_take, List.getElem?_drop]

/-- A transfer of `n + m` elements begins with one of `n`. -/
theorem take_readAt_add (l : List α) (off n m : Nat) :
    (readAt l off (n + m)).take n = readAt l off n := by
  rw [readAt, readAt, List.take_take, Nat.min_eq_left (Nat.le_add_right n m)]

/-- It goes on with one of `m`. -/
theorem drop_readAt_add (l : List α) (off n m : Nat) :
    (readAt l off (n + m)).drop n = readAt l (off + n) m := by
  rw [readAt, readAt, List.drop_take, List.drop_drop, Nat.add_sub_cancel_left]

/-- Before the gap and behind the extent it is the old list, between them the new bytes. -/
theorem getElem?_writeAt (l : List α) (off : Nat) (h : bs ≠ []) (i : Nat) :
    (writeAt fill l off bs)[i]? = if i < off then (if i < l.length then l[i]? else some fill)
      else if i < off + bs.length then bs[i - off]? else l[i]? := by
  rw [writeAt_of_ne_nil fill l off h]
  simp only [List.getElem?_append, List.getElem?_take, List.getElem?_drop,
    List.getElem?_replicate, List.length_take, List.length_replicate]
  split_ifs <;> first
    | rfl
    | omega
    | (congr 1; omega)

variable {off : Nat} {l : List α}

/-- One element that is there already is replaced. -/
theorem writeAt_singleton {b : α} (inside : off < l.length) :
    writeAt fill l off [b] = l.set off b := by
  rw [writeAt_of_ne_nil fill l off (List.cons_ne_nil b []),
    Nat.sub_eq_zero_of_le (Nat.le_of_lt inside), List.set_eq_take_append_cons_drop, if_pos inside]
  rfl

theorem readAt_writeAt (l : List α) (off : Nat) (bs : List α) :
    readAt (writeAt fill l off bs) off bs.length = bs := by
  by_cases h : bs = []
  · rw [h]
    exact List.take_zero
  · refine List.ext_getElem? fun i => ?_
    rw [getElem?_readAt, getElem?_writeAt fill l off h]
    by_cases inside : i < bs.length
    · rw [if_pos inside, if_neg (by omega), if_pos (by omega), Nat.add_sub_cancel_left]
    · rw [if_neg inside, List.getElem?_eq_none (by omega)]

/-- An extent of the old list that the write does not touch. -/
theorem readAt_writeAt_of_disjoint {o n : Nat} (inside : o + n ≤ l.length)
    (disjoint : o + n ≤ off ∨ off + bs.length ≤ o) :
    readAt (writeAt fill l off bs) o n = readAt l o n := by
  by_cases h : bs = []
  · rw [h, writeAt_nil]
  · refine List.ext_getElem? fun i => ?_
    rw [getElem?_readAt, getElem?_readAt, getElem?_writeAt fill l off h]
    split_ifs <;> first
      | rfl
      | omega

theorem writeAt_append (l : List α) (off : Nat) (as bs : List α) :
    writeAt fill l off (as ++ bs) = writeAt fill (writeAt fill l off as) (off + as.length) bs := by
  by_cases ha : as = []
  · rw [ha, writeAt_nil, List.nil_append, List.length_nil, Nat.add_zero]
  by_cases hb : bs = []
  · rw [hb, writeAt_nil, List.append_nil]
  have hab : as ++ bs ≠ [] := List.append_ne_nil_of_left_ne_nil ha bs
  refine List.ext_getElem? fun i => ?_
  rw [getElem?_writeAt fill l off hab, getElem?_writeAt fill _ _ hb, getElem?_writeAt fill l off ha,
    length_writeAt fill l off ha, List.length_append, List.getElem?_append]
  split_ifs <;> first
    | rfl
    | omega
    | (congr 1; omega)

/-- The bytes are told apart by what stands there afterwards. -/
theorem writeAt_inj (l : List α) (off : Nat) {as : List α}
    (length : as.length = bs.length) : writeAt fill l off as = writeAt fill l off bs ↔ as = bs := by
  refine ⟨fun h => ?_, fun h => h ▸ rfl⟩
  calc as = readAt (writeAt fill l off as) off as.length := (readAt_writeAt fill l off as).symm
    _ = readAt (writeAt fill l off bs) off bs.length := by rw [h, length]
    _ = bs := readAt_writeAt fill l off bs

theorem writeAt_readAt_eq_self (inside : off + bs.length ≤ l.length)
    (here : readAt l off bs.length = bs) : writeAt fill l off bs = l := by
  by_cases h : bs = []
  · rw [h, writeAt_nil]
  · refine List.ext_getElem? fun i => ?_
    rw [getElem?_writeAt fill l off h]
    split_ifs with before old new
    · rfl
    · omega
    · rw [← here, getElem?_readAt, if_pos (by omega), Nat.add_sub_cancel' (by omega)]
    · rfl

/-- Writes to two places that do not meet leave the same list only if neither changes it. -/
theorem writeAt_eq_writeAt_iff {off' : Nat} {as : List α}
    (length : as.length = bs.length) (nonempty : bs ≠ []) (before : off + as.length ≤ off') :
    writeAt fill l off as = writeAt fill l off' bs ↔
      off' + bs.length ≤ l.length ∧ readAt l off as.length = as ∧ readAt l off' bs.length = bs := by
  have pos : 0 < bs.length := List.length_pos_iff.mpr nonempty
  have nonempty' : as ≠ [] := List.ne_nil_of_length_pos (length ▸ pos)
  constructor
  · intro same
    have inside : off' + bs.length ≤ l.length := by
      have h := congrArg List.length same
      rw [length_writeAt fill l off nonempty', length_writeAt fill l off' nonempty] at h
      omega
    refine ⟨inside, ?_, ?_⟩
    · calc readAt l off as.length
          = readAt (writeAt fill l off' bs) off as.length :=
            (readAt_writeAt_of_disjoint fill (by omega) (.inl before)).symm
        _ = as := same ▸ readAt_writeAt fill l off as
    · calc readAt l off' bs.length
          = readAt (writeAt fill l off as) off' bs.length :=
            (readAt_writeAt_of_disjoint fill inside (.inr before)).symm
        _ = bs := same ▸ readAt_writeAt fill l off' bs
  · rintro ⟨inside, here, there⟩
    rw [writeAt_readAt_eq_self fill (by omega) here, writeAt_readAt_eq_self fill inside there]

/-! ## Chunks -/

/-- `f` applied to the elements with their index in their chunk. -/
def mapChunks (f : Nat → α → β) : List Nat → List α → List β
  | [], _ => []
  | n :: ns, l => (l.take n).mapIdx f ++ mapChunks f ns (l.drop n)

/-- The index in its chunk of the element with index `i`. -/
def chunkOffset : List Nat → Nat → Nat
  | [], i => i
  | n :: ns, i => if i < n then i else chunkOffset ns (i - n)

theorem mapChunks_flatten (f : Nat → α → β) : ∀ ls : List (List α),
    mapChunks f (ls.map List.length) ls.flatten = (ls.map fun l => l.mapIdx f).flatten
  | [] => rfl
  | l :: ls => by
    rw [List.map_cons, List.flatten_cons, mapChunks, List.take_left, List.drop_left,
      mapChunks_flatten f ls, List.map_cons, List.flatten_cons]

theorem length_mapChunks (f : Nat → α → β) : ∀ (ns : List Nat) (l : List α),
    l.length = ns.sum → (mapChunks f ns l).length = l.length
  | [], l, h => h.symm
  | n :: ns, l, h => by
    rw [List.sum_cons] at h
    have rest : (l.drop n).length = ns.sum := by rw [List.length_drop]; omega
    rw [mapChunks, List.length_append, length_mapChunks f ns _ rest, List.length_mapIdx,
      List.length_take, rest]
    omega

theorem getElem?_mapChunks (f : Nat → α → β) : ∀ (ns : List Nat) (l : List α),
    l.length = ns.sum → ∀ i, (mapChunks f ns l)[i]? = l[i]?.map (f (chunkOffset ns i))
  | [], l, h, i => by
    have : l = [] := List.eq_nil_of_length_eq_zero h
    rw [this]
    rfl
  | n :: ns, l, h, i => by
    rw [List.sum_cons] at h
    have first : (l.take n).length = n := by rw [List.length_take]; omega
    have rest : (l.drop n).length = ns.sum := by rw [List.length_drop]; omega
    rw [mapChunks, List.getElem?_append, List.length_mapIdx, first, chunkOffset]
    split
    · next inside => rw [List.getElem?_mapIdx, List.getElem?_take_of_lt inside]
    · next outside =>
      rw [getElem?_mapChunks f ns _ rest, List.getElem?_drop, Nat.add_sub_cancel' (by omega)]

/-- A chunkwise transformation that another chunking is to undo. -/
theorem mapChunks_mapChunks_eq_iff (f g : Nat → α → α) {ns ms : List Nat} (hn : l.length = ns.sum)
    (hm : l.length = ms.sum) : mapChunks g ms (mapChunks f ns l) = l ↔
      ∀ i a, l[i]? = some a → g (chunkOffset ms i) (f (chunkOffset ns i) a) = a := by
  have hm' : (mapChunks f ns l).length = ms.sum := (length_mapChunks f ns l hn).trans hm
  have at_index : ∀ i, (mapChunks g ms (mapChunks f ns l))[i]? =
      l[i]?.map fun a => g (chunkOffset ms i) (f (chunkOffset ns i) a) := fun i => by
    rw [getElem?_mapChunks g ms _ hm', getElem?_mapChunks f ns l hn, Option.map_map]
    rfl
  constructor
  · intro h i a here
    have := at_index i
    rw [h, here] at this
    exact (Option.some.inj this).symm
  · intro h
    refine List.ext_getElem? fun i => ?_
    rw [at_index]
    cases here : l[i]? with
    | none => rfl
    | some a => exact congrArg some (h i a here)

end SandboxTEE.Lib
