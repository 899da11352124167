import SandboxTEE.Lib.ByteMemory

/-! # Sequences of writes

Writes to pairwise apart ranges do not disturb each other: whatever their order, each range
reads back what was written to it, and nothing else changes.  `placeFrom` puts blocks one
behind the other.
-/

namespace SandboxTEE.Lib

structure Write (α : Type) where
  addr : Nat
  cells : List α

namespace Write

variable {α : Type} {mem : Nat → α} {v w : Write α} {ws ws' : List (Write α)}

def limit (w : Write α) : Nat := w.addr + w.cells.length

/-- The two ranges have no cell in common. -/
def Apart (v w : Write α) : Prop := v.limit ≤ w.addr ∨ w.limit ≤ v.addr

instance : Decidable (v.Apart w) := inferInstanceAs (Decidable (_ ∨ _))

/-- The range lies between two addresses. -/
def Within (lo hi : Nat) (w : Write α) : Prop := lo ≤ w.addr ∧ w.limit ≤ hi

theorem Apart.symm (apart : v.Apart w) : w.Apart v := Or.symm apart

theorem Within.apart {lo mid hi : Nat} (low : v.Within lo mid) (high : w.Within mid hi) :
    v.Apart w := Or.inl (Nat.le_trans low.2 high.1)

theorem Within.mono {lo lo' hi hi' : Nat} (within : w.Within lo hi) (le : lo' ≤ lo)
    (le' : hi ≤ hi') : w.Within lo' hi' :=
  ⟨Nat.le_trans le within.1, Nat.le_trans within.2 le'⟩

/-- The memory after the writes. -/
def applyAll (mem : Nat → α) (ws : List (Write α)) : Nat → α :=
  ws.foldl (fun mem w => store mem w.addr w.cells) mem

theorem applyAll_of_outside {p : Nat} (outside : ∀ w ∈ ws, p < w.addr ∨ w.limit ≤ p) :
    applyAll mem ws p = mem p := by
  induction ws generalizing mem with
  | nil => rfl
  | cons w ws ih =>
    change applyAll (store mem w.addr w.cells) ws p = mem p
    rw [ih fun v hv => outside v (List.mem_cons_of_mem w hv)]
    exact store_of_outside (outside w List.mem_cons_self)

/-- Each range reads back what was written to it. -/
theorem bytesAt_applyAll (apart : ws.Pairwise Apart) (member : w ∈ ws) :
    bytesAt (applyAll mem ws) w.addr w.cells.length = w.cells := by
  induction ws generalizing mem with
  | nil => cases member
  | cons v ws ih =>
    obtain ⟨ahead, apart⟩ := List.pairwise_cons.mp apart
    change bytesAt (applyAll (store mem v.addr v.cells) ws) w.addr w.cells.length = w.cells
    cases List.mem_cons.mp member with
    | inl first =>
      -- the later writes leave the range alone
      subst first
      calc bytesAt (applyAll (store mem w.addr w.cells) ws) w.addr w.cells.length
        _ = bytesAt (store mem w.addr w.cells) w.addr w.cells.length := by
          refine bytesAt_congr fun i inside => applyAll_of_outside fun u hu => ?_
          have := ahead u hu
          simp only [Apart, limit] at *
          omega
        _ = w.cells := bytesAt_store
    | inr later => exact ih apart later

theorem pairwise_perm (apart : ws.Pairwise Apart) (perm : ws.Perm ws') : ws'.Pairwise Apart :=
  (perm.pairwise_iff Apart.symm).mp apart

/-! ## Blocks one behind the other -/

def placeFrom (addr : Nat) : List (List α) → List (Write α)
  | [] => []
  | block :: blocks => ⟨addr, block⟩ :: placeFrom (addr + block.length) blocks

variable {addr : Nat} {blocks blocks' : List (List α)}

theorem placeFrom_append : placeFrom addr (blocks ++ blocks') =
    placeFrom addr blocks ++ placeFrom (addr + blocks.flatten.length) blocks' := by
  induction blocks generalizing addr with
  | nil => rfl
  | cons block blocks ih =>
    rw [List.cons_append, placeFrom, ih, placeFrom, List.flatten_cons, List.length_append,
      Nat.add_assoc]
    rfl

theorem applyAll_placeFrom : applyAll mem (placeFrom addr blocks) = store mem addr blocks.flatten := by
  induction blocks generalizing addr mem with
  | nil => exact store_nil.symm
  | cons block blocks ih =>
    change applyAll (store mem addr block) (placeFrom (addr + block.length) blocks) = _
    rw [ih, store_append, List.flatten_cons]

theorem within_placeFrom (member : w ∈ placeFrom addr blocks) :
    w.Within addr (addr + blocks.flatten.length) := by
  induction blocks generalizing addr with
  | nil => cases member
  | cons block blocks ih =>
    rw [List.flatten_cons, List.length_append]
    cases List.mem_cons.mp member with
    | inl first =>
      subst first
      exact ⟨Nat.le_refl _, by simp only [limit]; omega⟩
    | inr later => exact (ih later).mono (by omega) (by omega)

theorem apart_placeFrom : (placeFrom addr blocks).Pairwise Apart := by
  induction blocks generalizing addr with
  | nil => exact List.Pairwise.nil
  | cons block blocks ih =>
    exact List.pairwise_cons.mpr ⟨fun w hw => Or.inl (within_placeFrom hw).1, ih⟩

/-- The block of an index, at the address the blocks in front of it lead to. -/
theorem mem_placeFrom {i : Nat} {block : List α} (at_i : blocks[i]? = some block) :
    ⟨addr + (blocks.take i).flatten.length, block⟩ ∈ placeFrom addr blocks := by
  induction blocks generalizing addr i with
  | nil => cases at_i
  | cons first blocks ih =>
    cases i with
    | zero =>
      cases at_i
      exact List.mem_cons_self
    | succ i =>
      refine List.mem_cons_of_mem _ ?_
      have := @ih (addr + first.length) i (by simpa using at_i)
      rwa [Nat.add_assoc, ← List.length_append, ← List.flatten_cons, ← List.take_succ_cons] at this

/-- Two sequences of blocks, the second behind the first. -/
theorem apart_placeFrom_append {mid : Nat} (behind : addr + blocks.flatten.length ≤ mid) :
    (placeFrom addr blocks ++ placeFrom mid blocks').Pairwise Apart := by
  refine List.pairwise_append.mpr ⟨apart_placeFrom, apart_placeFrom, fun v hv w hw => ?_⟩
  exact Or.inl (Nat.le_trans (within_placeFrom hv).2 (Nat.le_trans behind (within_placeFrom hw).1))

end Write

end SandboxTEE.Lib
