import Mathlib.Algebra.GroupWithZero.Nat
import SandboxTEE.Lib.ByteMemory

/-! # Records laid out in memory

A layout says how many cells a record takes up and when a memory holds it at an address.  A
sequence is held when each record stands where the one in front of it ends (`HoldsAll`), so a
buffer can be taken apart from the front and filled at the end.
-/

namespace SandboxTEE.Lib

structure RecordLayout (ρ α : Type) where
  size : ρ → Nat
  Holds : (Nat → α) → Nat → ρ → Prop
  /-- Only the cells of the record count. -/
  holds_congr : ∀ {mem mem' : Nat → α} {addr : Nat} {r : ρ},
    (∀ i < size r, mem (addr + i) = mem' (addr + i)) → Holds mem addr r → Holds mem' addr r

namespace RecordLayout

variable {ρ α : Type} (L : RecordLayout ρ α) {mem mem' : Nat → α} {addr : Nat} {r : ρ}
  {rs rs' : List ρ}

def sizes (rs : List ρ) : Nat := (rs.map L.size).sum

@[simp] theorem sizes_cons : L.sizes (r :: rs) = L.size r + L.sizes rs := by
  rw [sizes, List.map_cons, List.sum_cons, sizes]

def HoldsAll (mem : Nat → α) : Nat → List ρ → Prop
  | _, [] => True
  | addr, r :: rs => L.Holds mem addr r ∧ HoldsAll mem (addr + L.size r) rs

variable {L}

/-! ## Encodings -/

/-- The layout of an encoding, in cells that may be more than it fills. -/
def ofEncoding (encode : ρ → List α) (size : ρ → Nat)
    (inside : ∀ r, (encode r).length ≤ size r) : RecordLayout ρ α where
  size := size
  Holds mem addr r := bytesAt mem addr (encode r).length = encode r
  holds_congr := by
    intro mem mem' addr r agree holds
    rw [← holds, length_bytesAt]
    exact (bytesAt_congr fun i below => agree i (Nat.lt_of_lt_of_le below (inside r))).symm

variable {encode : ρ → List α}

theorem holdsAll_ofEncoding
    (block : bytesAt mem addr (rs.flatMap encode).length = rs.flatMap encode) :
    (ofEncoding encode (fun r => (encode r).length) fun _ => Nat.le_refl _).HoldsAll mem addr
      rs := by
  induction rs generalizing addr with
  | nil => trivial
  | cons r rs ih =>
    rw [List.flatMap_cons, List.length_append, bytesAt_add] at block
    obtain ⟨first, rest⟩ := List.append_inj block length_bytesAt
    exact ⟨first, ih rest⟩

theorem sizes_ofEncoding :
    (ofEncoding encode (fun r => (encode r).length) fun _ => Nat.le_refl _).sizes rs =
      (rs.flatMap encode).length := by
  rw [List.length_flatMap]
  rfl

end RecordLayout

end SandboxTEE.Lib
