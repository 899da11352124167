import SandboxTEE.Imc.Model
import SandboxTEE.Lib.Records

/-! # The records of a message

`NaClDesc.wire` is the record that an internalizer makes a descriptor of.  Each internalizer
either makes the descriptor whose record is in front and goes past it, or there is no record of
its kind in front (`internalize_spec`).
-/

namespace SandboxTEE.Imc

open SandboxTEE.Lib

/-! ## Records -/

def Metadata.wire (m : Metadata) : Bytes := m.type.bytes ++ (leBytes 4 m.bytes.length ++ m.bytes)

def DescBase.wire (base : DescBase) : Bytes :=
  base.flags.bytes ++ (base.metadata.elim [] Metadata.wire)

/-- The place of the internalizer in the table. -/
def NaClDesc.tag : NaClDesc → Nat
  | .invalid => 0
  | .io .. => 2
  | .connCapFd .. => 4
  | .imcShm .. => 7
  | .syncSocket .. => 12
  | .xferableDataDesc .. => 13
  | .null => 17

/-- What follows the tag. -/
def NaClDesc.body : NaClDesc → Bytes
  | .invalid | .null => []
  | .io base _ flags => base.wire ++ flags.1.bytes
  | .imcShm base _ size => base.wire ++ size.1.bytes
  | .connCapFd base _ | .syncSocket base _ | .xferableDataDesc base _ => base.wire

def NaClDesc.wire (d : NaClDesc) : Bytes := BitVec.ofNat 8 d.tag :: d.body

variable {bs bs' : Bytes}

theorem word_append_inj {n : Nat} {v w : Word n} (same : v.bytes ++ bs = w.bytes ++ bs') :
    v = w ∧ bs = bs' := by
  obtain ⟨front, behind⟩ := List.append_inj same (by simp)
  refine ⟨?_, behind⟩
  rw [← Word.ofBytes_bytes v, front, Word.ofBytes_bytes]

theorem Metadata.wire_append_inj {m m' : Metadata} (same : m.wire ++ bs = m'.wire ++ bs') :
    m = m' ∧ bs = bs' := by
  simp only [Metadata.wire, List.append_assoc] at same
  obtain ⟨type, same⟩ := word_append_inj same
  obtain ⟨length, same⟩ := leBytes_append_inj m.fits m'.fits same
  obtain ⟨bytes, behind⟩ := List.append_inj same length
  cases m
  cases m'
  cases type
  cases bytes
  exact ⟨rfl, behind⟩

variable {base base' : DescBase}

theorem DescBase.wire_append_inj (same : base.wire ++ bs = base'.wire ++ bs') :
    base = base' ∧ bs = bs' := by
  simp only [DescBase.wire, List.append_assoc] at same
  obtain ⟨flags, same⟩ := word_append_inj same
  obtain ⟨_, metadata, announced⟩ := base
  obtain ⟨_, metadata', announced'⟩ := base'
  cases flags
  -- The flags are the same, and they say whether metadata follows.
  cases metadata with
  | none =>
    cases metadata' with
    | none => exact ⟨rfl, same⟩
    | some m' => exact absurd (announced.trans announced'.symm) (by simp)
  | some m =>
    cases metadata' with
    | none => exact absurd (announced.trans announced'.symm) (by simp)
    | some m' =>
      obtain ⟨rfl, behind⟩ := Metadata.wire_append_inj same
      exact ⟨rfl, behind⟩

variable {hs' hs : List Handle}

theorem base_handle_inj {h h' : Handle} (same : base.wire ++ bs = base'.wire ++ bs')
    (beside : h :: hs = h' :: hs') : base = base' ∧ h = h' ∧ bs = bs' ∧ hs = hs' := by
  obtain ⟨base, behind⟩ := DescBase.wire_append_inj same
  obtain ⟨handle, left⟩ := List.cons.inj beside
  exact ⟨base, handle, behind, left⟩

theorem NaClDesc.body_append_inj {d d' : NaClDesc} (kind : d.tag = d'.tag)
    (same : d.body ++ bs = d'.body ++ bs') (beside : d.handles ++ hs = d'.handles ++ hs') :
    d = d' ∧ bs = bs' ∧ hs = hs' := by
  cases d with
  | invalid =>
    cases d' with
    | invalid => exact ⟨rfl, same, beside⟩
    | _ => cases kind
  | null =>
    cases d' with
    | null => exact ⟨rfl, same, beside⟩
    | _ => cases kind
  | io base h flags =>
    cases d' with
    | io base' h' flags' =>
      simp only [NaClDesc.body, List.append_assoc] at same
      obtain ⟨rfl, rfl, rest, left⟩ := base_handle_inj same beside
      obtain ⟨flags, behind⟩ := word_append_inj rest
      cases Subtype.ext flags
      exact ⟨rfl, behind, left⟩
    | _ => cases kind
  | imcShm base h size =>
    cases d' with
    | imcShm base' h' size' =>
      simp only [NaClDesc.body, List.append_assoc] at same
      obtain ⟨rfl, rfl, rest, left⟩ := base_handle_inj same beside
      obtain ⟨size, behind⟩ := word_append_inj rest
      cases Subtype.ext size
      exact ⟨rfl, behind, left⟩
    | _ => cases kind
  | connCapFd base h =>
    cases d' with
    | connCapFd base' h' =>
      obtain ⟨rfl, rfl, behind, left⟩ := base_handle_inj same beside
      exact ⟨rfl, behind, left⟩
    | _ => cases kind
  | syncSocket base h =>
    cases d' with
    | syncSocket base' h' =>
      obtain ⟨rfl, rfl, behind, left⟩ := base_handle_inj same beside
      exact ⟨rfl, behind, left⟩
    | _ => cases kind
  | xferableDataDesc base h =>
    cases d' with
    | xferableDataDesc base' h' =>
      obtain ⟨rfl, rfl, behind, left⟩ := base_handle_inj same beside
      exact ⟨rfl, behind, left⟩
    | _ => cases kind

theorem NaClDesc.tag_le (d : NaClDesc) : d.tag ≤ 17 := by cases d <;> simp [NaClDesc.tag]

theorem NaClDesc.toNat_tag (d : NaClDesc) : (BitVec.ofNat 8 d.tag).toNat = d.tag := by
  have := d.tag_le
  exact Nat.mod_eq_of_lt (by omega)

/-- The records of descriptors, with their handles beside them. -/
def records : RecordFormat NaClDesc (BitVec 8) Handle where
  symbols := NaClDesc.wire
  tokens := NaClDesc.handles
  selfDelimiting := by
    intro d d' bs bs' hs hs' same beside
    simp only [NaClDesc.wire, List.cons_append] at same
    obtain ⟨tag, same⟩ := List.cons.inj same
    have kind := congrArg BitVec.toNat tag
    rw [d.toNat_tag, d'.toNat_tag] at kind
    exact NaClDesc.body_append_inj kind same beside

end SandboxTEE.Imc
