import SandboxTEE.HostDir.Model

/-! # One record from buffer to buffer

The buffer of the enclave holds records in the layout of the host, the buffer of the user fills with
records in the layout of the ABI.  `NaClCopyDirent` takes the first of the one and puts it at the
end of the other, if the name is not one of the longest.
-/

namespace SandboxTEE.HostDir

open SandboxTEE.Lib
open SandboxTEE.Runtime (naClAbiEINVAL)

/-! ## Strings -/

theorem cstringAt_of_block {mem : Memory} {a limit : Nat} {s : List Byte} (noNul : 0 ∉ s)
    (block : bytesAt mem a s.length = s) (nul : mem (a + s.length) = 0)
    (inside : s.length < limit) : cstringAt mem limit a = some s := by
  induction s generalizing a limit with
  | nil =>
    cases limit with
    | zero => cases inside
    | succ limit => exact if_pos nul
  | cons b s ih =>
    cases limit with
    | zero => cases inside
    | succ limit =>
      have split : bytesAt mem a ([b] ++ s).length = [b] ++ s := block
      obtain ⟨head, rest⟩ := bytesAt_eq_append.mp split
      have first : mem a = b := List.head_eq_of_cons_eq head
      have nonzero : mem a ≠ 0 := fun zero => noNul (first ▸ zero ▸ List.mem_cons_self)
      rw [List.length_cons, ← Nat.add_assoc, Nat.add_right_comm] at nul
      have later := ih (fun member => noNul (List.mem_cons_of_mem b member)) rest nul
        (Nat.lt_of_succ_lt_succ inside)
      rw [List.length_singleton] at later
      rw [cstringAt, if_neg nonzero, later, first]
      rfl

/-! ## The two layouts -/

namespace DirEntry

variable (e : DirEntry)

/-- What the user is to read. -/
def toNaCl : NaClDirent := ⟨e.ino, e.off, e.name⟩

def size : Nat := adjustedSize e.name.length

/-- The record of the ABI, without what pads it. -/
def record : List Byte :=
  leBytes64 e.ino ++ leBytes64 e.off ++ leBytes 2 e.size ++ e.name ++ [0]

@[simp] theorem length_bytes : e.bytes.length = e.reclen := by
  simp only [bytes, reclen, List.length_append, length_leBytes64, length_leBytes, List.length_cons,
    List.length_nil]
  omega

@[simp] theorem length_record : e.record.length = 18 + e.name.length + 1 := by
  simp only [record, List.length_append, length_leBytes64, length_leBytes, List.length_cons,
    List.length_nil]

theorem record_inside : e.record.length ≤ e.size := by
  rw [length_record, size, adjustedSize]
  omega

theorem reclen_pos : 0 < e.reclen := by
  rw [reclen]
  omega

/-- The record length fits its field, and any record fits the buffer. -/
theorem reclen_lt : e.reclen < 4096 := by
  have := e.fits
  have := e.aligns
  rw [nameMax] at *
  rw [reclen]
  omega

theorem size_pos : 0 < e.size := by
  rw [size, adjustedSize]
  omega

theorem size_lt : e.size < 4096 := by
  have := e.fits
  rw [nameMax] at this
  rw [size, adjustedSize]
  omega

theorem size_aligned : e.size % 8 = 0 := Nat.mul_mod_left _ 8

end DirEntry

def hostLayout : RecordLayout DirEntry Byte :=
  .ofEncoding DirEntry.bytes (fun e => e.bytes.length) fun _ => Nat.le_refl _

def userLayout : RecordLayout DirEntry Byte :=
  .ofEncoding DirEntry.record DirEntry.size DirEntry.record_inside

theorem hostLayout_size (e : DirEntry) : hostLayout.size e = e.reclen := e.length_bytes

/-- The fields of a record in the host's layout. -/
structure HostRecord (mem : Memory) (a : Nat) (e : DirEntry) : Prop where
  ino : bytesAt mem a 8 = leBytes64 e.ino
  off : bytesAt mem (a + 8) 8 = leBytes64 e.off
  reclen : bytesAt mem (a + 16) 2 = leBytes 2 e.reclen
  name : bytesAt mem (a + 19) e.name.length = e.name
  nul : mem (a + 19 + e.name.length) = 0

theorem hostRecord_of_holds {mem : Memory} {a : Nat} {e : DirEntry}
    (holds : hostLayout.Holds mem a e) : HostRecord mem a e := by
  change bytesAt mem a e.bytes.length = e.bytes at holds
  simp only [DirEntry.bytes, bytesAt_eq_append] at holds
  simp only [List.length_append, length_leBytes64, length_leBytes, List.length_singleton,
    ← Nat.add_assoc] at holds
  obtain ⟨⟨⟨⟨⟨ino, off⟩, reclen⟩, _⟩, name⟩, rest⟩ := holds
  have split : bytesAt mem (a + 8 + 8 + 2 + 1 + e.name.length) ([0] ++ e.pad).length = [0] ++ e.pad :=
    rest
  exact ⟨ino, off, reclen, name, List.head_eq_of_cons_eq (bytesAt_eq_append.mp split).1⟩

/-! ## The buffer of the enclave -/

/-- The records `es` are in the buffer and have not been taken out. -/
structure Buffered (d : NaClHostDir) (es : List DirEntry) : Prop where
  holds : hostLayout.HoldsAll d.direntBuf d.curByte es
  filled : d.nbytes = d.curByte + hostLayout.sizes es
  bounded : d.nbytes ≤ direntBufBytes

namespace Buffered

variable {d : NaClHostDir} {e : DirEntry} {es : List DirEntry}

theorem sizes_cons : hostLayout.sizes (e :: es) = e.reclen + hostLayout.sizes es := by
  rw [RecordLayout.sizes_cons, hostLayout_size]

theorem curByte_eq (buffered : Buffered d []) : d.curByte = d.nbytes := buffered.filled.symm

theorem curByte_lt (buffered : Buffered d (e :: es)) : d.curByte + e.reclen ≤ d.nbytes := by
  have filled := buffered.filled
  rw [sizes_cons] at filled
  omega

theorem advance (buffered : Buffered d (e :: es)) :
    Buffered { d with curByte := d.curByte + e.reclen } es where
  holds := by
    have holds := buffered.holds.2
    rwa [hostLayout_size] at holds
  filled := by
    have filled := buffered.filled
    rw [sizes_cons] at filled
    exact filled.trans (Nat.add_assoc ..).symm
  bounded := buffered.bounded

end Buffered

/-- The buffer after a batch has been copied into it. -/
def NaClHostDir.fill (d : NaClHostDir) (batch : List DirEntry) : NaClHostDir :=
  { d with
    curByte := 0
    nbytes := (batch.flatMap DirEntry.bytes).length
    direntBuf := store d.direntBuf 0 (batch.flatMap DirEntry.bytes) }

theorem buffered_fill {d : NaClHostDir} {batch : List DirEntry}
    (bounded : (batch.flatMap DirEntry.bytes).length ≤ direntBufBytes) :
    Buffered (d.fill batch) batch where
  holds := by
    refine RecordLayout.holdsAll_ofEncoding ?_
    exact @bytesAt_store _ d.direntBuf 0 (batch.flatMap DirEntry.bytes)
  filled := by
    rw [NaClHostDir.fill, Nat.zero_add]
    exact RecordLayout.sizes_ofEncoding.symm
  bounded := bounded

/-! ## `NaClCopyDirent` -/

theorem check_bind {p : Prop} [Decidable p] (holds : p) {α : Type} (f : Unit → DirTree α) :
    (check p >>= f) = f () := by
  rw [check, if_pos holds]
  rfl

section

variable {d : NaClHostDir} {mem : Memory} {buf len : Nat} {e : DirEntry} {es : List DirEntry}

theorem naClCopyDirent_none (aligned : buf % 8 = 0) (buffered : Buffered d []) :
    naClCopyDirent d mem buf len = pure (0, d, mem) := by
  rw [naClCopyDirent, check_bind aligned, if_pos buffered.curByte_eq]

theorem naClCopyDirent_read (aligned : buf % 8 = 0) (buffered : Buffered d (e :: es)) :
    naClCopyDirent d mem buf len =
      if len < e.size then pure (-(naClAbiEINVAL : Int), d, mem)
      else pure (e.size, { d with curByte := d.curByte + e.reclen },
        writeDirent d.direntBuf d.curByte e.name.length mem buf) := by
  have record := hostRecord_of_holds buffered.holds.1
  have inside := buffered.curByte_lt
  have bounded := buffered.bounded
  have positive := e.reclen_pos
  have reclen : leValue (bytesAt d.direntBuf (d.curByte + 16) 2) = e.reclen := by
    have := e.reclen_lt
    rw [record.reclen, leValue_leBytes, Nat.mod_eq_of_lt (by omega)]
  have name : cstringAt d.direntBuf (direntBufBytes - (d.curByte + 19)) (d.curByte + 19) =
      some e.name := by
    refine cstringAt_of_block e.noNul record.name record.nul ?_
    rw [DirEntry.reclen] at inside
    omega
  rw [naClCopyDirent, check_bind aligned, if_neg (by omega)]
  dsimp only
  rw [check_bind (by omega), reclen, check_bind (by omega), name]
  rfl

theorem store_fields {ino off reclen name : List Byte} (inoLength : ino.length = 8)
    (offLength : off.length = 8) (reclenLength : reclen.length = 2) :
    store mem buf (ino ++ off ++ reclen ++ name) =
      store (store (store (store mem buf ino) (buf + 8) off) (buf + 16) reclen) (buf + 18) name := by
  rw [← store_append, ← store_append, ← store_append]
  simp only [List.length_append, inoLength, offLength, reclenLength]

/-- The four copies are one, unless the name has the greatest length. -/
theorem writeDirent_eq (buffered : Buffered d (e :: es)) (short : e.name.length < naClAbiMaxnamlen) :
    writeDirent d.direntBuf d.curByte e.name.length mem buf = store mem buf e.record := by
  have record := hostRecord_of_holds buffered.holds.1
  have named : 0 < e.name.length := List.length_pos_iff.mpr e.named
  have name : bytesAt d.direntBuf (d.curByte + 19) (e.name.length + 1) = e.name ++ [0] := by
    rw [bytesAt_add, record.name]
    exact congrArg (fun b => e.name ++ [b]) record.nul
  rw [writeDirent, if_pos ⟨named, short⟩, record.ino, record.off, name, DirEntry.record,
    List.append_assoc _ e.name]
  exact (store_fields (length_leBytes64 _) (length_leBytes64 _) (length_leBytes ..)).symm

theorem holds_writeDirent (buffered : Buffered d (e :: es))
    (short : e.name.length < naClAbiMaxnamlen) :
    userLayout.Holds (writeDirent d.direntBuf d.curByte e.name.length mem buf) buf e := by
  rw [writeDirent_eq buffered short]
  exact bytesAt_store

/-- Nothing in front of the record or behind it is written. -/
theorem writeDirent_of_outside {direntBuf : Memory} {ldp slen p : Nat}
    (outside : p < buf ∨ buf + adjustedSize slen ≤ p) :
    writeDirent direntBuf ldp slen mem buf p = mem p := by
  have size : 18 + slen + 1 ≤ adjustedSize slen := by
    rw [adjustedSize]
    omega
  have fields : store (store (store mem buf (bytesAt direntBuf ldp 8)) (buf + 8)
      (bytesAt direntBuf (ldp + 8) 8)) (buf + 16) (leBytes 2 (adjustedSize slen)) p = mem p := by
    rw [store_of_outside, store_of_outside, store_of_outside]
    all_goals
      simp only [length_bytesAt, length_leBytes]
      omega
  rw [writeDirent]
  split
  · rw [store_of_outside, fields]
    rw [length_bytesAt]
    omega
  · exact fields

end

end SandboxTEE.HostDir
