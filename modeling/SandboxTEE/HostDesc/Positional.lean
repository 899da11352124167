import SandboxTEE.HostDesc.FileHost

/-! # The positional operations against a seek

`NaClHostDescPRead` and `NaClHostDescPWrite` go past the cipher, and the offset of the latter
crosses the boundary in a field of 32 bits.
-/

namespace SandboxTEE.HostDesc

open SandboxTEE.Lib
open SandboxTEE.Runtime
open SandboxTEE.Stdlib

/-- The count and the bytes that a reading operation hands out. -/
def countAndBytes (op : HostTree (Int × List Byte)) : HostTree (Int × List Byte) := do
  let got ← op
  pure (got.1, got.2.take got.1.toNat)

def seekAndRead (errno : Nat) (k : KeyedDesc) (len : Nat) (offset : Int) :
    HostTree (Int × List Byte) := do
  let _ ← naClHostDescSeek errno k.desc offset 0
  naClHostDescRead errno k.desc len

def seekAndWrite (errno : Nat) (k : KeyedDesc) (buf : List Byte) (offset : Int) :
    HostTree Int := do
  let _ ← naClHostDescSeek errno k.desc offset 0
  naClHostDescWrite errno k.desc buf

/-- The cipher leaves exactly the inputs alone whose keystream is zero. -/
theorem xorStream_eq_self_iff (stream : Nat → Byte) (input : List Byte) :
    input = xorStream stream input ↔ ∀ i < input.length, stream i = 0 := by
  have at_index : ∀ i (inside : i < input.length),
      (xorStream stream input)[i]? = some (input[i] ^^^ stream i) := fun i inside => by
    rw [xorStream, List.getElem?_mapIdx, List.getElem?_eq_getElem inside]
    rfl
  constructor
  · intro same i inside
    have here := at_index i inside
    rw [← same, List.getElem?_eq_getElem inside, Option.some.injEq] at here
    exact (UInt8.xor_right_inj _).mp (here.symm.trans UInt8.xor_zero.symm)
  · intro zero
    refine List.ext_getElem? fun i => ?_
    by_cases inside : i < input.length
    · rw [at_index i inside, zero i inside, UInt8.xor_zero, List.getElem?_eq_getElem inside]
    · rw [List.getElem?_eq_none (by omega), List.getElem?_eq_none (by simp; omega)]

variable (ks : Keystream) (heap : FileState → Nat → List Byte)

theorem run_seekAndRead (k : KeyedDesc) (errno len off : Nat) (s : FileState) :
    (seekAndRead errno k len off).run (serveFiles ks heap) s =
      (naClHostDescRead errno k.desc len).run (serveFiles ks heap) (s.moveTo k.desc.d off) := by
  obtain ⟨result, sought⟩ := run_seekTo ks heap k errno off s
  rw [seekAndRead, CallTree.run_bind_of_some sought]

variable {off : Nat} {buf : List Byte}

theorem run_seekAndWrite (k : KeyedDesc) (errno : Nat) (writable : k.writable)
    (small : buf.length < 2 ^ 31) (s : FileState) (hostMode : (s.opened k.desc.d).append = false) :
    ((seekAndWrite errno k buf off).run (serveFiles ks heap) s).2.contents =
      (s.store k.desc.d off (xorStream (ks k.key k.iv) buf)).contents := by
  obtain ⟨result, sought⟩ := run_seekTo ks heap k errno off s
  have pos : (s.moveTo k.desc.d off).writePos k.desc.d = off := by
    rw [FileState.writePos, FileState.append_moveTo, hostMode, FileState.pos_moveTo]
    rfl
  rw [seekAndWrite, CallTree.run_bind_of_some sought, run_write ks heap k errno writable small,
    FileState.afterWrite, pos, FileState.contents_moveTo, FileState.store, FileState.store,
    FileState.bytes_moveTo, FileState.file_moveTo]
  rfl

/-- When the two ways to read give the same count and bytes. -/
theorem pread_eq_seekAndRead_iff (k : KeyedDesc) (errno : Nat) {len : Nat} (small : len < 2 ^ 31)
    (offset : off < 2 ^ 63) (s : FileState) :
    ((countAndBytes (naClHostDescPRead errno k.desc len off)).run (serveFiles ks heap) s).1 =
        ((countAndBytes (seekAndRead errno k len off)).run (serveFiles ks heap) s).1 ↔
      ¬ k.readable ∨ ∀ i < min len ((s.bytes k.desc.d).length - off), ks k.key k.iv i = 0 := by
  by_cases readable : k.readable
  · have pread := run_pread ks heap k errno readable small offset s
    obtain ⟨data, read, plain⟩ := run_read ks heap k errno readable small
      (s.moveTo k.desc.d off)
    have ahead : (s.moveTo k.desc.d off).ahead k.desc.d len = readAt (s.bytes k.desc.d) off len := by
      rw [FileState.ahead, FileState.bytes_moveTo, FileState.pos_moveTo]
    rw [ahead, ← run_seekAndRead ks heap k errno len off s] at read
    rw [ahead] at plain
    rw [countAndBytes, countAndBytes, CallTree.run_bind_of_some pread,
      CallTree.run_bind_of_some read]
    simp only [CallTree.run_pure, Option.some.injEq, Prod.mk.injEq, true_and, Int.toNat_natCast,
      List.take_length, plain, not_not_intro readable, false_or]
    rw [xorStream_eq_self_iff, length_readAt]
  · have denied : naClHostDescPRead errno k.desc len off = pure (-(naClAbiEBADF : Int), []) := by
      rw [naClHostDescPRead, k.checkValidity, CallTree.pure_bind_eq, if_pos (not_not.mp readable)]
    have denied' : (seekAndRead errno k len off).run (serveFiles ks heap) s =
        (some (-(naClAbiEBADF : Int), []), s.moveTo k.desc.d off) := by
      rw [run_seekAndRead, k.read_eq, if_neg readable, CallTree.run_pure]
    refine iff_of_true ?_ (.inl readable)
    rw [countAndBytes, countAndBytes, denied, CallTree.run_bind_of_some denied']
    rfl

/-- When the two ways to write leave the same bytes in the file. -/
theorem pwrite_eq_seekAndWrite_iff (k : KeyedDesc) (errno : Nat)
    (mode : k.desc.flags &&& oAPPEND = 0) (small : buf.length < 2 ^ 31) (s : FileState)
    (hostMode : (s.opened k.desc.d).append = false) :
    ((naClHostDescPWrite errno k.desc buf off).run (serveFiles ks heap) s).2.contents =
        ((seekAndWrite errno k buf off).run (serveFiles ks heap) s).2.contents ↔
      ¬ k.writable ∨ buf = [] ∨ (off < 2 ^ 32 ∧ ∀ i < buf.length, ks k.key k.iv i = 0) ∨
      (2 ^ 32 ≤ off ∧ off + buf.length ≤ (s.bytes k.desc.d).length ∧
        readAt (s.bytes k.desc.d) (off % 2 ^ 32) buf.length = buf ∧
        readAt (s.bytes k.desc.d) off buf.length = xorStream (ks k.key k.iv) buf) := by
  obtain ⟨result, sought⟩ := run_seekTo ks heap k errno off s
  by_cases writable : k.writable
  · rw [run_pwrite ks heap k errno writable mode hostMode small,
      run_seekAndWrite ks heap k errno writable small s hostMode, FileState.contents_store_inj]
    simp only [writable, not_true_eq_false, false_or]
    by_cases empty : buf = []
    · exact iff_of_true (by rw [empty]; rfl) (.inl empty)
    have nonempty : xorStream (ks k.key k.iv) buf ≠ [] :=
      List.ne_nil_of_length_pos (by simpa [List.length_pos_iff] using empty)
    by_cases low : off < 2 ^ 32
    · rw [Nat.mod_eq_of_lt low, writeAt_inj _ _ _ (length_xorStream _ _).symm,
        xorStream_eq_self_iff]
      simp only [empty, low, Nat.not_le.mpr low, false_or, true_and, false_and, or_false]
    · rw [writeAt_eq_writeAt_iff 0 (length_xorStream _ _).symm nonempty (by omega),
        length_xorStream]
      simp only [empty, low, Nat.not_lt.mp low, false_or, true_and, false_and]
  · have denied : naClHostDescPWrite errno k.desc buf off = pure (-(naClAbiEBADF : Int)) := by
      rw [naClHostDescPWrite, k.checkValidity, CallTree.pure_bind_eq,
        if_pos (not_not.mp writable)]
    refine iff_of_true ?_ (.inl writable)
    rw [denied, seekAndWrite, k.write_eq, if_neg writable, CallTree.run_bind_of_some sought]
    rfl

end SandboxTEE.HostDesc
