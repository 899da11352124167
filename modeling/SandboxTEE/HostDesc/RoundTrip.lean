import SandboxTEE.HostDesc.FileHost

/-! # Writing a file and reading it back

Every call of `WriteFile` and of `ReadFile` sets the key anew, so the byte at index `i` is
encrypted with the keystream byte of its place in the write call and decrypted with that of
its place in the read call.
-/

namespace SandboxTEE.HostDesc

open SandboxTEE.Lib
open SandboxTEE.Stdlib

def writeAll (errno : Nat) (k : KeyedDesc) : List (List Byte) → HostTree Unit
  | [] => pure ()
  | w :: ws => do
    let _ ← naClHostDescWrite errno k.desc w
    writeAll errno k ws

/-- What the calls return, put together. -/
def readAll (errno : Nat) (k : KeyedDesc) : List Nat → HostTree (List Byte)
  | [] => pure []
  | n :: ns => do
    let got ← naClHostDescRead errno k.desc n
    let rest ← readAll errno k ns
    pure (got.2.take got.1.toNat ++ rest)

def roundTrip (errno : Nat) (k k' : KeyedDesc) (ws : List (List Byte)) (ns : List Nat) :
    HostTree (List Byte) := do
  writeAll errno k ws
  let _ ← naClHostDescSeek errno k'.desc 0 0
  readAll errno k' ns

variable (ks : Keystream) (heap : FileState → Nat → List Byte)

/-- The calls write one behind the other, each with the keystream from its start. -/
theorem run_writeAll (errno : Nat) (k : KeyedDesc) (writable : k.writable) :
    ∀ (ws : List (List Byte)) (s : FileState), (∀ w ∈ ws, w.length < 2 ^ 31) → ∃ s',
      (writeAll errno k ws).run (serveFiles ks heap) s = (some (), s') ∧
      (∀ fd, (s'.opened fd).file = (s.opened fd).file) ∧
      s'.bytes k.desc.d = writeAt 0 (s.bytes k.desc.d) (s.writePos k.desc.d)
        (ws.map (xorStream (ks k.key k.iv))).flatten
  | [], s, _ => ⟨s, rfl, fun _ => rfl, rfl⟩
  | w :: ws, s, small => by
    have ⟨first, others⟩ := List.forall_mem_cons.mp small
    obtain ⟨s', run, files, bytes⟩ := run_writeAll errno k writable ws
      (s.afterWrite k.desc.d (xorStream (ks k.key k.iv) w)) others
    refine ⟨s', ?_, fun fd => ?_, ?_⟩
    · rw [writeAll, CallTree.run_bind_of_some (run_write ks heap k errno writable first s), run]
    · rw [files, FileState.file_afterWrite]
    · rw [bytes, FileState.bytes_afterWrite, FileState.writePos_afterWrite, ← writeAt_append,
        List.map_cons, List.flatten_cons]

/-- While the file lasts, the calls read on from the position, each with the keystream from
    its start. -/
theorem run_readAll (errno : Nat) (k : KeyedDesc) (readable : k.readable) :
    ∀ (ns : List Nat) (s : FileState), (∀ n ∈ ns, n < 2 ^ 31) →
      (s.opened k.desc.d).pos + ns.sum ≤ (s.bytes k.desc.d).length →
      ((readAll errno k ns).run (serveFiles ks heap) s).1 =
        some (mapChunks (fun i b => b ^^^ ks k.key k.iv i) ns (s.ahead k.desc.d ns.sum))
  | [], _, _, _ => rfl
  | n :: ns, s, small, enough => by
    have ⟨first, others⟩ := List.forall_mem_cons.mp small
    rw [List.sum_cons] at enough
    obtain ⟨data, got, plain⟩ := run_read ks heap k errno readable first s
    have full : (s.ahead k.desc.d n).length = n := by
      rw [FileState.ahead, length_readAt]
      omega
    rw [full] at got plain
    generalize hs' : s.moveTo k.desc.d ((s.opened k.desc.d).pos + n) = s' at got
    have pos : (s'.opened k.desc.d).pos = (s.opened k.desc.d).pos + n := by
      rw [← hs', FileState.pos_moveTo]
    have bytes : s'.bytes k.desc.d = s.bytes k.desc.d := by rw [← hs', FileState.bytes_moveTo]
    have rest := run_readAll errno k readable ns s' others (by rw [pos, bytes]; omega)
    rw [readAll, CallTree.run_bind_of_some got, CallTree.run_bind]
    generalize (readAll errno k ns).run (serveFiles ks heap) s' = done at rest ⊢
    obtain ⟨result, s''⟩ := done
    dsimp only at rest
    rw [rest]
    refine congrArg some ?_
    rw [Int.toNat_natCast, plain, mapChunks, List.sum_cons]
    simp only [FileState.ahead, pos, bytes]
    rw [take_readAt_add, drop_readAt_add]
    rfl

/-- Decrypting with one keystream byte what another encrypted. -/
theorem xor_xor_eq_self_iff (b x y : Byte) : b ^^^ x ^^^ y = b ↔ x = y := by
  calc b ^^^ x ^^^ y = b ↔ b ^^^ (x ^^^ y) = b ^^^ 0 := by rw [UInt8.xor_assoc, UInt8.xor_zero]
    _ ↔ x ^^^ y = 0 := UInt8.xor_right_inj b
    _ ↔ x = y := UInt8.xor_eq_zero_iff

/-- The string comes back exactly if at every index the two places in the calls have the
    same keystream byte. -/
theorem roundTrip_iff (errno : Nat) (k k' : KeyedDesc) (sameKey : k'.key = k.key)
    (sameIv : k'.iv = k.iv) (writable : k.writable) (readable : k'.readable) (s : FileState)
    (sameFile : (s.opened k'.desc.d).file = (s.opened k.desc.d).file)
    (start : s.writePos k.desc.d = 0) (ws : List (List Byte)) (ns : List Nat)
    (smallWrites : ∀ w ∈ ws, w.length < 2 ^ 31) (smallReads : ∀ n ∈ ns, n < 2 ^ 31)
    (whole : ws.flatten.length = ns.sum) :
    ((roundTrip errno k k' ws ns).run (serveFiles ks heap) s).1 = some ws.flatten ↔
      ∀ i < ws.flatten.length, ks k.key k.iv (chunkOffset (ws.map List.length) i) =
        ks k.key k.iv (chunkOffset ns i) := by
  obtain ⟨s₁, written, files, bytes⟩ :=
    run_writeAll ks heap errno k writable ws s smallWrites
  obtain ⟨result, sought⟩ : ∃ result, (naClHostDescSeek errno k'.desc 0 0).run
      (serveFiles ks heap) s₁ = (some result, s₁.moveTo k'.desc.d 0) := run_seekTo ks heap k' errno 0 s₁
  have lengths : ws.flatten.length = (ws.map List.length).sum := List.length_flatten
  have stored : (ws.map (xorStream (ks k.key k.iv))).flatten =
      mapChunks (fun i b => b ^^^ ks k.key k.iv i) (ws.map List.length) ws.flatten :=
    (mapChunks_flatten _ ws).symm
  generalize hc : (ws.map (xorStream (ks k.key k.iv))).flatten = cipher at bytes stored
  have length : cipher.length = ns.sum := by
    rw [stored, length_mapChunks _ _ _ lengths, whole]
  have bytes' : (s₁.moveTo k'.desc.d 0).bytes k'.desc.d = writeAt 0 (s.bytes k.desc.d) 0 cipher := by
    rw [FileState.bytes_moveTo, ← start, ← bytes, FileState.bytes, files, sameFile, ← files]
    rfl
  have ahead : (s₁.moveTo k'.desc.d 0).ahead k'.desc.d ns.sum = cipher := by
    rw [FileState.ahead, FileState.pos_moveTo, bytes', ← length, readAt_writeAt]
  have enough : ((s₁.moveTo k'.desc.d 0).opened k'.desc.d).pos + ns.sum ≤
      ((s₁.moveTo k'.desc.d 0).bytes k'.desc.d).length := by
    have := congrArg List.length ahead
    rw [FileState.ahead, length_readAt, length] at this
    rw [FileState.pos_moveTo] at this ⊢
    omega
  have read := run_readAll ks heap errno k' readable ns _ smallReads enough
  rw [ahead, sameKey, sameIv] at read
  rw [roundTrip, CallTree.run_bind_of_some written,
    CallTree.run_bind_of_some sought, read, Option.some.injEq, stored,
    mapChunks_mapChunks_eq_iff _ _ lengths whole]
  constructor
  · intro h i inside
    exact (xor_xor_eq_self_iff _ _ _).mp (h i _ (List.getElem?_eq_getElem inside))
  · intro h i b here
    obtain ⟨inside, -⟩ := List.getElem?_eq_some_iff.mp here
    exact (xor_xor_eq_self_iff _ _ _).mpr (h i inside)

theorem roundTrip_iff_sameCalls :
    ((roundTrip 0 sampleDesc sampleDesc [[97, 98], [99]] [2, 1]).run
      (serveFiles sampleStream zeroHeap) (sampleState [])).1 = some [97, 98, 99] :=
  (roundTrip_iff sampleStream zeroHeap 0 sampleDesc sampleDesc rfl rfl (by decide) (by decide)
    (sampleState []) rfl rfl [[97, 98], [99]] [2, 1] (by decide) (by decide) rfl).mpr (by decide)

/-- Written in one call and read in two, the second byte is decrypted with the keystream byte
    of the first. -/
theorem roundTrip_splitRead :
    ((roundTrip 0 sampleDesc sampleDesc [[97, 98]] [1, 1]).run
      (serveFiles sampleStream zeroHeap) (sampleState [])).1 = some [97, 53] ∧
    ([97, 53] : List Byte) ≠ [97, 98] := by
  decide +kernel

end SandboxTEE.HostDesc
