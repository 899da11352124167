import SandboxTEE.HostDesc.Confidential
import SandboxTEE.HostDesc.AccessGate
import SandboxTEE.HostDesc.Requests

/-! # Keyed transfers and their failures

`ReadFile` copies the requested length out of its scratch buffer, whatever the host delivered.
`WriteFile` leaves on every failure but the one of the encryption.  Both are about any host and
any answers of the cipher.
-/

namespace SandboxTEE.HostDesc

open SandboxTEE.Lib (CallTree)
open SandboxTEE.Lib.CallTree (AllCalls logged run_bind run_bind_of_some)
open SandboxTEE.Runtime
open SandboxTEE.Stdlib

/-- A buffer that is allocated or filled by the cipher has the length asked for. -/
structure FullBuffers {σ : Type} (serve : σ → Call → Reply × σ) : Prop where
  heap : ∀ s size, (serve s (.malloc size)).1.data.length = size
  cipher : ∀ s key iv input,
    (serve s (.wcAesCtrEncrypt key iv input)).1.data.length = input.length

section Wrappers

variable {σ : Type} {serve : σ → Call → Reply × σ} {s s' : σ} {reply : Reply}

theorem withUntrustedBuf_returns {P : Reply → Prop} {limit count : Nat} {body : HostTree Reply}
    (refused : ∀ ret < 0, P { ret := ret })
    (inner : ∀ s reply s', body.run serve s = (some reply, s') → P reply)
    (run : (withUntrustedBuf limit count body).run serve s = (some reply, s')) : P reply := by
  rw [withUntrustedBuf] at run
  split at run
  · rw [sgxOcall, CallTree.perform_bind, CallTree.run_call] at run
    split at run
    · next negative =>
      cases run
      exact refused _ negative
    · rw [run_bind] at run
      split at run
      · next reply₁ s₁ ran =>
        split at run
        · cases run
          exact inner _ _ _ ran
        · cases run
          exact inner _ _ _ ran
      · cases run
  · exact inner _ _ _ run

/-- The wrapper reports no more than was asked for, and hands out no more. -/
theorem ocallRead_le {fd : Int} {len : Nat} (run : (ocallRead fd len).run serve s = (some reply, s')) :
    reply.ret ≤ len ∧ reply.data.length ≤ len := by
  have le : len % 2 ^ 32 ≤ len := Nat.mod_le _ _
  rw [ocallRead] at run
  refine @withUntrustedBuf_returns _ serve _ _ _ (fun reply => reply.ret ≤ len ∧ reply.data.length ≤ len)
    _ _ _ (fun ret negative => ⟨by dsimp only; omega, Nat.zero_le _⟩) (fun s reply s' ran => ?_) run
  rw [sgxOcall, CallTree.perform_bind, CallTree.run_call] at ran
  split at ran
  · split at ran
    · cases ran
      exact ⟨by dsimp only; omega, Nat.zero_le _⟩
    · cases ran
      refine ⟨by dsimp only; omega, ?_⟩
      rw [List.length_take]
      omega
  · cases ran
    exact ⟨by dsimp only; omega, Nat.zero_le _⟩

end Wrappers

/-! ## What a read leaves in the buffer -/

section Read

variable {σ : Type} {serve : σ → Call → Reply × σ} {s : σ} {k : KeyedDesc} {len errno : Nat}

/-- The caller's buffer, of which a read has overwritten the beginning. -/
def bufferAfter (old data : List Byte) : List Byte := data ++ old.drop data.length

/-- Whatever the buffer holds, only the bytes that are returned change. -/
def ReadFrames (serve : σ → Call → Reply × σ) (s : σ) (errno : Nat) (k : KeyedDesc)
    (len : Nat) : Prop :=
  ∀ old : List Byte, old.length = len → ∀ r data,
    ((naClHostDescRead errno k.desc len).run serve s).1 = some (r, data) →
      (bufferAfter old data).length = len ∧
        (bufferAfter old data).drop r.toNat = old.drop r.toNat

/-- The host delivers `count` bytes and the cipher accepts them. -/
def Delivers (serve : σ → Call → Reply × σ) (s : σ) (k : KeyedDesc) (len : Nat)
    (count : Int) : Prop :=
  let scratch := serve s (.malloc len)
  ∃ reply s', (ocallRead k.desc.d len).run serve (serve scratch.2 (.malloc len)).2 =
      (some reply, s') ∧
    reply.ret = count ∧ count ≠ -1 ∧
    (serve s' (.wcAesSetKey k.key k.iv)).1.ret = 0 ∧
    (serve (serve s' (.wcAesSetKey k.key k.iv)).2 (.wcAesCtrEncrypt k.key k.iv
      (reply.data ++ scratch.1.data.drop reply.data.length))).1.ret = 0

theorem Delivers.unique {count count' : Int} (delivers : Delivers serve s k len count)
    (delivers' : Delivers serve s k len count') : count' = count := by
  obtain ⟨reply, s', run, same, _⟩ := delivers
  obtain ⟨reply', s'', run', same', _⟩ := delivers'
  rw [run] at run'
  cases run'
  exact same'.symm.trans same

/-- Either the whole buffer is overwritten, or nothing of it. -/
theorem read_outcome (full : FullBuffers serve) :
    (∃ count data, k.readable ∧ Delivers serve s k len count ∧
      ((naClHostDescRead errno k.desc len).run serve s).1 = some (count, data) ∧
      data.length = len) ∨ ((k.readable → ∀ count, ¬ Delivers serve s k len count) ∧
      ∀ r data, ((naClHostDescRead errno k.desc len).run serve s).1 = some (r, data) →
        data = []) := by
  rw [k.read_eq]
  by_cases readable : k.readable
  · rw [if_pos readable, readFile, CallTree.perform_bind, CallTree.run_call,
      CallTree.perform_bind, CallTree.run_call, run_bind]
    obtain ⟨reply, s', run⟩ : ∃ reply s', (ocallRead k.desc.d len).run serve
        (serve (serve s (.malloc len)).2 (.malloc len)).2 = (reply, s') := ⟨_, _, rfl⟩
    cases reply with
    | none =>
      refine Or.inr ⟨fun _ count delivers => ?_, fun r data returned => ?_⟩
      · obtain ⟨reply, s', ran, _⟩ := delivers
        rw [run] at ran
        cases ran
      · rw [run] at returned
        cases returned
    | some reply =>
      have only {count : Int} (delivers : Delivers serve s k len count) :
          reply.ret = count ∧ count ≠ -1 ∧ (serve s' (.wcAesSetKey k.key k.iv)).1.ret = 0 ∧
            (serve (serve s' (.wcAesSetKey k.key k.iv)).2 (.wcAesCtrEncrypt k.key k.iv
              (reply.data ++ (serve s (.malloc len)).1.data.drop reply.data.length))).1.ret =
              0 := by
        obtain ⟨_, _, ran, rest⟩ := delivers
        rw [run] at ran
        cases ran
        exact rest
      rw [run]
      dsimp only
      by_cases failed : reply.ret = -1
      · rw [if_pos failed]
        refine Or.inr ⟨fun _ count delivers => (only delivers).2.1 ((only delivers).1 ▸ failed),
          fun r data returned => by cases returned; rfl⟩
      · rw [if_neg failed, CallTree.perform_bind, CallTree.run_call]
        by_cases keyed : (serve s' (.wcAesSetKey k.key k.iv)).1.ret = 0
        · rw [if_neg (not_not.mpr keyed), CallTree.perform_bind, CallTree.run_call]
          by_cases decrypted : (serve (serve s' (.wcAesSetKey k.key k.iv)).2 (.wcAesCtrEncrypt k.key
              k.iv (reply.data ++
                (serve s (.malloc len)).1.data.drop reply.data.length))).1.ret = 0
          · rw [if_neg (not_not.mpr decrypted)]
            refine Or.inl ⟨reply.ret, _, readable, ⟨reply, s', run, rfl, failed, keyed, decrypted⟩,
              rfl, ?_⟩
            rw [full.cipher, List.length_append, List.length_drop, full.heap]
            have := (ocallRead_le run).2
            omega
          · rw [if_pos decrypted]
            exact Or.inr ⟨fun _ count delivers => decrypted (only delivers).2.2.2,
              fun r data returned => by cases returned; rfl⟩
        · rw [if_pos keyed]
          exact Or.inr ⟨fun _ count delivers => keyed (only delivers).2.2.1,
            fun r data returned => by cases returned; rfl⟩
  · rw [if_neg readable]
    exact Or.inr ⟨fun readable' => absurd readable' readable,
      fun r data returned => by cases returned; rfl⟩

/-- A read keeps the rest of the buffer exactly when nothing is left over: the host delivers all
    that was asked for, or nothing is copied at all. -/
theorem naClHostDescRead_frames_iff {σ : Type} {serve : σ → Call → Reply × σ}
    (full : FullBuffers serve) (s : σ) (errno : Nat) (k : KeyedDesc) (len : Nat) :
    ReadFrames serve s errno k len ↔
      (k.readable → ∀ count, Delivers serve s k len count → count = len ∨ len = 0) := by
  cases @read_outcome _ serve s k len errno full with
  | inl copied =>
    obtain ⟨count, data, readable, delivers, returned, length⟩ := copied
    have le : count ≤ len := by
      obtain ⟨reply, s', run, rfl, _⟩ := delivers
      exact (ocallRead_le run).1
    constructor
    · intro frames _ count' delivers'
      rw [delivers.unique delivers']
      by_contra short
      -- a buffer that differs from what is copied at every place
      have same := (frames (data.map (· + 1)) (by rw [List.length_map, length]) count data
        returned).2
      have inside : count.toNat < data.length := by omega
      rw [bufferAfter, List.drop_eq_nil_of_le (Nat.le_of_eq (List.length_map _)),
        List.append_nil, ← List.map_drop, List.drop_eq_getElem_cons inside, List.map_cons] at same
      have byte := (List.cons.inj same).1
      have value := congrArg UInt8.toNat byte
      rw [UInt8.toNat_add, show (1 : UInt8).toNat = 1 from rfl] at value
      omega
    · intro whole old old_length r data' returned'
      rw [returned] at returned'
      cases returned'
      rw [bufferAfter, List.drop_eq_nil_of_le (by omega), List.append_nil]
      refine ⟨length, ?_⟩
      have none_left : len ≤ count.toNat := by
        have := whole readable count delivers
        omega
      rw [List.drop_eq_nil_of_le (by omega), List.drop_eq_nil_of_le (by omega)]
  | inr kept =>
    obtain ⟨none, nothing⟩ := kept
    refine ⟨fun _ readable count delivers => absurd delivers (none readable count), ?_⟩
    intro _ old length r data returned
    rw [nothing r data returned]
    exact ⟨length, rfl⟩

end Read

/-- Every call succeeds, the cipher does nothing, and the host delivers one byte. -/
def oneByteHost : Unit → Call → Reply × Unit
  | _, .malloc size => ({ ret := 0, data := List.replicate size 0 }, ())
  | _, .host (.read ..) => ({ ret := 1, data := [65] }, ())
  | _, .wcAesCtrEncrypt _ _ input => ({ ret := 0, data := input }, ())
  | _, _ => ({ ret := 0 }, ())

theorem fullBuffers_oneByteHost : FullBuffers oneByteHost :=
  ⟨fun _ _ => List.length_replicate, fun _ _ _ _ => rfl⟩

theorem naClHostDescRead_frames_iff_oneByte :
    ReadFrames oneByteHost () 0 sampleDesc 1 ↔
      (sampleDesc.readable → ∀ count, Delivers oneByteHost () sampleDesc 1 count →
        count = (1 : Nat) ∨ 1 = 0) :=
  naClHostDescRead_frames_iff fullBuffers_oneByteHost () 0 sampleDesc 1

/-- Of a request for two bytes one is delivered, and the second byte of the buffer changes. -/
theorem naClHostDescRead_not_frames : ¬ ReadFrames oneByteHost () 0 sampleDesc 2 := by
  intro frames
  have changed := (frames [7, 7] rfl 1 [65, 0] (by decide)).2
  exact absurd changed (by decide)

/-! ## What a write hands out after a failure -/

section Write

variable {σ : Type} {serve : σ → Call → Reply × σ} {s : σ} {k : KeyedDesc} {errno : Nat}

/-- The steps of `WriteFile` in front of the write. -/
def Call.Prepares : Call → Prop
  | .wcInitRng | .wcAesSetKey .. | .wcAesCtrEncrypt .. => True
  | _ => False

/-- If a step in front of the write fails, no byte goes to the host, and an error is returned. -/
def FailsClosed (serve : σ → Call → Reply × σ) (s : σ) (errno : Nat) (k : KeyedDesc)
    (buf : List Byte) : Prop :=
  let run := (naClHostDescWrite errno k.desc buf).run (logged serve) (s, [])
  (∃ e ∈ run.2.2, e.1.Prepares ∧ e.2.ret ≠ 0) →
    (∀ e ∈ run.2.2, handed e.1 = []) ∧ ∃ v < 0, run.1 = some v

/-- The key is set up, and then the encryption fails; `s'` is the state behind it. -/
def EncryptionFails (serve : σ → Call → Reply × σ) (s : σ) (k : KeyedDesc) (buf : List Byte)
    (s' : σ) : Prop :=
  let rng := serve s .wcInitRng
  let key := serve rng.2 (.wcAesSetKey k.key k.iv)
  let output := serve key.2 (.wcAesCtrEncrypt k.key k.iv buf)
  k.writable ∧ rng.1.ret = 0 ∧ key.1.ret = 0 ∧ output.1.ret ≠ 0 ∧ s' = output.2

/-- The write wrapper reports an error for this result of the host. -/
def ReportsError (errno : Nat) (ret : Int) : Prop := ret < 0 ∧ (ret = -1 → errno ≠ 0)

/-- What the wrapper makes of the result of an empty write. -/
def reported (ret : Int) : Int := if 0 < ret then -1 else ret

/-- Without memory for a large transfer, or with nothing to transfer, a write that is refused
    hands out nothing. -/
def WriteRefused (serve : σ → Call → Reply × σ) (s : σ) (errno : Nat) (k : KeyedDesc)
    (buf : List Byte) : Prop :=
  (maxUntrustedStackBuf < buf.length ∧
    ReportsError errno (serve s (.host (.allocUntrusted (allocAlignup buf.length)))).1.ret) ∨
  (buf = [] ∧
    ReportsError errno (reported (serve s (.host (.write k.desc.d []))).1.ret))

theorem reportsError_iff {ret : Int} :
    ReportsError errno ret ↔ (if ret = -1 then negXlate errno else ret) < 0 := by
  rw [ReportsError]
  by_cases minusOne : ret = -1
  · rw [if_pos minusOne]
    have zero := @naClXlateErrno_eq_zero_iff errno
    rw [negXlate]
    omega
  · rw [if_neg minusOne]
    simp [minusOne]

/-- The end of `WriteFile`. -/
def handOut (errno : Nat) (fd : Int) (output : List Byte) : HostTree Int := do
  let retval ← ocallWrite fd output
  if retval.ret = -1 then pure (negXlate errno) else pure retval.ret

variable {output : List Byte}

theorem run_handOut_result {fd : Int} {s : σ × List (Call × Reply)} {reply : Reply}
    {s' : σ × List (Call × Reply)}
    (run : (ocallWrite fd output).run (logged serve) s = (some reply, s')) :
    (handOut errno fd output).run (logged serve) s =
      (some (if reply.ret = -1 then negXlate errno else reply.ret), s') := by
  rw [handOut, run_bind_of_some run]
  split <;> rfl

theorem first_call_logged {α : Type} (c : Call) (f : Reply → HostTree α)
    (s : σ × List (Call × Reply)) :
    (c, (serve s.1 c).1) ∈ ((CallTree.call c f).run (logged serve) s).2.2 :=
  (CallTree.prefix_run_logged (f (serve s.1 c).1) _).subset
    (List.mem_append_right _ (List.mem_singleton.mpr rfl))

/-- The write at the end hands out nothing exactly when it is refused. -/
theorem handOut_closed_iff (small : output.length < 2 ^ 31) (s : σ) (log : List (Call × Reply))
    (closed : ∀ e ∈ log, handed e.1 = []) :
    ((∀ e ∈ ((handOut errno k.desc.d output).run (logged serve) (s, log)).2.2, handed e.1 = []) ∧
      ∃ v < 0, ((handOut errno k.desc.d output).run (logged serve) (s, log)).1 = some v) ↔
    WriteRefused serve s errno k output := by
  have count : output.length % 2 ^ 32 = output.length := Nat.mod_eq_of_lt (by omega)
  have closed_append {c : Call} {reply : Reply} (nothing : handed c = []) :
      ∀ e ∈ log ++ [(c, reply)], handed e.1 = [] := by
    intro e member
    cases List.mem_append.mp member with
    | inl before => exact closed e before
    | inr here => rwa [List.mem_singleton.mp here]
  by_cases large : maxUntrustedStackBuf < output.length
  · have nonempty : output ≠ [] := by
      rintro rfl
      exact absurd large (Nat.not_lt_zero _)
    by_cases negative : (serve s (.host (.allocUntrusted (allocAlignup output.length)))).1.ret < 0
    · -- there is no memory for the transfer
      have run : (ocallWrite k.desc.d output).run (logged serve) (s, log) =
          (some { ret := (serve s (.host (.allocUntrusted (allocAlignup output.length)))).1.ret },
            (serve s (.host (.allocUntrusted (allocAlignup output.length)))).2,
            log ++ [(.host (.allocUntrusted (allocAlignup output.length)),
              (serve s (.host (.allocUntrusted (allocAlignup output.length)))).1)]) := by
        rw [ocallWrite, count, withUntrustedBuf, if_pos large, sgxOcall, CallTree.perform_bind,
          CallTree.run_call, logged, if_pos negative]
        rfl
      rw [run_handOut_result run, WriteRefused, reportsError_iff]
      constructor
      · rintro ⟨_, v, below, same⟩
        cases same
        exact Or.inl ⟨large, below⟩
      · rintro (⟨_, below⟩ | ⟨empty, _⟩)
        · exact ⟨closed_append rfl, _, below, rfl⟩
        · exact absurd empty nonempty
    · -- the host gets to see the output
      refine iff_of_false (fun handsNothing => ?_) ?_
      · have nothing := handsNothing.1
        rw [handOut, ocallWrite, count, withUntrustedBuf, if_pos large, sgxOcall,
          CallTree.bind_assoc_eq, CallTree.perform_bind, CallTree.run_call, logged,
          if_neg negative, List.take_length, CallTree.bind_assoc_eq, sgxOcall,
          CallTree.bind_assoc_eq, CallTree.perform_bind] at nothing
        exact nonempty (nothing _ (first_call_logged _ _ _))
      · rintro (⟨_, below⟩ | ⟨empty, _⟩)
        · exact negative below.1
        · exact nonempty empty
  · -- a small transfer goes out at once
    obtain ⟨reply, reply_eq⟩ : ∃ reply, (serve s (.host (.write k.desc.d output))).1 = reply :=
      ⟨_, rfl⟩
    have run : (ocallWrite k.desc.d output).run (logged serve) (s, log) =
        (some { ret := if 0 < reply.ret ∧ output.length < reply.ret then -1 else reply.ret },
          (serve s (.host (.write k.desc.d output))).2,
          log ++ [(.host (.write k.desc.d output), reply)]) := by
      rw [ocallWrite, count, withUntrustedBuf, if_neg large, List.take_length, sgxOcall,
        CallTree.perform_bind, CallTree.run_call, logged, reply_eq]
      dsimp only
      split <;> rfl
    rw [run_handOut_result run]
    constructor
    · rintro ⟨nothing, v, below, same⟩
      have empty : output = [] :=
        nothing _ (List.mem_append_right _ (List.mem_singleton.mpr rfl))
      subst empty
      cases same
      refine Or.inr ⟨rfl, ?_⟩
      rw [reportsError_iff, reported, reply_eq]
      simpa using below
    · rintro (⟨above, _⟩ | ⟨empty, refused⟩)
      · exact absurd above large
      · subst empty
        rw [reportsError_iff, reported, reply_eq] at refused
        exact ⟨closed_append rfl, _, by simpa using refused, rfl⟩

/-- The calls of the write are none of the steps in front of it. -/
theorem handOut_steps (fd : Int) (output : List Byte) :
    AllCalls (fun c => ¬ c.Prepares) (handOut errno fd output) := by
  have host (c : HostCall) : AllCalls (fun c => ¬ c.Prepares) (sgxOcall c) :=
    AllCalls.perform not_false
  refine AllCalls.bind ?_ fun _ => AllCalls.ite (AllCalls.pure _ _) (AllCalls.pure _ _)
  have body : AllCalls (fun c => ¬ c.Prepares) (do
      let reply ← sgxOcall (.write fd (output.take (output.length % 2 ^ 32)))
      if reply.ret > 0 ∧ reply.ret > (output.length % 2 ^ 32 : Nat) then pure { ret := -1 }
      else pure { ret := reply.ret } : HostTree Reply) :=
    (host _).bind fun _ => AllCalls.ite (AllCalls.pure _ _) (AllCalls.pure _ _)
  exact AllCalls.ite ((host _).bind fun _ => AllCalls.ite (AllCalls.pure _ _)
    (body.bind fun _ => AllCalls.ite ((host _).bind fun _ => AllCalls.pure _ _)
      (AllCalls.pure _ _))) body

variable {buf : List Byte}

theorem WriteRefused.congr (length : output.length = buf.length)
    (refused : WriteRefused serve s errno k output) : WriteRefused serve s errno k buf := by
  cases refused with
  | inl noMemory => exact Or.inl (length ▸ noMemory)
  | inr empty =>
    exact Or.inr ⟨List.eq_nil_of_length_eq_zero (by rw [← length, empty.1]; rfl), empty.2⟩

/-- Behind a key that is set up, only the encryption can have failed. -/
theorem failed_handOut_iff {rng key output : Reply} (noRng : rng.ret = 0) (noKey : key.ret = 0)
    (small : output.data.length < 2 ^ 31) (s : σ) :
    let log := [(.wcInitRng, rng)] ++ [(.wcAesSetKey k.key k.iv, key)] ++
      [(.wcAesCtrEncrypt k.key k.iv buf, output)]
    let run := (handOut errno k.desc.d output.data).run (logged serve) (s, log)
    ((∃ e ∈ run.2.2, e.1.Prepares ∧ e.2.ret ≠ 0) →
      (∀ e ∈ run.2.2, handed e.1 = []) ∧ ∃ v < 0, run.1 = some v) ↔
    (output.ret ≠ 0 → WriteRefused serve s errno k output.data) := by
  intro log run
  have closed : ∀ e ∈ log, handed e.1 = [] := by
    simp only [log, List.cons_append, List.nil_append, List.forall_mem_cons]
    exact ⟨rfl, rfl, rfl, fun _ member => nomatch member⟩
  rw [handOut_closed_iff small s log closed]
  obtain ⟨new, log_eq, steps⟩ := (handOut_steps k.desc.d output.data).run_logged s log
  have failed : (∃ e ∈ run.2.2, e.1.Prepares ∧ e.2.ret ≠ 0) ↔ output.ret ≠ 0 := by
    rw [log_eq]
    constructor
    · rintro ⟨e, member, step, nonzero⟩
      cases List.mem_append.mp member with
      | inl before =>
        simp only [log, List.cons_append, List.nil_append, List.mem_cons, List.not_mem_nil,
          or_false] at before
        rcases before with rfl | rfl | rfl
        · exact absurd noRng nonzero
        · exact absurd noKey nonzero
        · exact nonzero
      | inr later => exact absurd step (steps e later)
    · intro nonzero
      exact ⟨_, List.mem_append_left _ (List.mem_append_right _ (List.mem_singleton.mpr rfl)),
        trivial, nonzero⟩
  rw [failed]

/-- A keyed write fails closed exactly when the encryption does not fail, or fails and the write
    behind it is refused without a byte. -/
theorem naClHostDescWrite_failsClosed_iff {σ : Type} {serve : σ → Call → Reply × σ}
    (full : FullBuffers serve) (s : σ) (errno : Nat) (k : KeyedDesc) {buf : List Byte}
    (small : buf.length < 2 ^ 31) :
    FailsClosed serve s errno k buf ↔
      ∀ s', EncryptionFails serve s k buf s' → WriteRefused serve s' errno k buf := by
  by_cases writable : k.writable
  · have length := full.cipher (serve (serve s .wcInitRng).2 (.wcAesSetKey k.key k.iv)).2 k.key k.iv
      buf
    rw [FailsClosed, k.write_eq, if_pos writable, writeFile, CallTree.perform_bind,
      CallTree.run_call]
    by_cases rng : (serve s .wcInitRng).1.ret = 0
    · by_cases key : (serve (serve s .wcInitRng).2 (.wcAesSetKey k.key k.iv)).1.ret = 0
      · rw [logged, if_neg (not_not.mpr rng), CallTree.perform_bind, CallTree.run_call, logged,
          if_neg (not_not.mpr key), CallTree.perform_bind, CallTree.run_call, logged]
        refine (failed_handOut_iff rng key (by rwa [length]) _).trans ⟨?_, ?_⟩
        · rintro refused s' ⟨_, _, _, failed, rfl⟩
          exact (refused failed).congr length
        · intro refused failed
          exact (refused _ ⟨writable, rng, key, failed, rfl⟩).congr length.symm
      · refine iff_of_true ?_ fun s' fails => absurd fails.2.2.1 key
        rw [logged, if_neg (not_not.mpr rng), CallTree.perform_bind, CallTree.run_call, logged,
          if_pos key]
        intro _
        refine ⟨fun e member => ?_, -naClAbiEBADF, by decide, rfl⟩
        cases List.mem_cons.mp member with
        | inl first => rw [first]; rfl
        | inr second => rw [List.mem_singleton.mp second]; rfl
    · refine iff_of_true ?_ fun s' fails => absurd fails.2.1 rng
      rw [logged, if_pos rng]
      intro _
      refine ⟨fun e member => ?_, -naClAbiEBADF, by decide, rfl⟩
      rw [List.mem_singleton.mp member]
      rfl
  · refine iff_of_true ?_ fun s' fails => absurd fails.1 writable
    rw [FailsClosed, k.write_eq, if_neg writable]
    rintro ⟨e, member, _⟩
    cases member

end Write

/-- The cipher refuses its input and leaves zeros in the output buffer; the host writes a byte. -/
def refusingCipher : Unit → Call → Reply × Unit
  | _, .malloc size => ({ ret := 0, data := List.replicate size 0 }, ())
  | _, .host (.write ..) => ({ ret := 1 }, ())
  | _, .wcAesCtrEncrypt _ _ input => ({ ret := -173, data := List.replicate input.length 0 }, ())
  | _, _ => ({ ret := 0 }, ())

theorem naClHostDescWrite_failsClosed_iff_refusing :
    FailsClosed refusingCipher () 0 sampleDesc [65] ↔
      ∀ s', EncryptionFails refusingCipher () sampleDesc [65] s' →
        WriteRefused refusingCipher s' 0 sampleDesc [65] :=
  naClHostDescWrite_failsClosed_iff
    ⟨fun _ _ => List.length_replicate, fun _ _ _ _ => List.length_replicate⟩ () 0 sampleDesc
    (by decide)

/-- The unencrypted contents of the output buffer go to the host, and the write succeeds. -/
theorem naClHostDescWrite_not_failsClosed : ¬ FailsClosed refusingCipher () 0 sampleDesc [65] := by
  intro closed
  have run : (naClHostDescWrite 0 sampleDesc.desc [65]).run (logged refusingCipher) ((), []) =
      (some 1, (), [(.wcInitRng, { ret := 0 }),
        (.wcAesSetKey sampleDesc.key sampleDesc.iv, { ret := 0 }),
        (.wcAesCtrEncrypt sampleDesc.key sampleDesc.iv [65], { ret := -173, data := [0] }),
        (.host (.write 5 [0]), { ret := 1 })]) := by decide
  rw [FailsClosed, run] at closed
  obtain ⟨nothing, _⟩ := closed ⟨_, List.mem_cons_of_mem _ (List.mem_cons_of_mem _
    List.mem_cons_self), trivial, show (-173 : Int) ≠ 0 by decide⟩
  have handed_nothing := nothing (.host (.write 5 [0]), { ret := 1 }) (by simp)
  cases handed_nothing

end SandboxTEE.HostDesc
