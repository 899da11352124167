import SandboxTEE.HostDesc.Host

/-! # File positions at the boundary (`NaClHostDescSeek` and its siblings)

A position goes through the function, the trusted wrapper and the field of the `ms` structure.
Where one of them is an `unsigned int`, what is 4 GiB or more does not get through, and the
position that `lseek` returns passes through an `int` (`survives_iff`).
-/

namespace SandboxTEE.HostDesc

open SandboxTEE.Lib (CallTree)
open SandboxTEE.Lib.CallTree (AllCalls perform)
open SandboxTEE.Stdlib (Byte)

/-! ## What is asked in a run -/

section Asks

variable {σ α β : Type} {host : σ → HostCall → HostResult × σ} {library : σ → Call → Reply × σ}
  {t : HostTree α} {f : α → HostTree β} {s s' : σ} {c : HostCall}

/-- The host gets the call in the run from `s`. -/
def Asks (host : σ → HostCall → HostResult × σ) (library : σ → Call → Reply × σ) (t : HostTree α)
    (s : σ) (c : HostCall) : Prop :=
  ∃ result served s', Runs host library t s result served s' ∧ ∃ r, .host c r ∈ served

theorem Asks.sgxOcall (c : HostCall) (s : σ) : Asks host library (sgxOcall c) s c :=
  ⟨_, _, _, Runs.sgxOcall c s, _, List.mem_singleton.mpr rfl⟩

theorem Asks.bind_left (asks : Asks host library t s c) : Asks host library (t >>= f) s c := by
  obtain ⟨result, served, s', first, r, mem⟩ := asks
  cases result with
  | none => exact ⟨_, _, _, first.bind_abort, r, mem⟩
  | some a =>
    obtain ⟨_, served', _, rest⟩ := exists_runs host library (f a) s'
    exact ⟨_, _, _, first.bind rest, r, List.mem_append_left served' mem⟩

variable {served : List Served}

/-- What the second part asks, from where the first has ended. -/
theorem Asks.bind_right {a : α} (first : Runs host library t s (some a) served s')
    (asks : Asks host library (f a) s' c) : Asks host library (t >>= f) s c := by
  obtain ⟨_, served', _, rest, r, mem⟩ := asks
  exact ⟨_, _, _, first.bind rest, r, List.mem_append_right served mem⟩

/-- A call is served by one entry, of the host just for a call of the host. -/
theorem serveCalls_entry (call : Call) (s : σ) (before : List Served) : ∃ reply s' entry,
    serveCalls host library (s, before) call = (reply, (s', before ++ [entry])) ∧
      ∀ c r, entry = .host c r → call = .host c := by
  cases call with
  | host h =>
    refine ⟨_, _, _, rfl, fun c r same => ?_⟩
    cases same
    rfl
  | _ => exact ⟨_, _, _, rfl, fun _ _ same => nomatch same⟩

/-- What holds of all calls of a tree holds of those that a run makes. -/
theorem run_serveCalls_of_allCalls {P : Call → Prop} (all : AllCalls P t) :
    ∀ (s : σ) (before : List Served), ∃ served,
      (t.run (serveCalls host library) (s, before)).2.2 = before ++ served ∧
      ∀ c r, .host c r ∈ served → P (.host c) := by
  induction t with
  | done a => exact fun s before => ⟨[], (List.append_nil before).symm, fun _ _ mem => nomatch mem⟩
  | abort => exact fun s before => ⟨[], (List.append_nil before).symm, fun _ _ mem => nomatch mem⟩
  | call call k ih =>
    intro s before
    obtain ⟨reply, s', entry, serves, ofHost⟩ :=
      @serveCalls_entry _ host library call s before
    obtain ⟨served, eq, rest⟩ := ih reply (all.2 reply) s' (before ++ [entry])
    rw [CallTree.run_call, serves]
    refine ⟨entry :: served, eq.trans (List.append_assoc before _ served), fun c r mem => ?_⟩
    rcases List.mem_cons.mp mem with same | mem
    · rw [← ofHost c r same.symm]
      exact all.1
    · exact rest c r mem

theorem Runs.of_allCalls {P : Call → Prop} {result : Option α} (all : AllCalls P t)
    (runs : Runs host library t s result served s') : ∀ c r, .host c r ∈ served → P (.host c) := by
  obtain ⟨served', eq, holds⟩ := @run_serveCalls_of_allCalls _ _ host library t P all s []
  rw [runs []] at eq
  rwa [show served = served' from eq]

end Asks

/-! ## Positions -/

/-- The position or length that the host gets, if the call has one. -/
def HostCall.position : HostCall → Option Int
  | .lseek64 _ offset _ => some offset
  | .pread64 _ _ pos => some pos
  | .pwrite64 _ _ offset => some offset
  | .ftruncate _ length => some length
  | .truncate _ size => some size
  | _ => none

/-- The call has no position, or this one. -/
def Call.At (offset : Nat) : Call → Prop
  | .host c => ∀ v, c.position = some v → v = offset
  | _ => True

/-- The operations that take a position or a length. -/
inductive PositionOp where
  | seek (d : NaClHostDesc) (whence : Nat)
  | pread (d : NaClHostDesc) (len : Nat)
  | pwrite (d : NaClHostDesc) (buf : List Byte)
  | truncate (path : List Byte)
  | ftruncate (d : NaClHostDesc)

/-- The return value. -/
def PositionOp.call (op : PositionOp) (errno offset : Nat) : HostTree Int :=
  match op with
  | seek d whence => naClHostDescSeek errno d offset whence
  | pread d len => do
    let (retval, _) ← naClHostDescPRead errno d len offset
    pure retval
  | pwrite d buf => naClHostDescPWrite errno d buf offset
  | truncate path => naClHostDescTruncate errno path offset
  | ftruncate d => naClHostDescFtruncate errno d offset

/-- A host whose results are those of POSIX, and where a seek that succeeds ends at `position`. -/
structure SeeksTo {σ : Type} (position : Nat) (host : σ → HostCall → HostResult × σ) : Prop where
  possible : ∀ s c, (host s c).1.Possible c
  position : ∀ s fd offset whence value data,
    (host s (.lseek64 fd offset whence)).1 = .ok value data → value = position

/-- Every position that the host gets is the caller's, and the one that a seek ends at is
    returned. -/
def PositionOp.Survives (op : PositionOp) (errno offset position : Nat) : Prop :=
  ∀ (σ : Type) (host : σ → HostCall → HostResult × σ) (library : σ → Call → Reply × σ) (s s' : σ)
    (result : Option Int) (served : List Served),
    SeeksTo position host → Runs host library (op.call errno offset) s result served s' →
    (∀ c r, .host c r ∈ served → (Call.host c).At offset) ∧
    ∀ d whence fd off whence' (value : Nat) data, op = .seek d whence →
      .host (.lseek64 fd off whence') (.ok value data) ∈ served → result = some (value : Int)

/-- The position fits what it goes through. -/
def PositionOp.Fits (op : PositionOp) (offset position : Nat) : Prop :=
  match op with
  | seek d _ => d.d = -1 ∨ position < 2 ^ 31
  | pwrite d _ => d.d = -1 ∨ d.flags &&& accMode = oRDONLY ∨ offset < 2 ^ 32
  | truncate _ => offset < 2 ^ 32
  | pread .. | ftruncate _ => True

/-! ## What gets through -/

section Through

variable {offset position errno : Nat} {d : NaClHostDesc}

theorem at_of_none {c : HostCall} (none : c.position = none) : (Call.host c).At offset := by
  intro v some
  rw [none] at some
  exact nomatch some

theorem at_of_some {c : HostCall} {v : Int} (same : c.position = some v) (eq : v = offset) :
    (Call.host c).At offset := by
  intro w some
  rw [same] at some
  cases some
  exact eq

theorem allCalls_at {c : HostCall} (h : (Call.host c).At offset) :
    AllCalls (Call.At offset) (sgxOcall c) := AllCalls.perform h

theorem allCalls_naClHostDescCheckValidity (d : NaClHostDesc) :
    AllCalls (Call.At offset) (naClHostDescCheckValidity d) := by
  rw [naClHostDescCheckValidity]
  exact AllCalls.ite trivial (AllCalls.pure ..)

theorem allCalls_withUntrustedBuf {limit count : Nat} {body : HostTree Reply}
    (all : AllCalls (Call.At offset) body) :
    AllCalls (Call.At offset) (withUntrustedBuf limit count body) := by
  have alloc : AllCalls (Call.At offset) (sgxOcall (.allocUntrusted (allocAlignup count))) :=
    allCalls_at (at_of_none rfl)
  have unmap : AllCalls (Call.At offset) (sgxOcall (.unmapUntrusted (allocAlignup count))) :=
    allCalls_at (at_of_none rfl)
  rw [withUntrustedBuf]
  refine AllCalls.ite (alloc.bind fun reply => AllCalls.ite (AllCalls.pure ..) ?_) all
  refine all.bind fun reply => AllCalls.ite ?_ (AllCalls.pure ..)
  exact unmap.bind fun _ => AllCalls.pure ..

theorem allCalls_seek (whence : Nat) :
    AllCalls (Call.At offset) (naClHostDescSeek errno d offset whence) := by
  refine (allCalls_naClHostDescCheckValidity d).bind fun _ => ?_
  refine (allCalls_at (at_of_some rfl rfl)).bind fun retval => ?_
  exact AllCalls.ite (AllCalls.pure ..) (AllCalls.pure ..)

theorem allCalls_pread (inRange : offset < 2 ^ 63) (len : Nat) :
    AllCalls (Call.At offset) (naClHostDescPRead errno d len offset) := by
  have pos : (((offset : Int) % 2 ^ 64).toNat : Int) = offset := by omega
  have pread : AllCalls (Call.At offset) (ocallPread64 d.d len offset) := by
    refine allCalls_withUntrustedBuf ((allCalls_at (at_of_some rfl pos)).bind fun reply => ?_)
    exact AllCalls.ite (AllCalls.pure ..) (AllCalls.pure ..)
  refine (allCalls_naClHostDescCheckValidity d).bind fun _ => AllCalls.ite (AllCalls.pure ..) ?_
  exact pread.bind fun retval => AllCalls.ite (AllCalls.pure ..) (AllCalls.pure ..)

/-- The validity check ends the operation on a closed descriptor. -/
theorem checkValidity_bind {α : Type} {rest : Unit → HostTree α} (d : NaClHostDesc) :
    (naClHostDescCheckValidity d >>= rest) = if d.d = -1 then CallTree.abort else rest () := by
  rw [naClHostDescCheckValidity]
  split
  · rfl
  · rfl

theorem allCalls_pwrite (fits : d.d = -1 ∨ d.flags &&& accMode = oRDONLY ∨ offset < 2 ^ 32)
    (buf : List Byte) : AllCalls (Call.At offset) (naClHostDescPWrite errno d buf offset) := by
  rw [naClHostDescPWrite, checkValidity_bind]
  split
  · trivial
  · next valid =>
    split
    · exact AllCalls.pure ..
    · next writable =>
      have small := (fits.resolve_left valid).resolve_left writable
      have pos : (((offset : Int) % 2 ^ 32).toNat : Int) = offset := by omega
      have pwrite : AllCalls (Call.At offset) (ocallPwrite64 d.d buf offset) :=
        allCalls_withUntrustedBuf (allCalls_at (at_of_some rfl pos))
      have fcntl : ∀ cmd args, AllCalls (Call.At offset) (ocallFcntl d.d cmd args) := fun _ _ =>
        allCalls_at (at_of_none rfl)
      refine AllCalls.ite ?_ ?_
      · refine (fcntl _ _).bind fun origFlags => AllCalls.ite trivial ?_
        refine (fcntl _ _).bind fun cleared => AllCalls.ite trivial ?_
        refine pwrite.bind fun retval => (fcntl _ _).bind fun restored => AllCalls.ite trivial ?_
        exact AllCalls.ite (AllCalls.pure ..) (AllCalls.pure ..)
      · exact pwrite.bind fun retval => AllCalls.ite (AllCalls.pure ..) (AllCalls.pure ..)

theorem allCalls_truncate (fits : offset < 2 ^ 32) (path : List Byte) :
    AllCalls (Call.At offset) (naClHostDescTruncate errno path offset) := by
  have size : ((offset % 2 ^ 32 : Nat) : Int) = offset := by omega
  refine (allCalls_at (at_of_some rfl size)).bind fun retval => ?_
  exact AllCalls.ite (AllCalls.pure ..) (AllCalls.pure ..)

theorem allCalls_ftruncate : AllCalls (Call.At offset) (naClHostDescFtruncate errno d offset) := by
  refine (allCalls_naClHostDescCheckValidity d).bind fun _ => ?_
  refine (allCalls_at (at_of_some rfl rfl)).bind fun retval => ?_
  exact AllCalls.ite (AllCalls.pure ..) (AllCalls.pure ..)

/-- An operation whose position fits asks for it and for no other. -/
theorem PositionOp.Fits.allCalls {op : PositionOp} (fits : op.Fits offset position)
    (inRange : offset < 2 ^ 63) : AllCalls (Call.At offset) (op.call errno offset) := by
  cases op with
  | seek d whence => exact allCalls_seek whence
  | pread d len => exact (allCalls_pread inRange len).bind fun _ => AllCalls.pure ..
  | pwrite d buf => exact allCalls_pwrite fits buf
  | truncate path => exact allCalls_truncate fits path
  | ftruncate d => exact allCalls_ftruncate

theorem runs_seek {σ : Type} (host : σ → HostCall → HostResult × σ)
    (library : σ → Call → Reply × σ) (s : σ) (valid : d.d ≠ -1) (whence : Nat) :
    let r := (host s (.lseek64 d.d offset whence)).1
    let ret := (untrustedReply (.lseek64 d.d offset whence) r).ret
    ∃ s', Runs host library (naClHostDescSeek errno d offset whence) s
      (some (if ret = -1 then negXlate errno else ret)) [.host (.lseek64 d.d offset whence) r] s' := by
  intro r ret
  have answer : Runs host library
      (if ret = -1 then pure (negXlate errno) else pure ret : HostTree Int)
      (host s (.lseek64 d.d offset whence)).2
      (some (if ret = -1 then negXlate errno else ret)) []
      (host s (.lseek64 d.d offset whence)).2 := by
    split
    · exact Runs.pure _ _
    · exact Runs.pure _ _
  rw [naClHostDescSeek, checkValidity_bind, if_neg valid]
  exact ⟨_, (Runs.sgxOcall _ _).bind answer⟩

theorem cInt_lt (n : Nat) : cInt n < 2 ^ 31 := by
  rw [cInt]
  have := @Int.bmod_lt n (2 ^ 32) (by decide)
  omega

theorem negXlate_le (errno : Nat) : negXlate errno ≤ 0 := by
  rw [negXlate]
  omega

/-- What a seek returns is the position just if an `int` holds it. -/
theorem seek_returns_iff (value : Nat) :
    (if cInt value = -1 then negXlate errno else cInt value) = (value : Int) ↔ value < 2 ^ 31 := by
  constructor
  · intro same
    have := cInt_lt value
    have := negXlate_le errno
    split at same
    · omega
    · omega
  · intro fits
    rw [cInt_of_lt fits, if_neg (by omega)]

/-- A seek that succeeds returns the position, if an `int` holds it. -/
theorem seek_returns {σ : Type} {host : σ → HostCall → HostResult × σ}
    {library : σ → Call → Reply × σ} {s s' : σ} {result : Option Int} {served : List Served}
    {whence whence' value : Nat} {fd off : Int} {data : List Byte} (seeks : SeeksTo position host)
    (fits : d.d = -1 ∨ position < 2 ^ 31)
    (runs : Runs host library (naClHostDescSeek errno d offset whence) s result served s')
    (mem : .host (.lseek64 fd off whence') (.ok value data) ∈ served) :
    result = some (value : Int) := by
  by_cases valid : d.d = -1
  · rw [naClHostDescSeek, checkValidity_bind, if_pos valid] at runs
    obtain ⟨-, rfl, -⟩ := runs.unique (Runs.abort s)
    exact nomatch mem
  · obtain ⟨s'', expected⟩ := @runs_seek offset errno d _ host library s valid whence
    obtain ⟨rfl, rfl, -⟩ := runs.unique expected
    have same := List.mem_singleton.mp mem
    injection same with call answer
    have here := seeks.position _ _ _ _ _ _ answer.symm
    rw [← answer, here]
    exact congrArg some ((seek_returns_iff position).mpr (fits.resolve_left valid))

end Through

/-! ## What does not -/

section Lost

variable {offset position errno : Nat}

/-- The host that does all it is asked. -/
def obliging (position : Nat) : Unit → HostCall → HostResult × Unit
  | _, .lseek64 .. => (.ok position [], ())
  | _, .fcntl _ cmd _ => (.ok (if cmd = fGETFL then oAPPEND else 0) [], ())
  | _, _ => (.ok 0 [], ())

def noLibrary : Unit → Call → Reply × Unit := fun _ _ => ({ ret := 0 }, ())

theorem seeksTo_obliging (inRange : position < 2 ^ 63) : SeeksTo position (obliging position) where
  possible s c := by
    cases c with
    | lseek64 => exact inRange
    | fcntl fd cmd args =>
      change (if cmd = fGETFL then oAPPEND else 0) < 2 ^ 31
      split <;> decide
    | _ => first | exact Nat.zero_lt_succ _ | exact ⟨Nat.zero_le _, Nat.zero_lt_succ _⟩ | rfl
  position s fd off whence value data same := by
    cases same
    rfl

theorem asks_withUntrustedBuf {limit count : Nat} {body : HostTree Reply} {c : HostCall}
    (asks : Asks (obliging position) noLibrary body () c) :
    Asks (obliging position) noLibrary (withUntrustedBuf limit count body) () c := by
  rw [withUntrustedBuf]
  split
  · have zero : cInt (0 : Nat) = 0 := cInt_of_lt (by decide)
    refine Asks.bind_right (Runs.sgxOcall _ _) ?_
    change Asks _ _ (if cInt (0 : Nat) < 0 then _ else _) () c
    rw [zero, if_neg (by decide)]
    exact asks.bind_left
  · exact asks

/-- A write at a position gets to the host that way, its position modulo `2 ^ 32`. -/
theorem asks_pwrite {d : NaClHostDesc} (valid : d.d ≠ -1) (writable : d.flags &&& accMode ≠ oRDONLY)
    (buf : List Byte) : Asks (obliging position) noLibrary (naClHostDescPWrite errno d buf offset) ()
      (.pwrite64 d.d (buf.take (buf.length % 2 ^ 32)) ((offset : Int) % 2 ^ 32).toNat) := by
  have pwrite : Asks (obliging position) noLibrary (ocallPwrite64 d.d buf offset) ()
      (.pwrite64 d.d (buf.take (buf.length % 2 ^ 32)) ((offset : Int) % 2 ^ 32).toNat) :=
    asks_withUntrustedBuf (Asks.sgxOcall _ _)
  rw [naClHostDescPWrite, checkValidity_bind, if_neg valid, if_neg writable]
  split
  · -- a descriptor opened for append has its flag
    have appends : cInt (oAPPEND : Nat) = oAPPEND := cInt_of_lt (by decide)
    have zero : cInt (0 : Nat) = 0 := cInt_of_lt (by decide)
    refine Asks.bind_right (Runs.sgxOcall _ _) ?_
    change Asks _ _ (if testFlag (cInt (oAPPEND : Nat)) oAPPEND = false then _ else _) () _
    rw [appends, if_neg (by decide)]
    refine Asks.bind_right (Runs.sgxOcall _ _) ?_
    change Asks _ _ (if cInt (0 : Nat) = -1 then _ else _) () _
    rw [zero, if_neg (by decide)]
    exact pwrite.bind_left
  · exact pwrite.bind_left

theorem asks_truncate (path : List Byte) :
    Asks (obliging position) noLibrary (naClHostDescTruncate errno path offset) ()
      (.truncate path (offset % 2 ^ 32)) :=
  (Asks.sgxOcall _ _).bind_left

variable {op : PositionOp}

/-- A position that is asked for survives if it is the caller's. -/
theorem PositionOp.Survives.asked {c : HostCall} {v : Int}
    (survives : op.Survives errno offset position) (inRange : position < 2 ^ 63)
    (asks : Asks (obliging position) noLibrary (op.call errno offset) () c)
    (some : c.position = some v) : v = offset := by
  obtain ⟨result, served, s', runs, r, mem⟩ := asks
  exact (survives _ _ _ _ _ _ _ (seeksTo_obliging inRange) runs).1 c r mem v some

theorem PositionOp.Survives.fits (survives : op.Survives errno offset position)
    (returned : position < 2 ^ 63) : op.Fits offset position := by
  cases op with
  | seek d whence =>
    by_cases valid : d.d = -1
    · exact Or.inl valid
    · obtain ⟨s', runs⟩ := runs_seek (obliging position) noLibrary () valid whence
      have same := (survives _ _ _ _ _ _ _ (seeksTo_obliging returned) runs).2 d whence _ _ _
        position [] rfl (List.mem_singleton.mpr rfl)
      exact Or.inr ((seek_returns_iff position).mp (Option.some.inj same))
  | pwrite d buf =>
    by_cases valid : d.d = -1
    · exact Or.inl valid
    · by_cases writable : d.flags &&& accMode = oRDONLY
      · exact Or.inr (Or.inl writable)
      · have := survives.asked returned (asks_pwrite valid writable buf) rfl
        exact Or.inr (Or.inr (by omega))
  | truncate path =>
    have := survives.asked returned (asks_truncate path) rfl
    change offset < 2 ^ 32
    omega
  | pread d len => trivial
  | ftruncate d => trivial

end Lost

theorem survives_iff (op : PositionOp) (errno : Nat) {offset position : Nat}
    (inRange : offset < 2 ^ 63) (returned : position < 2 ^ 63) :
    op.Survives errno offset position ↔ op.Fits offset position := by
  constructor
  · exact fun survives => survives.fits returned
  · intro fits σ host library s s' result served seeks runs
    refine ⟨runs.of_allCalls (fits.allCalls inRange), ?_⟩
    rintro d whence fd off whence' value data rfl mem
    exact seek_returns seeks fits runs mem

theorem survives_small : (PositionOp.pwrite ⟨3, oWRONLY, none⟩ [65]).Survives 0 (2 ^ 30) 0 :=
  (survives_iff _ 0 (by decide) (by decide)).mpr (Or.inr (Or.inr (by decide)))

/-- A file cut off at 4 GiB is empty, a write at 4 GiB goes to its front, and a seek that ends at
    2 GiB returns a negative number. -/
theorem positions_lost :
    ¬ (PositionOp.truncate [97]).Survives 0 (2 ^ 32) 0 ∧
    ¬ (PositionOp.pwrite ⟨3, oWRONLY, none⟩ [65]).Survives 0 (2 ^ 32) 0 ∧
    ¬ (PositionOp.seek ⟨3, oRDONLY, none⟩ 0).Survives 0 (2 ^ 31) (2 ^ 31) := by
  refine ⟨fun survives => ?_, fun survives => ?_, fun survives => ?_⟩
  · exact absurd (survives.fits (by decide)) (Nat.lt_irrefl _)
  · rcases survives.fits (by decide) with invalid | readOnly | small
    · exact absurd invalid (by decide)
    · exact absurd readOnly (by decide)
    · exact absurd small (Nat.lt_irrefl _)
  · rcases survives.fits (by decide) with invalid | small
    · exact absurd invalid (by decide)
    · exact absurd small (Nat.lt_irrefl _)

end SandboxTEE.HostDesc
