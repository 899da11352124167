import SandboxTEE.HostDesc.AccessGate
import SandboxTEE.HostDesc.Positions
import SandboxTEE.HostDesc.PosixFiles

/-! # Open flags across the boundary

`NaClHostDescOpen` maps the flags and hands them to the host, which opens with flags of its own.
The same session runs over a host that opens with the flags it is given, and over the one of
`sgx_ocall_open`.  Where both open the same file the descriptions differ in access mode and
append mode only, and the enclave's checks keep the first of these from being seen.
-/

namespace SandboxTEE.HostDesc

open SandboxTEE.Lib (CallTree)
open SandboxTEE.Lib.CallTree (AllCalls run_bind run_bind_of_some)
open SandboxTEE.Runtime
open SandboxTEE.Stdlib

/-! ## Sessions -/

/-- The operations on an open descriptor. -/
inductive FileOp where
  | read (len : Nat)
  | write (buf : List Byte)
  | pread (len : Nat) (offset : Int)
  | pwrite (buf : List Byte) (offset : Int)

def FileOp.tree (errno : Nat) (d : NaClHostDesc) : FileOp → HostTree (Int × List Byte)
  | read len => naClHostDescRead errno d len
  | write buf => do
    let ret ← naClHostDescWrite errno d buf
    pure (ret, [])
  | pread len offset => naClHostDescPRead errno d len offset
  | pwrite buf offset => do
    let ret ← naClHostDescPWrite errno d buf offset
    pure (ret, [])

def performAll (errno : Nat) (d : NaClHostDesc) : List FileOp → HostTree (List (Int × List Byte))
  | [] => pure []
  | op :: ops => do
    let result ← op.tree errno d
    let results ← performAll errno d ops
    pure (result :: results)

/-- Open a closed descriptor, and use it if that went well. -/
def session (errno : Nat) (ctx : Option DescCTX) (path : List Byte) (flags mode : Nat)
    (ops : List FileOp) : HostTree (Int × NaClHostDesc × List (Int × List Byte)) := do
  let (ret, d) ← naClHostDescOpen errno ⟨-1, 0, ctx⟩ path flags mode
  if d.d = -1 then pure (ret, d, [])
  else do
    let results ← performAll errno d ops
    pure (ret, d, results)

/-- The host answers its calls, the rest of the world has a state of its own. -/
def serveHost {τ : Type} (openCall : PosixState → List Byte → Nat → Nat → HostResult × PosixState)
    (library : τ → Call → Reply × τ) (s : PosixState × τ) : Call → Reply × (PosixState × τ)
  | .host c =>
    (untrustedReply c (posixHost openCall s.1 c).1, ((posixHost openCall s.1 c).2, s.2))
  | c => ((library s.2 c).1, (s.1, (library s.2 c).2))

/-- Whatever is done with the descriptor, results and files are those of a POSIX `open` with the
    mapped flags. -/
def FlagsHonoured {τ : Type} (library : τ → Call → Reply × τ) (s : PosixState) (t : τ)
    (errno : Nat) (ctx : Option DescCTX) (path : List Byte) (flags mode : Nat) : Prop :=
  ∀ ops,
    let actual := (session errno ctx path flags mode ops).run (serveHost sgxOcallOpen library) (s, t)
    let posix := (session errno ctx path flags mode ops).run (serveHost posixOpen library) (s, t)
    actual.1 = posix.1 ∧ actual.2.1.file = posix.2.1.file

/-! ## When the host opens the same file -/

/-- The open gets to the host. -/
structure OpenReached {τ : Type} (library : τ → Call → Reply × τ) (t : τ) (path : List Byte)
    (flags : Nat) : Prop where
  granted : replyStatus (library t (.askMonitor (statusQuery path))).1.data = pure (some statusA)
  clock : (library (library t (.askMonitor (statusQuery path))).2 .naClGetTimeOfDay).1.ret = 0
  allowed : FlagsAllowed flags

/-- Positional writes to a descriptor in append mode look for `O_APPEND` on the host. -/
def AppendUnused (flags : Nat) : Prop := flags &&& oAPPEND ≠ 0 → flags &&& accMode = oRDONLY

/-- What `open(O_RDWR|O_CREAT, 0666)` does is what the flags and the mode ask for. -/
def SameOpen (s : PosixState) (path : List Byte) (flags mode : Nat) : Prop :=
  match s.file path with
  | none => s.mayCreate path = true →
      flags &&& oCREAT ≠ 0 ∧ (mode &&& 0o400 ≠ 0 ∧ mode &&& 0o200 ≠ 0) ∧ AppendUnused flags
  | some f =>
    let exclusive := flags &&& oCREAT ≠ 0 ∧ flags &&& oEXCL ≠ 0
    if f.mayRead ∧ f.mayWrite then
      ¬ exclusive ∧ (flags &&& oTRUNC ≠ 0 → f.contents = []) ∧ AppendUnused flags
    else exclusive ∨ f.denies flags

/-! ## Descriptions that differ in their modes -/

section Modes

variable {τ : Type} {library : τ → Call → Reply × τ} {fd : Int} {access : Nat}

/-- The calls that an access mode permits. -/
inductive Permitted (fd : Int) (access : Nat) : Call → Prop
  | read (count : Nat) (mode : access ≠ oWRONLY) : Permitted fd access (.host (.read fd count))
  | pread64 (count pos : Nat) (mode : access ≠ oWRONLY) :
      Permitted fd access (.host (.pread64 fd count pos))
  | write (buf : List Byte) (mode : access ≠ oRDONLY) : Permitted fd access (.host (.write fd buf))
  | pwrite64 (buf : List Byte) (offset : Nat) (mode : access ≠ oRDONLY) :
      Permitted fd access (.host (.pwrite64 fd buf offset))
  | alloc (size : Nat) : Permitted fd access (.host (.allocUntrusted size))
  | unmap (size : Nat) : Permitted fd access (.host (.unmapUntrusted size))
  | library (c : Call) (notHost : ∀ h, c ≠ .host h) : Permitted fd access c

/-- The description as `sgx_ocall_open` makes it. -/
def Description.relax (d : Description) : Description :=
  { d with access := oRDWR, append := false }

/-- `fd` has the asked access mode on the one side and may do everything on the other. -/
structure Relaxed (fd : Int) (access : Nat) (actual posix : PosixState × τ) : Prop where
  world : actual.2 = posix.2
  opened : ∃ d, posix.1.opened fd = some d ∧ d.access = access ∧
    (d.append = true → access = oRDONLY) ∧ actual.1 = posix.1.describe fd d.relax

theorem relaxed_step {openCall openCall' : PosixState → List Byte → Nat → Nat →
    HostResult × PosixState} (c : Call) (s s' : PosixState × τ) (permitted : Permitted fd access c)
    (relaxed : Relaxed fd access s s') :
    (serveHost openCall library s c).1 = (serveHost openCall' library s' c).1 ∧
      Relaxed fd access (serveHost openCall library s c).2 (serveHost openCall' library s' c).2 := by
  obtain ⟨actual, t⟩ := s
  obtain ⟨posix, t'⟩ := s'
  obtain ⟨world, d, at_fd, mode, append, actual_eq⟩ := relaxed
  dsimp only at world at_fd actual_eq
  subst world actual_eq mode
  have at_fd' : (posix.describe fd d.relax).opened fd = some d.relax := posix.opened_describe fd _
  have readable' : d.relax.access ≠ oWRONLY := show oRDWR ≠ oWRONLY by decide
  have writable' : d.relax.access ≠ oRDONLY := show oRDWR ≠ oRDONLY by decide
  cases permitted with
  | read count readable =>
    simp only [serveHost, posixHost, at_fd, at_fd', if_neg readable, if_neg readable']
    refine ⟨rfl, rfl, { d with pos := _ }, posix.opened_describe fd _, rfl, append, ?_⟩
    rw [PosixState.describe_describe, PosixState.describe_describe]
    rfl
  | pread64 count pos readable =>
    simp only [serveHost, posixHost, at_fd, at_fd', if_neg readable, if_neg readable']
    split
    · exact ⟨rfl, rfl, d, at_fd, rfl, append, rfl⟩
    · exact ⟨rfl, rfl, d, at_fd, rfl, append, rfl⟩
  | write buf writable =>
    have noAppend : d.append = false := Bool.eq_false_iff.mpr fun on => writable (append on)
    simp only [serveHost, posixHost, at_fd, at_fd', if_neg writable, if_neg writable', noAppend]
    refine ⟨trivial, rfl, ⟨d.path, _, d.access, false⟩, PosixState.opened_describe _ fd _, rfl,
      (fun on => nomatch on), ?_⟩
    rw [PosixState.store_describe, PosixState.describe_describe, PosixState.describe_describe]
    rfl
  | pwrite64 buf offset writable =>
    have noAppend : d.append = false := Bool.eq_false_iff.mpr fun on => writable (append on)
    simp only [serveHost, posixHost, at_fd, at_fd', if_neg writable, if_neg writable', noAppend]
    split
    · exact ⟨rfl, rfl, d, at_fd, rfl, append, rfl⟩
    · refine ⟨rfl, rfl, d, by rwa [PosixState.opened_store], rfl, append, ?_⟩
      rw [PosixState.store_describe]
      rfl
  | alloc size => exact ⟨rfl, rfl, d, at_fd, rfl, append, rfl⟩
  | unmap size => exact ⟨rfl, rfl, d, at_fd, rfl, append, rfl⟩
  | library c notHost =>
    cases c with
    | host h => exact absurd rfl (notHost h)
    | _ => exact ⟨rfl, rfl, d, at_fd, rfl, append, rfl⟩

/-! ## The calls of the operations -/

variable {errno : Nat} {d : NaClHostDesc}

theorem permitted_withUntrustedBuf {limit count : Nat} {body : HostTree Reply}
    (all : AllCalls (Permitted fd access) body) :
    AllCalls (Permitted fd access) (withUntrustedBuf limit count body) := by
  have alloc : AllCalls (Permitted fd access) (sgxOcall (.allocUntrusted (allocAlignup count))) :=
    AllCalls.perform (.alloc _)
  have unmap : AllCalls (Permitted fd access) (sgxOcall (.unmapUntrusted (allocAlignup count))) :=
    AllCalls.perform (.unmap _)
  refine AllCalls.ite (alloc.bind fun _ => AllCalls.ite (AllCalls.pure ..) ?_) all
  exact all.bind fun _ => AllCalls.ite (unmap.bind fun _ => AllCalls.pure ..) (AllCalls.pure ..)

theorem permitted_ocallRead (readable : access ≠ oWRONLY) (count : Nat) :
    AllCalls (Permitted fd access) (ocallRead fd count) :=
  permitted_withUntrustedBuf ((AllCalls.perform (.read _ readable)).bind fun _ =>
    AllCalls.ite (AllCalls.ite (AllCalls.pure ..) (AllCalls.pure ..)) (AllCalls.pure ..))

theorem permitted_ocallWrite (writable : access ≠ oRDONLY) (buf : List Byte) :
    AllCalls (Permitted fd access) (ocallWrite fd buf) :=
  permitted_withUntrustedBuf ((AllCalls.perform (.write _ writable)).bind fun _ =>
    AllCalls.ite (AllCalls.pure ..) (AllCalls.pure ..))

theorem permitted_library {c : Call} (notHost : ∀ h, c ≠ .host h) :
    AllCalls (Permitted fd access) (CallTree.perform c : HostTree Reply) :=
  AllCalls.perform (.library c notHost)

theorem permitted_read (len : Nat) :
    AllCalls (Permitted d.d (d.flags &&& accMode)) (naClHostDescRead errno d len) := by
  rw [naClHostDescRead, checkValidity_bind]
  refine AllCalls.ite trivial ?_
  split
  · exact AllCalls.pure ..
  · next readable =>
    split
    · exact (permitted_ocallRead readable len).bind fun _ =>
        AllCalls.ite (AllCalls.pure ..) (AllCalls.pure ..)
    · next key iv _ =>
      refine (permitted_library (by simp)).bind fun input => (permitted_library (by simp)).bind
        fun _ => (permitted_ocallRead readable len).bind fun retlen => ?_
      refine AllCalls.ite (AllCalls.pure ..) ((permitted_library (by simp)).bind fun _ => ?_)
      refine AllCalls.ite (AllCalls.pure ..) ((permitted_library (by simp)).bind fun _ => ?_)
      exact AllCalls.ite (AllCalls.pure ..) (AllCalls.pure ..)

theorem permitted_write (buf : List Byte) :
    AllCalls (Permitted d.d (d.flags &&& accMode)) (naClHostDescWrite errno d buf) := by
  rw [naClHostDescWrite, checkValidity_bind]
  refine AllCalls.ite trivial ?_
  split
  · exact AllCalls.pure ..
  · next writable =>
    split
    · exact (permitted_ocallWrite writable buf).bind fun _ =>
        AllCalls.ite (AllCalls.pure ..) (AllCalls.pure ..)
    · refine (permitted_library (by simp)).bind fun _ => AllCalls.ite (AllCalls.pure ..) ?_
      refine (permitted_library (by simp)).bind fun _ => AllCalls.ite (AllCalls.pure ..) ?_
      refine (permitted_library (by simp)).bind fun output => ?_
      exact (permitted_ocallWrite writable output.data).bind fun _ =>
        AllCalls.ite (AllCalls.pure ..) (AllCalls.pure ..)

theorem permitted_pread (len : Nat) (offset : Int) :
    AllCalls (Permitted d.d (d.flags &&& accMode)) (naClHostDescPRead errno d len offset) := by
  rw [naClHostDescPRead, checkValidity_bind]
  refine AllCalls.ite trivial ?_
  split
  · exact AllCalls.pure ..
  · next readable =>
    have pread : AllCalls (Permitted d.d (d.flags &&& accMode)) (ocallPread64 d.d len offset) :=
      permitted_withUntrustedBuf ((AllCalls.perform (.pread64 _ _ readable)).bind fun _ =>
        AllCalls.ite (AllCalls.pure ..) (AllCalls.pure ..))
    exact pread.bind fun _ => AllCalls.ite (AllCalls.pure ..) (AllCalls.pure ..)

/-- A descriptor that may be written is not in append mode, so `fcntl` is not called. -/
theorem permitted_pwrite (unused : AppendUnused d.flags) (buf : List Byte) (offset : Int) :
    AllCalls (Permitted d.d (d.flags &&& accMode)) (naClHostDescPWrite errno d buf offset) := by
  rw [naClHostDescPWrite, checkValidity_bind]
  refine AllCalls.ite trivial ?_
  split
  · exact AllCalls.pure ..
  · next writable =>
    have pwrite : AllCalls (Permitted d.d (d.flags &&& accMode)) (ocallPwrite64 d.d buf offset) :=
      permitted_withUntrustedBuf (AllCalls.perform (.pwrite64 _ _ writable))
    rw [if_neg fun append => writable (unused append)]
    exact pwrite.bind fun _ => AllCalls.ite (AllCalls.pure ..) (AllCalls.pure ..)

theorem permitted_performAll (unused : AppendUnused d.flags) (ops : List FileOp) :
    AllCalls (Permitted d.d (d.flags &&& accMode)) (performAll errno d ops) := by
  induction ops with
  | nil => exact AllCalls.pure ..
  | cons op ops ih =>
    have one : AllCalls (Permitted d.d (d.flags &&& accMode)) (op.tree errno d) := by
      cases op with
      | read len => exact permitted_read len
      | write buf => exact (permitted_write buf).bind fun _ => AllCalls.pure ..
      | pread len offset => exact permitted_pread len offset
      | pwrite buf offset => exact (permitted_pwrite unused buf offset).bind fun _ => AllCalls.pure ..
    exact one.bind fun _ => ih.bind fun _ => AllCalls.pure ..

end Modes

/-! ## The two ways to open -/

section Open

variable {τ : Type} {library : τ → Call → Reply × τ} {t : τ} {errno : Nat}
  {ctx : Option DescCTX} {path : List Byte} {flags mode : Nat}

theorem replyStatus_outcome (data : List Byte) :
    replyStatus data = CallTree.abort ∨ ∃ status, replyStatus data = pure status := by
  rw [replyStatus]
  split
  · exact Or.inl rfl
  · split
    · exact Or.inr ⟨_, rfl⟩
    · exact Or.inr ⟨_, rfl⟩

/-- The monitor's answer, and then the branches of the code. -/
theorem run_naClHostDescOpen (openCall) (s : PosixState) (d : NaClHostDesc) :
    (naClHostDescOpen errno d path flags mode).run (serveHost openCall library) (s, t) =
      ((replyStatus (library t (.askMonitor (statusQuery path))).1.data >>= fun status =>
        match status with
        | none => CallTree.abort
        | some status => if status = statusA then openAllowed errno d path flags mode
          else pure (-1, d)).run (serveHost openCall library)
        (s, (library t (.askMonitor (statusQuery path))).2)) := rfl

/-- The key, and the state of the world behind the exchange for it. -/
def keyFetched (library : τ → Call → Reply × τ) (t : τ) (path : List Byte) (flags : Nat) : Reply × τ :=
  library (library (library t .naClGetTimeOfDay).2 (.sendTracelog path flags)).2 .redisGetKey

/-- The descriptor with the key in its context. -/
def withFetched (d : NaClHostDesc) (key : Reply) : NaClHostDesc :=
  { d with descCtx := d.descCtx.map fun ctx => ctx.withKey key }

theorem run_openAllowed (openCall) (s : PosixState) (d : NaClHostDesc)
    (clock : (library t .naClGetTimeOfDay).1.ret = 0) :
    (openAllowed errno d path flags mode).run (serveHost openCall library) (s, t) =
      (if flags &&& naClAllowedOpenFlags ≠ flags then
          pure (-naClAbiEINVAL, withFetched d (keyFetched library t path flags).1)
        else if flags &&& accMode = accMode then
          pure (-naClAbiEINVAL, withFetched d (keyFetched library t path flags).1)
        else do
          let hostDesc ← ocallOpen path (naClMapOpenFlags flags ||| oLARGEFILE) (naClMapOpenPerm mode)
          if hostDesc.ret = -1 then
            pure (negXlate errno, withFetched d (keyFetched library t path flags).1)
          else
            pure (0, { withFetched d (keyFetched library t path flags).1 with
              d := hostDesc.ret, flags := flags }) :
        HostTree (Int × NaClHostDesc)).run (serveHost openCall library)
        (s, (keyFetched library t path flags).2) := by
  rw [openAllowed, CallTree.perform_bind, CallTree.run_call, serveHost,
    if_neg (not_not.mpr clock)]
  · rfl
  · intro c eq
    cases eq

/-- In front of the open the two hosts are not asked. -/
theorem run_openAllowed_of_refused (d : NaClHostDesc)
    (refused : (library t .naClGetTimeOfDay).1.ret ≠ 0 ∨ ¬ FlagsAllowed flags) :
    ∃ ret d' t', d'.d = d.d ∧ ∀ openCall s, (openAllowed errno d path flags mode).run
      (serveHost openCall library) (s, t) = (some (ret, d'), (s, t')) := by
  by_cases clock : (library t .naClGetTimeOfDay).1.ret = 0
  · have notAllowed := refused.resolve_left (not_not.mpr clock)
    refine ⟨-naClAbiEINVAL, withFetched d (keyFetched library t path flags).1,
      (keyFetched library t path flags).2, rfl, fun openCall s => ?_⟩
    rw [run_openAllowed openCall s d clock]
    by_cases known : flags &&& naClAllowedOpenFlags = flags
    · have access : flags &&& accMode = accMode :=
        not_not.mp fun access => notAllowed ⟨known, access⟩
      rw [if_neg (not_not.mpr known), if_pos access]
      rfl
    · rw [if_pos known]
      rfl
  · refine ⟨(library t .naClGetTimeOfDay).1.ret, d, (library t .naClGetTimeOfDay).2, rfl,
      fun openCall s => ?_⟩
    rw [openAllowed, CallTree.perform_bind, CallTree.run_call, serveHost, if_pos clock]
    · rfl
    · intro c eq
      cases eq

theorem run_open_of_not_reached (refused : ¬ OpenReached library t path flags) :
    ∃ outcome t', (∀ ret d, outcome = some (ret, d) → NaClHostDesc.d d = -1) ∧
      ∀ openCall s, (naClHostDescOpen errno ⟨-1, 0, ctx⟩ path flags mode).run
        (serveHost openCall library) (s, t) = (outcome, (s, t')) := by
  cases replyStatus_outcome (library t (.askMonitor (statusQuery path))).1.data with
  | inl aborts =>
    refine ⟨none, (library t (.askMonitor (statusQuery path))).2, (fun _ _ eq => nomatch eq),
      fun openCall s => ?_⟩
    rw [run_naClHostDescOpen, aborts]
    rfl
  | inr found =>
    obtain ⟨status, found⟩ := found
    cases status with
    | none =>
      refine ⟨none, (library t (.askMonitor (statusQuery path))).2, (fun _ _ eq => nomatch eq),
        fun openCall s => ?_⟩
      rw [run_naClHostDescOpen, found]
      rfl
    | some status =>
      by_cases granted : status = statusA
      · subst granted
        have behind : (library (library t (.askMonitor (statusQuery path))).2
            .naClGetTimeOfDay).1.ret ≠ 0 ∨ ¬ FlagsAllowed flags :=
          not_and_or.mp fun both => refused ⟨found, both.1, both.2⟩
        obtain ⟨ret, d', t', closed, run⟩ :=
          @run_openAllowed_of_refused _ library _ errno path flags mode ⟨-1, 0, ctx⟩ behind
        refine ⟨some (ret, d'), t', ?_, fun openCall s => ?_⟩
        · intro ret' d same
          cases same
          exact closed
        · rw [run_naClHostDescOpen, found]
          exact run openCall s
      · refine ⟨some (-1, ⟨-1, 0, ctx⟩), (library t (.askMonitor (statusQuery path))).2, ?_,
          fun openCall s => ?_⟩
        · intro ret d same
          cases same
          rfl
        · rw [run_naClHostDescOpen, found, CallTree.pure_bind_eq]
          dsimp only
          rw [if_neg granted]
          rfl

/-- What `NaClHostDescOpen` makes of the host's result. -/
def openResult (errno : Nat) (ctx : Option DescCTX) (flags : Nat) : HostResult → Int × NaClHostDesc
  | .ok fd _ => if cInt fd = -1 then (negXlate errno, ⟨-1, 0, ctx⟩) else (0, ⟨cInt fd, flags, ctx⟩)
  | .fail _ => (negXlate errno, ⟨-1, 0, ctx⟩)

theorem openResult_eq (errno : Nat) (ctx : Option DescCTX) (flags posixFlags mode : Nat)
    (path : List Byte) (r : HostResult) : openResult errno ctx flags r =
      if (untrustedReply (.open path posixFlags mode) r).ret = -1 then (negXlate errno, ⟨-1, 0, ctx⟩)
      else (0, ⟨(untrustedReply (.open path posixFlags mode) r).ret, flags, ctx⟩) := by
  cases r with
  | ok fd data => rfl
  | fail e => rfl

theorem run_open_of_reached (reached : OpenReached library t path flags) :
    ∃ ctx' t', ∀ openCall s, (naClHostDescOpen errno ⟨-1, 0, ctx⟩ path flags mode).run
      (serveHost openCall library) (s, t) = (some (openResult errno ctx' flags
          (openCall s path (flags ||| oLARGEFILE) (mode &&& 0o600)).1),
        ((openCall s path (flags ||| oLARGEFILE) (mode &&& 0o600)).2, t')) := by
  refine ⟨(withFetched ⟨-1, 0, ctx⟩ (keyFetched library
    (library t (.askMonitor (statusQuery path))).2 path flags).1).descCtx,
    (keyFetched library (library t (.askMonitor (statusQuery path))).2 path flags).2,
    fun openCall s => ?_⟩
  have width : (mode &&& 0o600) % 2 ^ 16 = mode &&& 0o600 :=
    Nat.mod_eq_of_lt (Nat.lt_of_le_of_lt Nat.and_le_right (by decide))
  have host (t' : τ) : (ocallOpen path (flags ||| oLARGEFILE) (mode &&& 0o600)).run
      (serveHost openCall library) (s, t') =
      (some (untrustedReply (.open path (flags ||| oLARGEFILE) (mode &&& 0o600))
        (openCall s path (flags ||| oLARGEFILE) (mode &&& 0o600)).1),
        ((openCall s path (flags ||| oLARGEFILE) (mode &&& 0o600)).2, t')) := by
    rw [ocallOpen, width]
    rfl
  rw [run_naClHostDescOpen, reached.granted, CallTree.pure_bind_eq]
  dsimp only
  rw [if_pos rfl, run_openAllowed openCall s _ reached.clock,
    if_neg (not_not.mpr reached.allowed.1), if_neg reached.allowed.2, naClMapOpenFlags,
    reached.allowed.1, naClMapOpenPerm, run_bind_of_some (host _),
    openResult_eq errno _ flags (flags ||| oLARGEFILE) (mode &&& 0o600) path]
  split
  · rfl
  · rfl

end Open

/-! ## Comparing the two files -/

section Compare

variable {s : PosixState} {path : List Byte} {flags mode : Nat}

theorem and_largefile (flags : Nat) {bits : Nat} (apart : oLARGEFILE &&& bits = 0) :
    (flags ||| oLARGEFILE) &&& bits = flags &&& bits := by
  rw [Nat.and_or_distrib_right, apart, Nat.or_zero]

theorem fileAfterOpen_mapped (s : PosixState) (path : List Byte) (flags mode : Nat) :
    fileAfterOpen s path (flags ||| oLARGEFILE) (mode &&& 0o600) =
      fileAfterOpen s path flags mode := by
  have read : mode &&& 0o600 &&& 0o400 = mode &&& 0o400 := Nat.and_assoc ..
  have write : mode &&& 0o600 &&& 0o200 = mode &&& 0o200 := Nat.and_assoc ..
  have creat := and_largefile flags (show oLARGEFILE &&& oCREAT = 0 by decide)
  have excl := and_largefile flags (show oLARGEFILE &&& oEXCL = 0 by decide)
  have trunc := and_largefile flags (show oLARGEFILE &&& oTRUNC = 0 by decide)
  have access := and_largefile flags (show oLARGEFILE &&& accMode = 0 by decide)
  rw [fileAfterOpen, fileAfterOpen]
  cases s.file path with
  | none => rw [read, write, creat]
  | some f =>
    have denies : f.denies (flags ||| oLARGEFILE) = f.denies flags := by
      rw [HostFile.denies, HostFile.denies, access, trunc]
    dsimp only
    rw [creat, excl, trunc, denies]

/-- The file behind `open(O_RDWR|O_CREAT, 0666)`. -/
def relaxedFile (s : PosixState) (path : List Byte) : Option HostFile :=
  if s.fdLimit ≤ s.nextFd then none
  else
    match s.file path with
    | none => if s.mayCreate path = true then some ⟨[], true, true⟩ else none
    | some f => if f.mayRead ∧ f.mayWrite then some f else none

theorem fileAfterOpen_relaxed (s : PosixState) (path : List Byte) :
    fileAfterOpen s path (oRDWR ||| oCREAT) 0o666 = relaxedFile s path := by
  rw [fileAfterOpen, relaxedFile]
  split
  · rfl
  · cases s.file path with
    | none =>
      cases s.mayCreate path with
      | true => rfl
      | false => rfl
    | some f =>
      obtain ⟨contents, mayRead, mayWrite⟩ := f
      cases mayRead with
      | true =>
        cases mayWrite with
        | true => rfl
        | false => rfl
      | false => rfl

theorem sameOpen_iff : (s.nextFd < s.fdLimit → SameOpen s path flags mode) ↔
    relaxedFile s path = fileAfterOpen s path flags mode ∧
      ((relaxedFile s path).isSome → AppendUnused flags) := by
  rw [relaxedFile, fileAfterOpen]
  by_cases full : s.fdLimit ≤ s.nextFd
  · rw [if_pos full, if_pos full]
    exact iff_of_true (fun free => absurd full (Nat.not_le_of_lt free))
      ⟨rfl, fun some => absurd some Bool.false_ne_true⟩
  · rw [if_neg full, if_neg full, SameOpen]
    have free : s.nextFd < s.fdLimit := Nat.lt_of_not_le full
    cases s.file path with
    | none =>
      dsimp only
      by_cases mayCreate : s.mayCreate path = true
      · by_cases creates : flags &&& oCREAT = 0
        · rw [if_pos mayCreate, if_pos (Or.inl creates)]
          exact iff_of_false (fun same => (same free mayCreate).1 creates)
            fun same => by cases same.1
        · rw [if_pos mayCreate, if_neg (by simp [creates, mayCreate])]
          simp [free, mayCreate, creates]
      · have refused : s.mayCreate path = false := Bool.eq_false_iff.mpr mayCreate
        rw [if_neg mayCreate, if_pos (Or.inr refused)]
        exact iff_of_true (fun _ may => absurd may mayCreate) ⟨rfl, fun some => absurd some Bool.false_ne_true⟩
    | some f =>
      dsimp only
      by_cases granted : f.mayRead = true ∧ f.mayWrite = true
      · have grants : f.denies flags = false := by
          rw [HostFile.denies, granted.1, granted.2]
          simp
        rw [if_pos granted, if_pos granted]
        by_cases exclusive : flags &&& oCREAT ≠ 0 ∧ flags &&& oEXCL ≠ 0
        · rw [if_pos (Or.inl exclusive)]
          exact iff_of_false (fun same => (same free).1 exclusive) fun same => by cases same.1
        · rw [if_neg (by simp [exclusive, grants])]
          obtain ⟨contents, mayRead, mayWrite⟩ := f
          by_cases trunc : flags &&& oTRUNC = 0
          · simp [free, exclusive, trunc]
          · simp [free, exclusive, trunc]
      · rw [if_neg granted, if_neg granted]
        by_cases refused : (flags &&& oCREAT ≠ 0 ∧ flags &&& oEXCL ≠ 0) ∨ f.denies flags = true
        · rw [if_pos refused]
          exact iff_of_true (fun _ => refused) ⟨rfl, fun some => absurd some Bool.false_ne_true⟩
        · rw [if_neg refused]
          exact iff_of_false (fun same => refused (same free)) fun same => by cases same.1

end Compare

/-! ## Whole sessions -/

section Sessions

variable {τ : Type} {library : τ → Call → Reply × τ} {s : PosixState} {t : τ} {errno : Nat}
  {ctx ctx' : Option DescCTX} {path : List Byte} {flags mode : Nat}

/-- A session goes on with the descriptor that the open left. -/
theorem run_session {openCall} {ret : Int} {d : NaClHostDesc} {after : PosixState × τ}
    (opened : (naClHostDescOpen errno ⟨-1, 0, ctx⟩ path flags mode).run
      (serveHost openCall library) (s, t) = (some (ret, d), after)) (ops : List FileOp) :
    (session errno ctx path flags mode ops).run (serveHost openCall library) (s, t) =
      if d.d = -1 then (some (ret, d, []), after)
      else (((performAll errno d ops).run (serveHost openCall library) after).1.map
          fun results => (ret, d, results),
        ((performAll errno d ops).run (serveHost openCall library) after).2) := by
  rw [session, run_bind_of_some opened]
  dsimp only
  split
  · rfl
  · rw [run_bind]
    generalize (performAll errno d ops).run (serveHost openCall library) after = done
    obtain ⟨results, state⟩ := done
    cases results with
    | none => rfl
    | some results => rfl

theorem run_session_of_none {openCall} {after : PosixState × τ}
    (aborts : (naClHostDescOpen errno ⟨-1, 0, ctx⟩ path flags mode).run
      (serveHost openCall library) (s, t) = (none, after)) (ops : List FileOp) :
    (session errno ctx path flags mode ops).run (serveHost openCall library) (s, t) =
      (none, after) := by
  rw [session, run_bind, aborts]

theorem honoured_of_not_reached (refused : ¬ OpenReached library t path flags) :
    FlagsHonoured library s t errno ctx path flags mode := by
  obtain ⟨outcome, t', closed, run⟩ :=
    @run_open_of_not_reached _ library t errno ctx path flags mode refused
  intro ops
  dsimp only
  cases outcome with
  | none =>
    rw [run_session_of_none (run sgxOcallOpen s), run_session_of_none (run posixOpen s)]
    exact ⟨rfl, rfl⟩
  | some result =>
    rw [run_session (run sgxOcallOpen s), run_session (run posixOpen s), if_pos (closed _ _ rfl),
      if_pos (closed _ _ rfl)]
    exact ⟨rfl, rfl⟩

theorem openResult_installed (free : s.nextFd < s.fdLimit) (data : List Byte) :
    openResult errno ctx flags (.ok s.nextFd data) = (0, ⟨s.nextFd, flags, ctx⟩) := by
  rw [openResult, cInt_of_lt (Nat.lt_trans free s.fdLimit_lt), if_neg (by omega)]

/-- Both sides install the file; their descriptions are related. -/
theorem relaxed_install {f : HostFile} (unused : AppendUnused flags) (t : τ) :
    Relaxed s.nextFd (flags &&& accMode) (((s.put path f).install path (oRDWR ||| oCREAT)).2, t)
      (((s.put path f).install path (flags ||| oLARGEFILE)).2, t) := by
  have access := and_largefile flags (show oLARGEFILE &&& accMode = 0 by decide)
  have append := and_largefile flags (show oLARGEFILE &&& oAPPEND = 0 by decide)
  refine ⟨rfl, ⟨path, 0, flags &&& accMode, flags &&& oAPPEND ≠ 0⟩, ?_, rfl, ?_, ?_⟩
  · rw [PosixState.install, access, append]
    exact PosixState.opened_describe _ _ _
  · exact fun on => unused (of_decide_eq_true on)
  · rw [PosixState.install, PosixState.install, access, append]
    have fd : (s.put path f).nextFd = s.nextFd := rfl
    simp only [PosixState.describe, fd, Function.update_idem]
    rfl

/-- What a session is behind the gate: it ends at once, or uses the file it has installed. -/
structure Reaches (library : τ → Call → Reply × τ) (s : PosixState) (t t' : τ) (errno : Nat)
    (ctx ctx' : Option DescCTX) (path : List Byte) (flags mode : Nat)
    (openCall : PosixState → List Byte → Nat → Nat → HostResult × PosixState)
    (posixFlags posixMode : Nat) : Prop where
  fails : fileAfterOpen s path posixFlags posixMode = none → ∀ ops,
    (session errno ctx path flags mode ops).run (serveHost openCall library) (s, t) =
      (some (negXlate errno, ⟨-1, 0, ctx'⟩, []), (s, t'))
  opens : ∀ f, fileAfterOpen s path posixFlags posixMode = some f → s.nextFd < s.fdLimit ∧ ∀ ops,
    let done := (performAll errno ⟨s.nextFd, flags, ctx'⟩ ops).run (serveHost openCall library)
      (((s.put path f).install path posixFlags).2, t')
    (session errno ctx path flags mode ops).run (serveHost openCall library) (s, t) =
      (done.1.map fun results => (0, ⟨s.nextFd, flags, ctx'⟩, results), done.2)

theorem reaches_of_run {openCall posixFlags posixMode} {t' : τ}
    (run : (naClHostDescOpen errno ⟨-1, 0, ctx⟩ path flags mode).run (serveHost openCall library)
        (s, t) = (some (openResult errno ctx' flags (posixOpen s path posixFlags posixMode).1),
        ((posixOpen s path posixFlags posixMode).2, t'))) :
    Reaches library s t t' errno ctx ctx' path flags mode openCall posixFlags posixMode where
  fails := fun none ops => by
    obtain ⟨e, failed⟩ := posixOpen_of_none none
    rw [failed] at run
    exact run_session run ops
  opens := fun f some => by
    obtain ⟨free, opened⟩ := posixOpen_of_some some
    rw [opened, show ((s.put path f).install path posixFlags).1 = .ok s.nextFd [] from rfl,
      openResult_installed free] at run
    refine ⟨free, fun ops => ?_⟩
    rw [run_session run ops, if_neg (by dsimp only; omega)]

theorem exists_reaches (reached : OpenReached library t path flags) : ∃ ctx' t', ∀ s,
    Reaches library s t t' errno ctx ctx' path flags mode sgxOcallOpen (oRDWR ||| oCREAT) 0o666 ∧
    Reaches library s t t' errno ctx ctx' path flags mode posixOpen (flags ||| oLARGEFILE)
      (mode &&& 0o600) := by
  obtain ⟨ctx', t', run⟩ := @run_open_of_reached _ library t errno ctx path flags mode reached
  exact ⟨ctx', t', fun s => ⟨reaches_of_run (run sgxOcallOpen s), reaches_of_run (run posixOpen s)⟩⟩

theorem honoured_of_alike (reached : OpenReached library t path flags)
    (alike : relaxedFile s path = fileAfterOpen s path flags mode)
    (unused : (relaxedFile s path).isSome → AppendUnused flags) :
    FlagsHonoured library s t errno ctx path flags mode := by
  obtain ⟨ctx', t', reaches⟩ := @exists_reaches _ library t errno ctx path flags mode reached
  obtain ⟨actual, posix⟩ := reaches s
  rw [← fileAfterOpen_mapped, ← fileAfterOpen_relaxed] at alike
  rw [← fileAfterOpen_relaxed] at unused
  intro ops
  dsimp only
  cases file : fileAfterOpen s path (oRDWR ||| oCREAT) 0o666 with
  | none =>
    rw [actual.fails file, posix.fails (alike ▸ file)]
    exact ⟨rfl, rfl⟩
  | some f =>
    rw [file] at unused
    obtain ⟨_, actualRun⟩ := actual.opens f file
    obtain ⟨_, posixRun⟩ := posix.opens f (alike ▸ file)
    rw [actualRun, posixRun]
    obtain ⟨results, related⟩ := AllCalls.run_related relaxed_step
      (@permitted_performAll errno ⟨s.nextFd, flags, ctx'⟩ (unused rfl) ops)
      (relaxed_install (unused rfl) t')
    dsimp only
    rw [results]
    obtain ⟨d, _, _, _, same⟩ := related.opened
    exact ⟨rfl, by rw [same]; rfl⟩

theorem testFlag_append {access : Nat} (small : access < 4) (append : Bool) :
    testFlag (cInt ((access + if append then oAPPEND else 0 : Nat) : Int)) oAPPEND = append := by
  have range : (access + if append then oAPPEND else 0) < 2 ^ 31 := by
    rw [oAPPEND]
    split <;> omega
  rw [cInt_of_lt range]
  have modes : access = 0 ∨ access = 1 ∨ access = 2 ∨ access = 3 := by omega
  rcases modes with rfl | rfl | rfl | rfl <;> cases append <;> decide

/-- Setting the flags of an open descriptor succeeds. -/
theorem run_setfl {openCall} {state : PosixState} {t : τ} {fd : Int} {d : Description}
    (at_fd : state.opened fd = some d) (args : Int) : ∃ state' d', state'.opened fd = some d' ∧
      (ocallFcntl fd fSETFL args).run (serveHost openCall library) (state, t) =
        (some { ret := 0 }, (state', t)) := by
  refine ⟨state.describe fd { d with append := testFlag args oAPPEND }, _,
    PosixState.opened_describe .., ?_⟩
  have zero : cInt ((0 : Nat) : Int) = 0 := cInt_of_lt (by decide)
  rw [ocallFcntl, sgxOcall, CallTree.perform, CallTree.run_call, serveHost]
  simp only [posixHost, at_fd]
  rw [if_neg (by decide), if_pos trivial, untrustedReply, zero]
  · rfl
  · intro size eq
    cases eq

theorem run_pwrite64 {openCall} (state : PosixState) (t : τ) (fd : Int) : ∃ reply state',
    state'.opened = state.opened ∧ (ocallPwrite64 fd [] 0).run (serveHost openCall library)
      (state, t) = (some reply, (state', t)) := by
  rw [ocallPwrite64, withUntrustedBuf, if_neg (by decide), sgxOcall, CallTree.perform,
    CallTree.run_call, serveHost]
  refine ⟨_, _, ?_, rfl⟩
  dsimp only [posixHost]
  split
  · rfl
  · split
    · rfl
    · split
      · rfl
      · exact PosixState.opened_store ..

/-- The first `fcntl` of a positional write reports the append mode of the description. -/
theorem run_appendPwrite {openCall} {state : PosixState} {t : τ} {fd : Nat} {d : Description}
    (writable : flags &&& accMode ≠ oRDONLY) (append : flags &&& oAPPEND ≠ 0)
    (at_fd : state.opened fd = some d) (access : d.access < 4) :
    ((naClHostDescPWrite errno ⟨fd, flags, ctx⟩ [] 0).run (serveHost openCall library)
      (state, t)).1.isSome = d.append := by
  have getfl : (ocallFcntl fd fGETFL 0).run (serveHost openCall library) (state, t) =
      (some { ret := cInt ((d.access + if d.append then oAPPEND else 0 : Nat) : Int) },
        (state, t)) := by
    rw [ocallFcntl, sgxOcall, CallTree.perform, CallTree.run_call, serveHost]
    simp only [posixHost, at_fd]
    rw [if_pos trivial]
    rfl
  rw [naClHostDescPWrite, checkValidity_bind, if_neg (by dsimp only; omega), if_neg writable,
    if_pos append, run_bind_of_some getfl, testFlag_append access]
  by_cases on : d.append = true
  · rw [on, if_neg (by decide)]
    obtain ⟨state₁, d₁, at_fd₁, cleared⟩ := @run_setfl _ library openCall state t fd d at_fd
      (clearFlag (cInt ((d.access + if d.append then oAPPEND else 0 : Nat) : Int)) oAPPEND)
    obtain ⟨reply, state₂, opened₂, written⟩ := @run_pwrite64 _ library openCall state₁ t fd
    obtain ⟨state₃, d₃, at_fd₃, restored⟩ := @run_setfl _ library openCall state₂ t fd d₁
      (by rw [opened₂, at_fd₁])
      (cInt ((d.access + if d.append then oAPPEND else 0 : Nat) : Int))
    rw [on] at cleared restored
    rw [run_bind_of_some cleared, if_neg (by decide), run_bind_of_some written,
      run_bind_of_some restored, if_neg (by decide)]
    split <;> rfl
  · rw [if_pos (Bool.eq_false_iff.mpr on), Bool.eq_false_iff.mpr on]
    rfl

theorem isSome_run_performAll_pwrite {openCall} (d : NaClHostDesc) (state : PosixState × τ) :
    ((performAll errno d [.pwrite [] 0]).run (serveHost openCall library) state).1.isSome =
      ((naClHostDescPWrite errno d [] 0).run (serveHost openCall library) state).1.isSome := by
  rw [performAll, FileOp.tree, CallTree.bind_assoc_eq, run_bind]
  generalize (naClHostDescPWrite errno d [] 0).run (serveHost openCall library) state = done
  obtain ⟨result, state'⟩ := done
  cases result with
  | none => rfl
  | some result => rfl

/-- An empty positional write in append mode stops on the host of `sgx_ocall_open` only. -/
theorem appendUnused_of_honoured {f : HostFile} (reached : OpenReached library t path flags)
    (actual_file : relaxedFile s path = some f)
    (posix_file : fileAfterOpen s path flags mode = some f)
    (honoured : FlagsHonoured library s t errno ctx path flags mode) : AppendUnused flags := by
  obtain ⟨ctx', t', reaches⟩ := @exists_reaches _ library t errno ctx path flags mode reached
  obtain ⟨actual, posix⟩ := reaches s
  rw [← fileAfterOpen_relaxed] at actual_file
  rw [← fileAfterOpen_mapped] at posix_file
  intro append
  by_contra writable
  have same := (honoured [.pwrite [] 0]).1
  rw [(actual.opens f actual_file).2, (posix.opens f posix_file).2] at same
  have survives := congrArg Option.isSome same
  have small (flags : Nat) : flags &&& accMode < 4 :=
    Nat.lt_of_le_of_lt Nat.and_le_right (by decide)
  have posixAppend : decide ((flags ||| oLARGEFILE) &&& oAPPEND ≠ 0) = true := by
    rw [and_largefile flags (by decide)]
    exact decide_eq_true append
  have actualRun := @run_appendPwrite _ library errno ctx' flags sgxOcallOpen
    ((s.put path f).install path (oRDWR ||| oCREAT)).2 t' s.nextFd _ writable append
    (PosixState.opened_describe ..) (small _)
  have posixRun := @run_appendPwrite _ library errno ctx' flags posixOpen
    ((s.put path f).install path (flags ||| oLARGEFILE)).2 t' s.nextFd _ writable append
    (PosixState.opened_describe ..) (small _)
  dsimp only at survives
  rw [Option.isSome_map, Option.isSome_map, isSome_run_performAll_pwrite,
    isSome_run_performAll_pwrite, actualRun, posixRun, posixAppend] at survives
  exact absurd survives (show ¬ false = true by decide)

theorem alike_of_honoured (reached : OpenReached library t path flags)
    (honoured : FlagsHonoured library s t errno ctx path flags mode) :
    relaxedFile s path = fileAfterOpen s path flags mode ∧
      ((relaxedFile s path).isSome → AppendUnused flags) := by
  obtain ⟨ctx', t', reaches⟩ := @exists_reaches _ library t errno ctx path flags mode reached
  obtain ⟨actual, posix⟩ := reaches s
  have opened := honoured []
  dsimp only at opened
  have alike : relaxedFile s path = fileAfterOpen s path flags mode := by
    rw [← fileAfterOpen_mapped, ← fileAfterOpen_relaxed]
    cases actual_file : fileAfterOpen s path (oRDWR ||| oCREAT) 0o666 with
    | none =>
      cases posix_file : fileAfterOpen s path (flags ||| oLARGEFILE) (mode &&& 0o600) with
      | none => rfl
      | some g =>
        rw [actual.fails actual_file, (posix.opens g posix_file).2] at opened
        have descriptors := congrArg (Option.map fun result => result.2.1.d) opened.1
        exact absurd (Option.some.inj descriptors) (by dsimp only; omega)
    | some f =>
      cases posix_file : fileAfterOpen s path (flags ||| oLARGEFILE) (mode &&& 0o600) with
      | none =>
        rw [(actual.opens f actual_file).2, posix.fails posix_file] at opened
        have descriptors := congrArg (Option.map fun result => result.2.1.d) opened.1
        exact absurd (Option.some.inj descriptors) (by dsimp only; omega)
      | some g =>
        rw [(actual.opens f actual_file).2, (posix.opens g posix_file).2] at opened
        have here : (s.put path f).file path = (s.put path g).file path := congrFun opened.2 path
        rwa [PosixState.file_put, PosixState.file_put] at here
  refine ⟨alike, fun some => ?_⟩
  obtain ⟨f, actual_file⟩ := Option.isSome_iff_exists.mp some
  exact appendUnused_of_honoured reached actual_file (alike ▸ actual_file) honoured

/-- The flags are honoured exactly when the open does not get to the host, or no descriptor is
    free there, or `open(O_RDWR|O_CREAT, 0666)` does what was asked for. -/
theorem flagsHonoured_iff {τ : Type} (library : τ → Call → Reply × τ) (s : PosixState) (t : τ)
    (errno : Nat) (ctx : Option DescCTX) (path : List Byte) (flags mode : Nat) :
    FlagsHonoured library s t errno ctx path flags mode ↔
      (OpenReached library t path flags → s.nextFd < s.fdLimit → SameOpen s path flags mode) := by
  by_cases reached : OpenReached library t path flags
  · constructor
    · intro honoured _
      exact sameOpen_iff.mpr (alike_of_honoured reached honoured)
    · intro same
      obtain ⟨alike, unused⟩ := sameOpen_iff.mp (same reached)
      exact honoured_of_alike reached alike unused
  · exact iff_of_true (honoured_of_not_reached reached) fun reached' => absurd reached' reached

end Sessions

/-- A monitor that grants the path `/a`, and a clock. -/
def grantingLibrary : Unit → Call → Reply × Unit
  | _, .askMonitor query => ({ ret := 0, data := query ++ comma :: statusA }, ())
  | _, _ => ({ ret := 0 }, ())

/-- A host without files. -/
def emptyDisk : PosixState where
  file _ := none
  mayCreate _ := true
  opened _ := none
  nextFd := 3
  fdLimit := 1024
  fdLimit_lt := by decide

/-- A read-only open creates the file. -/
theorem not_flagsHonoured :
    ¬ FlagsHonoured grantingLibrary emptyDisk () 0 none [47, 97] oRDONLY 0o600 := by
  intro honoured
  have reached : OpenReached grantingLibrary () [47, 97] oRDONLY :=
    ⟨rfl, rfl, by decide, by decide⟩
  have same := (alike_of_honoured reached honoured).1
  exact absurd same (show ¬ some (HostFile.mk [] true true) = none by decide)

end SandboxTEE.HostDesc
