import SandboxTEE.HostDesc.Requests

/-! # Errors across the boundary

A host call that fails leaves its number in the `errno` of the host process; the operations
read the `errno` of the enclave.  So an operation reports the host's error only when the
enclave's number happens to translate to the same (`reported_iff_survives`).
-/

namespace SandboxTEE.HostDesc

open SandboxTEE.Lib (CallTree)
open SandboxTEE.Runtime
open SandboxTEE.Stdlib

/-! ## Operations and their runs -/

/-- The descriptor and path operations that make host calls. -/
inductive Operation where
  | open (d : NaClHostDesc) (path : List Byte) (flags mode : Nat)
  | read (d : NaClHostDesc) (len : Nat)
  | write (d : NaClHostDesc) (buf : List Byte)
  | pread (d : NaClHostDesc) (len : Nat) (offset : Int)
  | pwrite (d : NaClHostDesc) (buf : List Byte) (offset : Int)
  | seek (d : NaClHostDesc) (offset : Int) (whence : Nat)
  | stat (path : List Byte)
  | fstat (d : NaClHostDesc)
  | lstat (path : List Byte)
  | mkdir (path : List Byte) (mode : Nat)
  | rmdir (path : List Byte)
  | chdir (path : List Byte)
  | getcwd (len : Nat)
  | unlink (path : List Byte)
  | truncate (path : List Byte) (length : Nat)
  | ftruncate (d : NaClHostDesc) (length : Nat)
  | link (oldpath newpath : List Byte)
  | rename (oldpath newpath : List Byte)
  | chmod (path : List Byte) (mode : Nat)
  | access (path : List Byte) (amode : Nat)
  | fsync (d : NaClHostDesc)
  | close (d : NaClHostDesc)

/-- The return value of an operation, when the enclave's `errno` is `errno`. -/
def Operation.tree (errno : Nat) : Operation → HostTree Int
  | .open d path flags mode => do pure (← naClHostDescOpen errno d path flags mode).1
  | .read d len => do pure (← naClHostDescRead errno d len).1
  | .write d buf => naClHostDescWrite errno d buf
  | .pread d len offset => do pure (← naClHostDescPRead errno d len offset).1
  | .pwrite d buf offset => naClHostDescPWrite errno d buf offset
  | .seek d offset whence => naClHostDescSeek errno d offset whence
  | .stat path => do pure (← naClHostDescStat errno path).1
  | .fstat d => do pure (← naClHostDescFstat errno d).1
  | .lstat path => do pure (← naClHostDescLstat errno path).1
  | .mkdir path mode => naClHostDescMkdir errno path mode
  | .rmdir path => naClHostDescRmdir errno path
  | .chdir path => naClHostDescChdir errno path
  | .getcwd len => do pure (← naClHostDescGetcwd errno len).1
  | .unlink path => naClHostDescUnlink errno path
  | .truncate path length => naClHostDescTruncate errno path length
  | .ftruncate d length => naClHostDescFtruncate errno d length
  | .link oldpath newpath => naClHostDescLink errno oldpath newpath
  | .rename oldpath newpath => naClHostDescRename errno oldpath newpath
  | .chmod path mode => naClHostDescChmod errno path mode
  | .access path amode => naClHostDescAccess errno path amode
  | .fsync d => naClHostDescFsync errno d
  | .close d => do pure (← naClHostDescClose errno d).1

/-- What an operation needs of one thing served to report correctly, when the enclave's
    `errno` is `errno`. -/
def Served.Survives (errno : Nat) : Operation → Served → Prop
  | .getcwd _, .host _ (.fail _) => False
  | .getcwd _, .host _ (.ok ..) => errno = 0
  | _, .host c (.fail e) => c.isRequest = true → naClXlateErrno errno = naClXlateErrno e
  | .seek .., .host _ (.ok value _) =>
    0 ≤ cInt value ∨ (cInt value = -1 ∧ errno = 0)
  | .read .., .library (.wcAesSetKey ..) r => r.ret = 0
  | .read .., .library (.wcAesCtrEncrypt ..) r => r.ret = 0
  | _, _ => True

def Survives (errno : Nat) (op : Operation) (served : List Served) : Prop :=
  AppendStuck served ∨ ∀ x ∈ served, x.Survives errno op

variable {c : HostCall} {op : Operation} {errno : Nat}

theorem survives_single (request : c.isRequest = true) (r : HostResult) :
    Survives errno op [.host c r] ↔ (Served.host c r).Survives errno op := by
  constructor
  · rintro (⟨fd, args, e, mem⟩ | all)
    · injection List.mem_singleton.mp mem with same
      subst same
      exact absurd request Bool.false_ne_true
    · exact all _ List.mem_cons_self
  · intro here
    exact Or.inr fun x mem => (List.mem_singleton.mp mem) ▸ here

/-! ## The operations -/

variable {σ : Type} {host : σ → HostCall → HostResult × σ} {library : σ → Call → Reply × σ}

section operations

variable (possible : ∀ s c, (host s c).1.Possible c)

include possible

/-- Every path operation but `getcwd` is a call that is zero or fails. -/
theorem answers_path (request : c.isRequest = true)
    (notSeek : ∀ fd offset whence, c ≠ .lseek64 fd offset whence)
    (zero : ∀ value data, HostResult.Possible c (.ok value data) → value = 0) :
    Answers host library errno (failUnlessZero errno (sgxOcall c)) :=
  Answers.failUnlessZero (wraps_sgxOcall possible request notSeek zero)

theorem answers_open (errno : Nat) (d : NaClHostDesc) (path : List Byte) (flags mode : Nat) :
    Answers host library errno (Operation.tree errno (.open d path flags mode)) := by
  have opened : ∀ key : Reply, Answers host library errno
      ((ocallOpen path (naClMapOpenFlags flags ||| oLARGEFILE) (naClMapOpenPerm mode) >>=
        fun hostDesc => if hostDesc.ret = -1 then
            pure (negXlate errno, { d with
              descCtx := d.descCtx.map fun ctx : DescCTX => ctx.withKey key })
          else pure (0, { d with
            descCtx := d.descCtx.map fun ctx : DescCTX => ctx.withKey key, d := hostDesc.ret,
            flags := flags })) >>= fun p => pure p.1) := by
    intro key
    rw [CallTree.bind_assoc_eq]
    refine (wraps_sgxOcall possible rfl (by simp) fun _ _ _ => trivial).answers
      ⟨fun reply ret => ?_, fun reply v (_ : True) ret => ⟨0, ?_, le_refl 0⟩⟩
    · dsimp only
      rw [if_pos ret]
      rfl
    · dsimp only
      rw [if_neg (by omega)]
      rfl
  have allowed : Answers host library errno
      (openAllowed errno d path flags mode >>= fun p => pure p.1) := by
    rw [openAllowed, CallTree.bind_assoc_eq]
    refine Answers.afterLibrary (by simp) fun retval => ?_
    split
    · exact Answers.pure _ _
    · rw [CallTree.bind_assoc_eq]
      refine Answers.afterLibrary (by simp) fun _ => ?_
      rw [CallTree.bind_assoc_eq]
      refine Answers.afterLibrary (by simp) fun key => ?_
      split
      · exact Answers.pure _ _
      · split
        · exact Answers.pure _ _
        · exact opened key
  have status : ∀ status : List Byte, Answers host library errno
      ((if status = statusA then openAllowed errno d path flags mode else pure (-1, d)) >>=
        fun p => pure p.1) := by
    intro status
    split
    · exact allowed
    · exact Answers.pure _ _
  rw [Operation.tree, naClHostDescOpen, checkFileStatus, CallTree.bind_assoc_eq,
    CallTree.bind_assoc_eq]
  refine Answers.afterLibrary (by simp) fun reply => ?_
  rw [replyStatus]
  split
  · exact Answers.abort errno
  · split
    · rw [CallTree.pure_bind_eq]
      split
      · exact Answers.abort errno
      · exact status _
    · exact status statusN

theorem answers_write (errno : Nat) (d : NaClHostDesc) (buf : List Byte) :
    Answers host library errno (naClHostDescWrite errno d buf) := by
  refine Answers.afterValidity d ?_
  split
  · exact Answers.pure _ _
  · split
    · exact (wraps_ocallWrite possible d.d buf).answers (translates_ret errno _)
    · next key iv _ =>
      rw [writeFile]
      refine Answers.afterLibrary (by simp) fun _ => ?_
      split
      · exact Answers.pure _ _
      · refine Answers.afterLibrary (by simp) fun _ => ?_
        split
        · exact Answers.pure _ _
        · refine Answers.afterLibrary (by simp) fun output => ?_
          exact (wraps_ocallWrite possible d.d output.data).answers (translates_ret errno _)

theorem answers_pread (errno : Nat) (d : NaClHostDesc) (len : Nat) (offset : Int) :
    Answers host library errno (Operation.tree errno (.pread d len offset)) := by
  rw [Operation.tree, naClHostDescPRead, CallTree.bind_assoc_eq]
  refine Answers.afterValidity d ?_
  split
  · exact Answers.pure _ _
  · rw [CallTree.bind_assoc_eq]
    refine (wraps_ocallPread64 possible d.d len offset).answers
      ⟨fun reply ret => ?_, fun reply v _ ret => ⟨reply.ret, ?_, by omega⟩⟩
    · dsimp only
      rw [if_pos ret]
      rfl
    · dsimp only
      rw [if_neg (by omega)]
      rfl

/-- In append mode the flags are restored after the call, and a failure of that aborts. -/
theorem answers_restoring {values : Nat → Prop} {t : HostTree Reply} {f : Reply → HostTree Int}
    (wraps : Wraps host library values t) (translates : Translates errno values f) (fd args : Int) :
    Answers host library errno (t >>= fun retval =>
      sgxOcall (.fcntl fd fSETFL args) >>= fun restored =>
        if restored.ret = -1 then CallTree.abort else f retval) := fun s => by
  obtain ⟨reply, served, s', c, r, runs, one, within, notStuck, _, ret⟩ := wraps s
  have poss := possible s' (.fcntl fd fSETFL args)
  have last := @Runs.sgxOcall σ host library (.fcntl fd fSETFL args) s'
  generalize (host s' (.fcntl fd fSETFL args)).2 = s₂ at *
  cases h : (host s' (.fcntl fd fSETFL args)).1 with
  | fail e =>
    rw [h] at last
    refine ⟨none, _, _, runs.bind (last.bind_eq (if_pos rfl) (Runs.abort s₂)),
      Or.inr (Or.inl ⟨⟨fd, args, e, ?_⟩, rfl⟩)⟩
    exact List.mem_append_right _ List.mem_cons_self
  | ok value data =>
    rw [h] at last poss
    have restored : (untrustedReply (.fcntl fd fSETFL args) (.ok value data)).ret ≠ -1 := by
      have : (untrustedReply (.fcntl fd fSETFL args) (.ok value data)).ret = value :=
        cInt_of_lt poss
      omega
    have added : ∀ served' : List Served,
        served' = [.host (.fcntl fd fSETFL args) (.ok value data)] →
        OneRequest (served ++ served') c r ∧ ¬ AppendStuck (served ++ served') := by
      rintro _ rfl
      refine ⟨one.append fun x hx => ?_, ?_⟩
      · cases List.mem_singleton.mp hx
        trivial
      · rintro ⟨fd', args', e, mem⟩
        refine notStuck ⟨fd', args', e, ?_⟩
        simpa using mem
    obtain ⟨one', notStuck'⟩ := added _ (List.append_nil _)
    cases r with
    | fail e =>
      exact ⟨_, _, _, runs.bind (last.bind_eq
          ((if_neg restored).trans (translates.1 reply ret)) (Runs.pure _ s₂)),
        Or.inr (Or.inr ⟨c, _, one', within, notStuck', _, rfl, rfl⟩)⟩
    | ok v data =>
      obtain ⟨w, eq, nonneg⟩ := translates.2 reply v within ret
      exact ⟨_, _, _, runs.bind (last.bind_eq ((if_neg restored).trans eq) (Runs.pure _ s₂)),
        Or.inr (Or.inr ⟨c, _, one', trivial, notStuck', _, rfl, nonneg⟩)⟩

theorem answers_pwrite (errno : Nat) (d : NaClHostDesc) (buf : List Byte) (offset : Int) :
    Answers host library errno (naClHostDescPWrite errno d buf offset) := by
  refine Answers.afterValidity d ?_
  split
  · exact Answers.pure _ _
  · split
    · refine Answers.afterGetfl fun origFlags => ?_
      split
      · exact Answers.abort errno
      · refine Answers.afterSetfl (fun reply ret => if_pos ret) fun cleared => ?_
        split
        · exact Answers.abort errno
        · exact answers_restoring possible (wraps_ocallPwrite64 possible d.d buf offset)
            (translates_ret errno _) d.d origFlags.ret
    · exact (wraps_ocallPwrite64 possible d.d buf offset).answers (translates_ret errno _)

end operations

/-! ## What survives -/

/-- The operations whose results are tested in the same way. -/
def Operation.Plain : Operation → Prop
  | .getcwd _ => False
  | .seek .. => False
  | .read .. => False
  | _ => True

theorem survives_of_quiet (plain : op.Plain) {x : Served} (quiet : x.Quiet) :
    x.Survives errno op := by
  cases x with
  | host c r =>
    cases r with
    | fail e =>
      have notRequest : c.isRequest = false := quiet
      cases op <;>
        first
          | exact plain.elim
          | exact fun request => absurd (notRequest.symm.trans request) Bool.false_ne_true
    | ok value data => cases op <;> first | exact plain.elim | trivial
  | library c r => cases op <;> first | exact plain.elim | trivial

variable {served : List Served}

theorem NoRequest.quiet (none : NoRequest served) : ∀ x ∈ served, x.Quiet := by
  intro x mem
  cases x with
  | host c r =>
    cases r with
    | fail e => exact none c _ mem
    | ok value data => trivial
  | library c r => trivial

variable {e : Nat}

/-- A failed request is reported when the enclave's number translates to the same. -/
theorem survives_fail_iff (notGetcwd : ∀ len, op ≠ .getcwd len) (request : c.isRequest = true) :
    (Served.host c (.fail e)).Survives errno op ↔ negXlate errno = negXlate e := by
  rw [negXlate_eq_iff]
  cases op with
  | getcwd len => exact absurd rfl (notGetcwd len)
  | _ => exact ⟨fun h => h request, fun h _ => h⟩

theorem negXlate_neg (pos : 0 < e) : negXlate e < 0 := by
  have := naClXlateErrno_pos pos
  rw [negXlate]
  omega

theorem answered_negXlate_iff (pos : 0 < e) :
    (HostResult.fail e).Answered (negXlate errno) ↔ negXlate errno = negXlate e := by
  constructor
  · exact And.left
  · intro eq
    exact ⟨eq, eq ▸ negXlate_neg pos⟩

variable {r : HostResult}

/-- For a plain operation the result of the request decides. -/
theorem plain_reported_iff (plain : op.Plain) {result : Option Int} (one : OneRequest served c r)
    (within : r.Within fun _ => True) (notStuck : ¬ AppendStuck served)
    (returned : r.Returned errno result) : Reported served result ↔ Survives errno op served := by
  have notGetcwd : ∀ len, op ≠ .getcwd len := by
    rintro len rfl
    exact plain
  obtain ⟨v, rfl, returned⟩ := returned
  rw [reported_some_iff one]
  cases r with
  | fail e =>
    have value : v = negXlate errno := returned
    rw [value, answered_negXlate_iff within, ← survives_fail_iff notGetcwd one.request]
    constructor
    · intro here
      refine Or.inr fun x mem => ?_
      rcases one.quiet x mem with rfl | quiet
      · exact here
      · exact survives_of_quiet plain quiet
    · rintro (stuck | all)
      · exact absurd stuck notStuck
      · exact all _ one.mem
  | ok value data =>
    refine ⟨fun _ => Or.inr fun x mem => survives_of_quiet plain ?_, fun _ => returned⟩
    rcases one.quiet x mem with rfl | quiet
    · trivial
    · exact quiet

/-- The cipher did its part. -/
def Served.CipherOk : Served → Prop
  | .library (.wcAesSetKey ..) r => r.ret = 0
  | .library (.wcAesCtrEncrypt ..) r => r.ret = 0
  | _ => True

variable {len : Nat} {d : NaClHostDesc}

theorem survives_read_iff (one : OneRequest served c r) (notStuck : ¬ AppendStuck served) :
    Survives errno (.read d len) served ↔
      (Served.host c r).Survives errno (.read d len) ∧ ∀ x ∈ served, x.CipherOk := by
  have cipher : ∀ x : Served, x.Survives errno (.read d len) → x.CipherOk := by
    rintro (⟨c, _ | _⟩ | ⟨_ | _, r⟩) survives <;> trivial
  have quiet : ∀ x : Served, x.Quiet → x.CipherOk → x.Survives errno (.read d len) := by
    rintro (⟨c, _ | e⟩ | ⟨_ | _, r⟩) quiet cipher <;>
      first
        | trivial
        | exact cipher
        | exact fun request => absurd (Eq.trans quiet.symm request) Bool.false_ne_true
  constructor
  · rintro (stuck | all)
    · exact absurd stuck notStuck
    · exact ⟨all _ one.mem, fun x mem => cipher x (all x mem)⟩
  · rintro ⟨here, ok⟩
    refine Or.inr fun x mem => ?_
    rcases one.quiet x mem with rfl | h
    · exact here
    · exact quiet x h (ok x mem)

/-- For a read the result of the request decides, and of a success the cipher. -/
theorem read_reported_iff_of_one {v : Int} (one : OneRequest served c r)
    (within : r.Within fun _ => True) (notStuck : ¬ AppendStuck served)
    (failed : ∀ e, r = .fail e → v = negXlate errno ∧ ∀ x ∈ served, x.CipherOk)
    (succeeded : ∀ value data, r = .ok value data → (0 ≤ v ↔ ∀ x ∈ served, x.CipherOk)) :
    Reported served (some v) ↔ Survives errno (.read d len) served := by
  rw [reported_some_iff one, survives_read_iff one notStuck]
  cases r with
  | fail e =>
    obtain ⟨rfl, ok⟩ := failed e rfl
    rw [answered_negXlate_iff within, survives_fail_iff (by simp) one.request]
    exact (and_iff_left ok).symm
  | ok value data =>
    change 0 ≤ v ↔ True ∧ _
    rw [true_and]
    exact succeeded value data rfl

/-- What the enclave serves around a wrapper is no request; what it is matters to the cipher. -/
theorem around_wrapper {before after : List Served} (one : OneRequest served c r)
    (notStuck : ¬ AppendStuck served) (hosts : ∀ x ∈ served, x.IsHost)
    (hb : ∀ x ∈ before, ¬ x.IsHost ∧ x.CipherOk) (ha : ∀ x ∈ after, ¬ x.IsHost) :
    OneRequest (before ++ (served ++ after)) c r ∧ ¬ AppendStuck (before ++ (served ++ after)) ∧
      ((∀ x ∈ before ++ (served ++ after), x.CipherOk) ↔ ∀ x ∈ after, x.CipherOk) := by
  have quiet : ∀ x : Served, ¬ x.IsHost → x.Quiet := by
    rintro (_ | _) h
    · exact absurd trivial h
    · trivial
  have cipher : ∀ x : Served, x.IsHost → x.CipherOk := by
    rintro (_ | _) h
    · trivial
    · exact h.elim
  refine ⟨(one.append fun x hx => quiet x (ha x hx)).prepend fun x hx => quiet x (hb x hx).1,
    ?_, ?_⟩
  · rintro ⟨fd, args, e, mem⟩
    rcases List.mem_append.mp mem with mem | mem
    · exact (hb _ mem).1 trivial
    · rcases List.mem_append.mp mem with mem | mem
      · exact notStuck ⟨fd, args, e, mem⟩
      · exact ha _ mem trivial
  · constructor
    · exact fun all x hx => all x (List.mem_append_right _ (List.mem_append_right _ hx))
    · intro ok x hx
      rcases List.mem_append.mp hx with hx | hx
      · exact (hb x hx).2
      · exact (List.mem_append.mp hx).elim (fun hx => cipher x (hosts x hx)) (ok x)

theorem Answers.reported_iff (plain : op.Plain)
    (answers : Answers host library errno (op.tree errno)) (s : σ) :
    ∃ result served s', Runs host library (op.tree errno) s result served s' ∧
      (Reported served result ↔ Survives errno op served) := by
  obtain ⟨result, served, s', runs, cases⟩ := answers s
  refine ⟨result, served, s', runs, ?_⟩
  rcases cases with none | ⟨stuck, rfl⟩ | ⟨c, r, one, within, notStuck, returned⟩
  · exact ⟨fun _ => Or.inr fun x mem => survives_of_quiet plain (none.quiet x mem),
      fun _ => reported_of_noRequest none result⟩
  · exact ⟨fun _ => Or.inl stuck, fun _ => ⟨by simp, by simp⟩⟩
  · exact plain_reported_iff plain one within notStuck returned

section operations

variable (possible : ∀ s c, (host s c).1.Possible c)

include possible

theorem answers_plain (errno : Nat) (plain : op.Plain) :
    Answers host library errno (op.tree errno) := by
  cases op with
  | «open» d path flags mode => exact answers_open possible errno d path flags mode
  | read d len => exact plain.elim
  | write d buf => exact answers_write possible errno d buf
  | pread d len offset => exact answers_pread possible errno d len offset
  | pwrite d buf offset => exact answers_pwrite possible errno d buf offset
  | seek d offset whence => exact plain.elim
  | stat path =>
    exact Answers.statOrFail (wraps_copyStat possible rfl (by simp) fun _ _ zero => zero)
  | fstat d =>
    rw [Operation.tree, naClHostDescFstat, CallTree.bind_assoc_eq]
    exact Answers.afterValidity d
      (Answers.statOrFail (wraps_copyStat possible rfl (by simp) fun _ _ zero => zero))
  | lstat path =>
    exact Answers.statOrFail (wraps_copyStat possible rfl (by simp) fun _ _ zero => zero)
  | mkdir path mode => exact answers_path possible rfl (by simp) fun _ _ zero => zero
  | rmdir path => exact answers_path possible rfl (by simp) fun _ _ zero => zero
  | chdir path => exact answers_path possible rfl (by simp) fun _ _ zero => zero
  | getcwd len => exact plain.elim
  | unlink path => exact answers_path possible rfl (by simp) fun _ _ zero => zero
  | truncate path length => exact answers_path possible rfl (by simp) fun _ _ zero => zero
  | ftruncate d length =>
    have request : Wraps host library (· = 0) (ocallFtruncate d.d length) :=
      wraps_sgxOcall possible rfl (by simp) fun _ _ zero => zero
    exact Answers.afterValidity d (Answers.failIfMinusOne request)
  | link oldpath newpath => exact answers_path possible rfl (by simp) fun _ _ zero => zero
  | rename oldpath newpath => exact answers_path possible rfl (by simp) fun _ _ zero => zero
  | chmod path mode => exact answers_path possible rfl (by simp) fun _ _ zero => zero
  | access path amode => exact answers_path possible rfl (by simp) fun _ _ zero => zero
  | fsync d =>
    have request : Wraps host library (· = 0) (ocallFsync d.d) :=
      wraps_sgxOcall possible rfl (by simp) fun _ _ zero => zero
    exact Answers.afterValidity d (Answers.failIfMinusOne request)
  | close d =>
    rw [Operation.tree, naClHostDescClose, CallTree.bind_assoc_eq]
    refine Answers.afterValidity d ?_
    rw [CallTree.bind_assoc_eq]
    have request : Wraps host library (· = 0) (ocallClose d.d) :=
      wraps_sgxOcall possible rfl (by simp) fun _ _ zero => zero
    refine request.answers ⟨fun reply ret => ?_, fun reply v zero ret => ⟨reply.ret, ?_, by omega⟩⟩
    · dsimp only
      rw [if_pos ret]
      rfl
    · dsimp only
      rw [if_neg (by omega)]
      rfl

/-- Of a seek the low half of the offset comes back. -/
theorem seek_reported_iff (errno : Nat) (d : NaClHostDesc) (offset : Int) (whence : Nat) (s : σ) :
    ∃ result served s',
      Runs host library (Operation.tree errno (.seek d offset whence)) s result served s' ∧
      (Reported served result ↔ Survives errno (.seek d offset whence) served) := by
  rw [Operation.tree, naClHostDescSeek, naClHostDescCheckValidity]
  split
  · exact ⟨none, [], s, Runs.abort s, fun _ => Or.inr (by simp), fun _ => by simp [Reported]⟩
  · have poss := possible s (.lseek64 d.d offset whence)
    have first := @Runs.sgxOcall σ host library (.lseek64 d.d offset whence) s
    generalize (host s (.lseek64 d.d offset whence)).2 = s₁ at *
    generalize (host s (.lseek64 d.d offset whence)).1 = r at *
    have one := OneRequest.single (c := .lseek64 d.d offset whence) rfl r
    cases r with
    | fail e =>
      refine ⟨_, _, _, first.bind_eq (if_pos rfl) (Runs.pure _ s₁), ?_⟩
      rw [List.append_nil, reported_some_iff one, survives_single rfl,
        survives_fail_iff (by simp) rfl, answered_negXlate_iff poss]
    | ok value data =>
      by_cases minusOne : cInt value = -1
      · -- the offset reads as a failure, and the old number is translated
        refine ⟨_, _, _, first.bind_eq (if_pos minusOne) (Runs.pure _ s₁), ?_⟩
        rw [List.append_nil, reported_some_iff one, survives_single rfl]
        change 0 ≤ negXlate errno ↔ 0 ≤ cInt value ∨ (cInt value = -1 ∧ errno = 0)
        rw [minusOne, negXlate, ← naClXlateErrno_eq_zero_iff]
        omega
      · refine ⟨_, _, _, first.bind_eq (if_neg minusOne) (Runs.pure _ s₁), ?_⟩
        rw [List.append_nil, reported_some_iff one, survives_single rfl]
        change 0 ≤ cInt value ↔ 0 ≤ cInt value ∨ (cInt value = -1 ∧ errno = 0)
        simp [minusOne]

/-- The inverted test of `getcwd` reports no failure at all. -/
theorem getcwd_reported_iff (errno : Nat) (len : Nat) (s : σ) :
    ∃ result served s', Runs host library (Operation.tree errno (.getcwd len)) s result served s' ∧
      (Reported served result ↔ Survives errno (.getcwd len) served) := by
  have poss := possible s (.getcwd len)
  have first := @Runs.sgxOcall σ host library (.getcwd len) s
  have ret := untrustedReply_ret rfl (by simp) poss
  generalize (host s (.getcwd len)).2 = s₁ at *
  generalize (host s (.getcwd len)).1 = r at *
  have one := OneRequest.single (c := .getcwd len) rfl r
  have copied : ∃ reply : Reply, reply.ret = r.value ∧
      Runs host library (ocallGetcwd len) s (some reply) [.host (.getcwd len) r] s₁ := by
    by_cases fits : (untrustedReply (.getcwd len) r).ret ≥ 0 ∧
        (untrustedReply (.getcwd len) r).data.length + 1 ≤ len
    · exact ⟨_, ret, first.bind_eq (if_pos fits) (Runs.pure _ s₁)⟩
    · exact ⟨{ ret := (untrustedReply (.getcwd len) r).ret }, ret,
        first.bind_eq (if_neg fits) (Runs.pure _ s₁)⟩
  obtain ⟨reply, value, runs⟩ := copied
  rw [Operation.tree, naClHostDescGetcwd, CallTree.bind_assoc_eq]
  have tail : ∀ reply : Reply,
      ((if reply.ret = 0 then pure (negXlate errno, reply.data) else pure (0, reply.data) :
        HostTree (Int × List Byte)) >>= fun p => pure p.1) =
      pure (if reply.ret = 0 then negXlate errno else 0) := by
    intro reply
    split <;> rfl
  refine ⟨_, _, _, runs.bind_eq (tail reply) (Runs.pure _ s₁), ?_⟩
  rw [List.append_nil, reported_some_iff one, survives_single rfl]
  cases r with
  | fail e =>
    rw [value, HostResult.value, if_neg (show ¬ ((-1 : Int) = 0) by decide)]
    constructor
    · rintro ⟨_, neg⟩
      exact absurd neg (lt_irrefl 0)
    · exact False.elim
  | ok v data =>
    have zero : v = 0 := poss
    rw [value, HostResult.value, zero, if_pos Nat.cast_zero]
    change 0 ≤ negXlate errno ↔ errno = 0
    rw [negXlate, ← naClXlateErrno_eq_zero_iff]
    omega

/-- A keyed read also fails after its request, when the cipher does. -/
theorem readFile_reported_iff (errno : Nat) (d : NaClHostDesc) (key iv : List Byte) (len : Nat)
    (s : σ) : ∃ p served s', Runs host library (readFile errno d key iv len) s (some p) served s' ∧
      (Reported served (some p.1) ↔ Survives errno (.read d len) served) := by
  have input := @Runs.libraryCall σ host library (.malloc len) (by simp) s
  generalize (library s (.malloc len)).2 = s₁ at *
  generalize (library s (.malloc len)).1 = block at *
  have output := @Runs.libraryCall σ host library (.malloc len) (by simp) s₁
  generalize (library s₁ (.malloc len)).2 = s₂ at *
  generalize (library s₁ (.malloc len)).1 = block' at *
  obtain ⟨reply, served, s₃, c, r, runs, one, within, notStuck, hosts, ret⟩ :=
    wraps_ocallRead possible d.d len s₂
  have prelude : ∀ x ∈ [Served.library (.malloc len) block, .library (.malloc len) block'],
      ¬ x.IsHost ∧ x.CipherOk := by
    intro x hx
    rcases List.mem_cons.mp hx with rfl | hx
    · exact ⟨id, trivial⟩
    · cases List.mem_singleton.mp hx
      exact ⟨id, trivial⟩
  have reports : ∀ (v : Int) (after : List Served), (∀ x ∈ after, ¬ x.IsHost) →
      (∀ e, r = .fail e → v = negXlate errno ∧ after = []) →
      (∀ value data, r = .ok value data → (0 ≤ v ↔ ∀ x ∈ after, x.CipherOk)) →
      (Reported ([.library (.malloc len) block] ++ ([.library (.malloc len) block'] ++
          (served ++ after))) (some v) ↔
        Survives errno (.read d len) ([.library (.malloc len) block] ++
          ([.library (.malloc len) block'] ++ (served ++ after)))) := by
    intro v after ha failed succeeded
    obtain ⟨one', notStuck', cipher⟩ := around_wrapper one notStuck hosts prelude ha
    refine read_reported_iff_of_one one' ?_ notStuck' (fun e h => ?_) fun value data h => ?_
    · cases r <;> first | exact within | trivial
    · obtain ⟨value, rfl⟩ := failed e h
      exact ⟨value, cipher.mpr (by simp)⟩
    · rw [succeeded value data h]
      exact cipher.symm
  have minusOne : reply.ret = -1 ↔ ∃ e, r = .fail e := by
    cases r with
    | fail e => exact ⟨fun _ => ⟨e, rfl⟩, fun _ => ret⟩
    | ok value data =>
      have : reply.ret = value := ret
      exact ⟨fun h => by omega, fun h => by simp at h⟩
  by_cases failed : reply.ret = -1
  · refine ⟨_, _, _, input.bind (output.bind (runs.bind_eq (if_pos failed) (Runs.pure _ s₃))),
      reports _ _ (by simp) (fun e _ => ⟨rfl, rfl⟩) fun value data h => ?_⟩
    obtain ⟨e, fail⟩ := minusOne.mp failed
    rw [h] at fail
    cases fail
  · have nonneg : ∀ value data, r = .ok value data → 0 ≤ reply.ret := by
      rintro value data rfl
      exact ret ▸ Int.natCast_nonneg value
    have notFailed : ∀ e, r ≠ .fail e := fun e h => failed (minusOne.mpr ⟨e, h⟩)
    have keySet := @Runs.libraryCall σ host library (.wcAesSetKey key iv) (by simp) s₃
    generalize (library s₃ (.wcAesSetKey key iv)).2 = s₄ at *
    generalize (library s₃ (.wcAesSetKey key iv)).1 = retval at *
    by_cases keyOk : retval.ret ≠ 0
    · refine ⟨_, _, _, input.bind (output.bind (runs.bind_eq (if_neg failed)
        (keySet.bind_eq (if_pos keyOk) (Runs.pure _ s₄)))),
        reports _ _ (by simp [Served.IsHost]) (fun e h => absurd h (notFailed e))
        fun value data h => ?_⟩
      simp [Served.CipherOk, keyOk, naClAbiEINVAL]
    · generalize hi : reply.data ++ block.data.drop reply.data.length = plain at *
      have encrypted := @Runs.libraryCall σ host library (.wcAesCtrEncrypt key iv plain)
        (by simp) s₄
      generalize (library s₄ (.wcAesCtrEncrypt key iv plain)).2 = s₅ at *
      generalize (library s₄ (.wcAesCtrEncrypt key iv plain)).1 = text at *
      have keyZero : retval.ret = 0 := not_not.mp keyOk
      by_cases textOk : text.ret ≠ 0
      · refine ⟨_, _, _, input.bind (output.bind (runs.bind_eq (if_neg failed)
          (keySet.bind_eq (if_neg keyOk) ((hi ▸ encrypted).bind_eq (if_pos textOk)
            (Runs.pure _ s₅))))),
          reports _ _ (by simp [Served.IsHost]) (fun e h => absurd h (notFailed e))
          fun value data h => ?_⟩
        simp [Served.CipherOk, textOk, naClAbiEINVAL]
      · refine ⟨_, _, _, input.bind (output.bind (runs.bind_eq (if_neg failed)
          (keySet.bind_eq (if_neg keyOk) ((hi ▸ encrypted).bind_eq (if_neg textOk)
            (Runs.pure _ s₅))))),
          reports _ _ (by simp [Served.IsHost]) (fun e h => absurd h (notFailed e))
          fun value data h => ?_⟩
        have textZero : text.ret = 0 := not_not.mp textOk
        simp [Served.CipherOk, keyZero, textZero, nonneg value data h]

/-- A read without a key is like the plain operations. -/
theorem read_reported_iff (errno : Nat) (d : NaClHostDesc) (len : Nat) (s : σ) :
    ∃ result served s', Runs host library (Operation.tree errno (.read d len)) s result served s' ∧
      (Reported served result ↔ Survives errno (.read d len) served) := by
  rw [Operation.tree, naClHostDescRead, naClHostDescCheckValidity]
  split
  · exact ⟨none, [], s, Runs.abort s, fun _ => Or.inr (by simp), fun _ => by simp [Reported]⟩
  · rw [CallTree.pure_bind_eq]
    split
    · exact ⟨_, [], s, Runs.pure _ s, fun _ => Or.inr (by simp), fun _ => by simp [Reported]⟩
    · split
      · obtain ⟨reply, served, s', c, r, runs, one, within, notStuck, hosts, ret⟩ :=
          wraps_ocallRead possible d.d len s
        have cipher : ∀ x ∈ served, x.CipherOk := fun x mem => by
          cases x with
          | host c r => trivial
          | library c r => exact (hosts _ mem).elim
        by_cases failed : reply.ret = -1
        · refine ⟨_, _, _, (runs.bind_eq (if_pos failed) (Runs.pure _ s')).bind (Runs.pure _ s'), ?_⟩
          rw [List.append_nil, List.append_nil]
          refine read_reported_iff_of_one one ?_ notStuck (fun _ _ => ⟨rfl, cipher⟩) ?_
          · cases r <;> first | exact within | trivial
          · rintro value data rfl
            have : reply.ret = value := ret
            omega
        · refine ⟨_, _, _, (runs.bind_eq (if_neg failed) (Runs.pure _ s')).bind (Runs.pure _ s'), ?_⟩
          rw [List.append_nil, List.append_nil]
          refine read_reported_iff_of_one one ?_ notStuck ?_ ?_
          · cases r <;> first | exact within | trivial
          · rintro e rfl
            exact absurd ret failed
          · rintro value data rfl
            have : reply.ret = value := ret
            exact ⟨fun _ => cipher, fun _ => by omega⟩
      · next key iv _ =>
        obtain ⟨p, served, s', runs, reported⟩ := readFile_reported_iff possible errno d key iv len s
        refine ⟨_, _, s', runs.bind (Runs.pure p.1 s'), ?_⟩
        rw [List.append_nil]
        exact reported

/-- Whatever the operation and the state it starts in. -/
theorem operation_reported_iff (errno : Nat) (op : Operation) (s : σ) :
    ∃ result served s', Runs host library (op.tree errno) s result served s' ∧
      (Reported served result ↔ Survives errno op served) := by
  cases op with
  | read d len => exact read_reported_iff possible errno d len s
  | seek d offset whence => exact seek_reported_iff possible errno d offset whence s
  | getcwd len => exact getcwd_reported_iff possible errno len s
  | _ => refine Answers.reported_iff ?_ (answers_plain possible errno ?_) s <;> trivial

end operations

/-! ## Runs -/

/-- What happens in the enclave: an operation, or other code that leaves a number in `errno`. -/
inductive Step where
  | operation (op : Operation)
  | setErrno (errno : Nat)

/-- An operation of a run, with the enclave's `errno` before it, what was served, and the
    result. -/
structure Record where
  op : Operation
  errno : Nat
  served : List Served
  result : Option Int

/-- The operations of a run, which an abort ends. -/
def records (host : σ → HostCall → HostResult × σ) (library : σ → Call → Reply × σ) :
    List Step → Nat → σ → List Record
  | [], _, _ => []
  | .setErrno errno :: steps, _, s => records host library steps errno s
  | .operation op :: steps, errno, s =>
    let ran := (op.tree errno).run (serveCalls host library) (s, [])
    ⟨op, errno, ran.2.2, ran.1⟩ ::
      if ran.1 = none then [] else records host library steps errno ran.2.1

theorem records_reported_iff (possible : ∀ s c, (host s c).1.Possible c) :
    ∀ (steps : List Step) (errno : Nat) (s : σ), ∀ x ∈ records host library steps errno s,
      (Reported x.served x.result ↔ Survives x.errno x.op x.served)
  | [], _, _, x, mem => absurd mem List.not_mem_nil
  | .setErrno errno :: steps, _, s, x, mem => records_reported_iff possible steps errno s x mem
  | .operation op :: steps, errno, s, x, mem => by
    obtain ⟨result, served, s', runs, here⟩ :=
      @operation_reported_iff σ host library possible errno op s
    rw [records, runs []] at mem
    rcases List.mem_cons.mp mem with rfl | mem
    · exact here
    · dsimp only at mem
      split at mem
      · exact absurd mem List.not_mem_nil
      · exact records_reported_iff possible steps errno s' x mem

/-- From the start of the enclave, where `errno` is zero, each operation reports the errors of
    its host calls exactly when what was served survives. -/
theorem reported_iff_survives (possible : ∀ s c, (host s c).1.Possible c) (steps : List Step)
    (s : σ) : ∀ x ∈ records host library steps 0 s,
      (Reported x.served x.result ↔ Survives x.errno x.op x.served) :=
  records_reported_iff possible steps 0 s

/-- A host on which every call fails with `ENOENT`. -/
def missingFiles (_ : Unit) (_ : HostCall) : HostResult × Unit := (.fail naClAbiENOENT, ())

def idleLibrary (_ : Unit) (_ : Call) : Reply × Unit := ({ ret := 0 }, ())

theorem missingFiles_possible (s : Unit) (c : HostCall) : (missingFiles s c).1.Possible c := by
  cases c <;> exact Nat.two_pos

/-- A failed `stat` of `/x`. -/
theorem reported_iff_survives_stat :
    Reported [.host (.stat64 [47, 120]) (.fail 2)] (some 0) ↔
      Survives 0 (.stat [47, 120]) [.host (.stat64 [47, 120]) (.fail 2)] :=
  @reported_iff_survives Unit missingFiles idleLibrary missingFiles_possible
    [.operation (.stat [47, 120])] () ⟨.stat [47, 120], 0, _, some 0⟩ List.mem_cons_self

/-- The removal of a file that is not there returns zero. -/
theorem unlink_missing_succeeds :
    ∃ x ∈ records missingFiles idleLibrary [.operation (.unlink [47, 120])] 0 (),
      x.result = some 0 ∧ ¬ Reported x.served x.result := by
  refine ⟨⟨.unlink [47, 120], 0, [.host (.unlink [47, 120]) (.fail 2)], some 0⟩,
    List.mem_cons_self, rfl, fun reported => ?_⟩
  have returned := reported.1 (.unlink [47, 120]) 2 List.mem_cons_self rfl 0 rfl
  exact absurd returned.2 (lt_irrefl 0)

end SandboxTEE.HostDesc
