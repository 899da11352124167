import SandboxTEE.HostDesc.Host

/-! # Requests to the host

An operation is about one call of the host, its request; what else is served meanwhile does
not fail, or is not what the operation is about.  Here is how the wrappers make their
request, and how an operation built around a wrapper turns the result of the request into its
own.
-/

namespace SandboxTEE.HostDesc

open SandboxTEE.Lib (CallTree)
open SandboxTEE.Lib.CallTree (perform)
open SandboxTEE.Runtime
open SandboxTEE.Stdlib

/-! ## Requests -/

/-- The calls whose result the operation is about; the flags of a descriptor and the return
    of mapped memory are not. -/
def HostCall.isRequest : HostCall → Bool
  | .fcntl .. => false
  | .unmapUntrusted _ => false
  | _ => true

/-- The error of a failed request is returned, and when all requests succeed no error is. -/
def Reported (served : List Served) (result : Option Int) : Prop :=
  (∀ c e, .host c (.fail e) ∈ served → c.isRequest = true →
    ∀ v, result = some v → v = negXlate e ∧ v < 0) ∧
  ((∃ c r, .host c r ∈ served ∧ c.isRequest = true) →
    (∀ c e, .host c (.fail e) ∈ served → c.isRequest = false) →
    ∀ v, result = some v → 0 ≤ v)

/-- The append mode of a descriptor could not be changed, and the operation aborts. -/
def AppendStuck (served : List Served) : Prop :=
  ∃ fd args e, .host (.fcntl fd fSETFL args) (.fail e) ∈ served

/-! ## Runs with one request -/

variable {σ : Type} {host : σ → HostCall → HostResult × σ} {library : σ → Call → Reply × σ}

/-- Not a request that failed. -/
def Served.Quiet : Served → Prop
  | .host c (.fail _) => c.isRequest = false
  | _ => True

/-- The request `c` was answered with `r`; besides it nothing failed but the calls that are no
    requests. -/
structure OneRequest (served : List Served) (c : HostCall) (r : HostResult) : Prop where
  mem : .host c r ∈ served
  request : c.isRequest = true
  quiet : ∀ x ∈ served, x = .host c r ∨ x.Quiet

variable {c : HostCall} {r : HostResult} {served : List Served}

variable {before : List Served}

theorem OneRequest.prepend (one : OneRequest served c r) (h : ∀ x ∈ before, x.Quiet) :
    OneRequest (before ++ served) c r where
  mem := List.mem_append_right _ one.mem
  request := one.request
  quiet x hx := (List.mem_append.mp hx).elim (fun hx => Or.inr (h x hx)) (one.quiet x)

theorem OneRequest.append {after : List Served} (one : OneRequest served c r)
    (h : ∀ x ∈ after, x.Quiet) : OneRequest (served ++ after) c r where
  mem := List.mem_append_left _ one.mem
  request := one.request
  quiet x hx := (List.mem_append.mp hx).elim (one.quiet x) fun hx => Or.inr (h x hx)

theorem OneRequest.single (request : c.isRequest = true) (r : HostResult) :
    OneRequest [.host c r] c r where
  mem := List.mem_singleton.mpr rfl
  request := request
  quiet _ hx := Or.inl (List.mem_singleton.mp hx)

def NoRequest (served : List Served) : Prop :=
  ∀ c r, .host c r ∈ served → c.isRequest = false

/-- What the operation must return for the answer to its request. -/
def HostResult.Answered (r : HostResult) (v : Int) : Prop :=
  match r with
  | .fail e => v = negXlate e ∧ v < 0
  | .ok .. => 0 ≤ v

theorem reported_iff_answered (one : OneRequest served c r) (result : Option Int) :
    Reported served result ↔ ∀ v, result = some v → r.Answered v := by
  constructor
  · intro reported v hv
    cases r with
    | fail e => exact reported.1 c e one.mem one.request v hv
    | ok value data =>
      refine reported.2 ⟨c, _, one.mem, one.request⟩ ?_ v hv
      intro c' e failed
      rcases one.quiet _ failed with same | quiet
      · cases same
      · exact quiet
  · intro answered
    constructor
    · intro c' e failed request v hv
      rcases one.quiet _ failed with same | quiet
      · cases same
        exact answered v hv
      · exact absurd (quiet.symm.trans request) Bool.false_ne_true
    · intro _ succeeded v hv
      cases r with
      | fail e => exact absurd ((succeeded c e one.mem).symm.trans one.request) Bool.false_ne_true
      | ok value data => exact answered v hv

theorem reported_some_iff (one : OneRequest served c r) (v : Int) :
    Reported served (some v) ↔ r.Answered v := by
  rw [reported_iff_answered one]
  exact ⟨fun h => h v rfl, fun h w eq => Option.some.inj eq ▸ h⟩

theorem reported_of_noRequest (none : NoRequest served) (result : Option Int) :
    Reported served result := by
  constructor
  · intro c e failed request
    exact absurd ((none c _ failed).symm.trans request) Bool.false_ne_true
  · rintro ⟨c, r, mem, request⟩
    exact absurd ((none c r mem).symm.trans request) Bool.false_ne_true

theorem negXlate_eq_iff (a b : Nat) :
    negXlate a = negXlate b ↔ naClXlateErrno a = naClXlateErrno b := by
  rw [negXlate, negXlate]
  omega

theorem naClXlateErrno_pos {e : Nat} (pos : 0 < e) : 0 < naClXlateErrno e := by
  rw [naClXlateErrno]
  split
  · decide
  · exact pos

theorem naClXlateErrno_eq_zero_iff {e : Nat} : naClXlateErrno e = 0 ↔ e = 0 := by
  constructor
  · intro zero
    rcases Nat.eq_zero_or_pos e with h | pos
    · exact h
    · exact absurd zero (Nat.pos_iff_ne_zero.mp (naClXlateErrno_pos pos))
  · rintro rfl
    decide

/-- The result of a wrapper, as the operations see it. -/
def HostResult.value : HostResult → Int
  | .fail _ => -1
  | .ok value _ => value

/-- A failure has a number, and a success one of these values. -/
def HostResult.Within (values : Nat → Prop) : HostResult → Prop
  | .fail errno => 0 < errno
  | .ok value _ => values value

def Served.IsHost : Served → Prop
  | .host .. => True
  | .library .. => False

/-- A wrapper makes one request and otherwise host calls only, leaves the append mode alone,
    and returns what the request returned. -/
def Wraps (host : σ → HostCall → HostResult × σ) (library : σ → Call → Reply × σ)
    (values : Nat → Prop) (t : HostTree Reply) : Prop :=
  ∀ s, ∃ reply served s' c r, Runs host library t s (some reply) served s' ∧
    OneRequest served c r ∧ r.Within values ∧ ¬ AppendStuck served ∧
    (∀ x ∈ served, x.IsHost) ∧ reply.ret = r.value

/-- An untrusted wrapper returns the result as it is, unless it is the offset of a seek. -/
theorem untrustedReply_ret (request : c.isRequest = true)
    (notSeek : ∀ fd offset whence, c ≠ .lseek64 fd offset whence) (h : r.Possible c) :
    (untrustedReply c r).ret = r.value := by
  cases r with
  | fail e => cases c <;> first | rfl | exact absurd request Bool.false_ne_true
  | ok value data =>
    have small : value < 2 ^ 31 := by
      cases c <;> simp only [HostResult.Possible] at h <;>
        first
          | omega
          | exact absurd rfl (notSeek _ _ _)
    cases c with
    | fcntl => exact absurd request Bool.false_ne_true
    | unmapUntrusted => exact absurd request Bool.false_ne_true
    | _ => exact cInt_of_lt small

variable {values : Nat → Prop} {t : HostTree Reply}

/-- What is done with the reply of a wrapper may change its data. -/
theorem Wraps.map {f : Reply → HostTree Reply} (wraps : Wraps host library values t)
    (keeps : ∀ reply : Reply, reply.ret = -1 ∨ (∃ v : Nat, values v ∧ reply.ret = v) →
      ∃ reply', f reply = pure reply' ∧ reply'.ret = reply.ret) :
    Wraps host library values (t >>= f) := fun s => by
  obtain ⟨reply, served, s', c, r, runs, one, within, quiet, hosts, ret⟩ := wraps s
  have cases : reply.ret = -1 ∨ ∃ v : Nat, values v ∧ reply.ret = v := by
    cases r with
    | fail e => exact Or.inl ret
    | ok v data => exact Or.inr ⟨v, within, ret⟩
  obtain ⟨reply', eq, ret'⟩ := keeps reply cases
  refine ⟨reply', _, s', c, r, runs.bind_eq eq (Runs.pure reply' s'), ?_, within, ?_, ?_,
    ret'.trans ret⟩
  · rwa [List.append_nil]
  · rwa [List.append_nil]
  · rwa [List.append_nil]

section wrappers

variable (possible : ∀ s c, (host s c).1.Possible c)

include possible

theorem wraps_sgxOcall (request : c.isRequest = true)
    (notSeek : ∀ fd offset whence, c ≠ .lseek64 fd offset whence)
    (returns : ∀ value data, HostResult.Possible c (.ok value data) → values value) :
    Wraps host library values (sgxOcall c) := fun s => by
  have poss := possible s c
  refine ⟨_, _, _, c, (host s c).1, Runs.sgxOcall c s, OneRequest.single request _, ?_, ?_, ?_,
    untrustedReply_ret request notSeek poss⟩
  · cases h : (host s c).1 with
    | fail e =>
      rw [h] at poss
      cases c <;> exact poss
    | ok value data => exact returns value data (h ▸ poss)
  · rintro ⟨fd, args, e, mem⟩
    injection List.mem_singleton.mp mem with same
    subst same
    exact absurd request Bool.false_ne_true
  · intro x hx
    cases List.mem_singleton.mp hx
    trivial

/-- The bracket adds the mapping and unmapping of memory, or fails with the mapping. -/
theorem wraps_withUntrustedBuf {body : HostTree Reply} (wraps : Wraps host library values body)
    (limit count : Nat) : Wraps host library values (withUntrustedBuf limit count body) := by
  rw [withUntrustedBuf]
  split
  · intro s
    have poss := possible s (.allocUntrusted (allocAlignup count))
    have first := @Runs.sgxOcall σ host library
      (.allocUntrusted (allocAlignup count)) s
    generalize (host s (.allocUntrusted (allocAlignup count))).2 = s₁ at *
    cases h : (host s (.allocUntrusted (allocAlignup count))).1 with
    | fail e =>
      rw [h] at first poss
      have ret : (untrustedReply (.allocUntrusted (allocAlignup count)) (.fail e)).ret = -1 := rfl
      generalize untrustedReply (.allocUntrusted (allocAlignup count)) (.fail e) = alloc at *
      refine ⟨{ ret := alloc.ret }, _, s₁, _, .fail e,
        first.bind_eq (if_pos (by omega)) (Runs.pure _ _),
        by simpa using OneRequest.single rfl (.fail e), poss, ?_, ?_, ret⟩
      · rintro ⟨fd, args, e, mem⟩
        simp at mem
      · simp [Served.IsHost]
    | ok value data =>
      rw [h] at first poss
      have ret : (untrustedReply (.allocUntrusted (allocAlignup count)) (.ok value data)).ret = 0 :=
        (cInt_of_lt (Nat.lt_of_le_of_lt (Nat.le_of_eq poss) (by decide))).trans
          (congrArg Nat.cast poss)
      generalize untrustedReply (.allocUntrusted (allocAlignup count)) (.ok value data) = alloc at *
      obtain ⟨reply, served, s', c, r, runs, one, within, quiet, hosts, ret'⟩ := wraps s₁
      have last := @Runs.sgxOcall σ host library
        (.unmapUntrusted (allocAlignup count)) s'
      refine ⟨reply, _, _, c, r, first.bind_eq (if_neg (by omega))
        (runs.bind_eq (if_pos ret) (last.bind (Runs.pure reply _))), ?_, within, ?_, ?_, ret'⟩
      · rw [List.append_nil]
        refine (one.append ?_).prepend ?_
        · intro x hx
          cases List.mem_singleton.mp hx
          cases (host s' (.unmapUntrusted (allocAlignup count))).1 <;> trivial
        · intro x hx
          cases List.mem_singleton.mp hx
          trivial
      · rintro ⟨fd, args, e, mem⟩
        refine quiet ⟨fd, args, e, ?_⟩
        simpa using mem
      · intro x hx
        rw [List.append_nil] at hx
        rcases List.mem_append.mp hx with hx | hx
        · cases List.mem_singleton.mp hx
          trivial
        · rcases List.mem_append.mp hx with hx | hx
          · exact hosts x hx
          · cases List.mem_singleton.mp hx
            trivial
  · exact wraps

theorem wraps_ocallRead (fd : Int) (count : Nat) :
    Wraps host library (· ≤ count % 2 ^ 32) (ocallRead fd count) := by
  apply wraps_withUntrustedBuf possible
  have request : Wraps host library (· ≤ count % 2 ^ 32) (sgxOcall (.read fd (count % 2 ^ 32))) :=
    wraps_sgxOcall possible rfl (by simp) fun value data h => h.1
  refine request.map fun reply ret => ?_
  split
  · rw [if_neg (by omega)]
    exact ⟨_, rfl, rfl⟩
  · exact ⟨_, rfl, rfl⟩

theorem wraps_ocallWrite (fd : Int) (buf : List Byte) :
    Wraps host library (· ≤ buf.length % 2 ^ 32) (ocallWrite fd buf) := by
  apply wraps_withUntrustedBuf possible
  have request : Wraps host library (· ≤ buf.length % 2 ^ 32)
      (sgxOcall (.write fd (buf.take (buf.length % 2 ^ 32)))) :=
    wraps_sgxOcall possible rfl (by simp) fun value data h =>
      Nat.le_trans h.1 (List.length_take_le _ _)
  refine request.map fun reply ret => ?_
  rw [if_neg (by omega)]
  exact ⟨_, rfl, rfl⟩

theorem wraps_ocallPread64 (fd : Int) (count : Nat) (pos : Int) :
    Wraps host library (· ≤ count % 2 ^ 32) (ocallPread64 fd count pos) := by
  apply wraps_withUntrustedBuf possible
  have request : Wraps host library (· ≤ count % 2 ^ 32)
      (sgxOcall (.pread64 fd (count % 2 ^ 32) (pos % 2 ^ 64).toNat)) :=
    wraps_sgxOcall possible rfl (by simp) fun value data h => h.1
  refine request.map fun reply _ => ?_
  split <;> exact ⟨_, rfl, rfl⟩

theorem wraps_ocallPwrite64 (fd : Int) (buf : List Byte) (offset : Int) :
    Wraps host library (fun _ => True) (ocallPwrite64 fd buf offset) :=
  wraps_withUntrustedBuf possible (wraps_sgxOcall possible rfl (by simp) fun _ _ _ => trivial) _ _

theorem wraps_copyStat (request : c.isRequest = true)
    (notSeek : ∀ fd offset whence, c ≠ .lseek64 fd offset whence)
    (zero : ∀ value data, HostResult.Possible c (.ok value data) → value = 0) :
    Wraps host library (· = 0) (copyStat c) :=
  (wraps_sgxOcall possible request notSeek zero).map fun reply _ => by
    split <;> exact ⟨_, rfl, rfl⟩

end wrappers

/-! ## Operations that answer their request -/

/-- What `errno` makes of the result of the request. -/
def HostResult.Returned (errno : Nat) (r : HostResult) (result : Option Int) : Prop :=
  ∃ v, result = some v ∧ match r with
    | .fail _ => v = negXlate errno
    | .ok .. => 0 ≤ v

/-- Every run makes no request, or one and returns what `errno` makes of its result, or aborts
    because the append mode is stuck. -/
def Answers (host : σ → HostCall → HostResult × σ) (library : σ → Call → Reply × σ)
    (errno : Nat) (t : HostTree Int) : Prop :=
  ∀ s, ∃ result served s', Runs host library t s result served s' ∧
    (NoRequest served ∨ (AppendStuck served ∧ result = none) ∨
      ∃ c r, OneRequest served c r ∧ r.Within (fun _ => True) ∧ ¬ AppendStuck served ∧
        r.Returned errno result)

theorem Answers.pure (errno : Nat) (v : Int) : Answers host library errno (pure v) := fun s =>
  ⟨_, _, _, Runs.pure v s, Or.inl fun _ _ mem => absurd mem List.not_mem_nil⟩

theorem Answers.abort (errno : Nat) : Answers host library errno CallTree.abort := fun s =>
  ⟨_, _, _, Runs.abort s, Or.inl fun _ _ mem => absurd mem List.not_mem_nil⟩

variable {k : Reply → HostTree Int} {errno : Nat}

theorem Answers.afterLibrary {c : Call} (notHost : ∀ h, c ≠ .host h)
    (rest : ∀ reply, Answers host library errno (k reply)) :
    Answers host library errno (perform c >>= k) := fun s => by
  obtain ⟨result, served, s', runs, cases⟩ := rest (library s c).1 (library s c).2
  refine ⟨result, _, s', (Runs.libraryCall notHost s).bind runs, ?_⟩
  rcases cases with none | ⟨⟨fd, args, e, mem⟩, aborted⟩ | ⟨c', r, one, within, notStuck, returned⟩
  · refine Or.inl fun c' r mem => none c' r ?_
    simpa using mem
  · exact Or.inr (Or.inl ⟨⟨fd, args, e, List.mem_append_right _ mem⟩, aborted⟩)
  · refine Or.inr (Or.inr ⟨c', r, ?_, within, ?_, returned⟩)
    · refine one.prepend fun x hx => ?_
      cases List.mem_singleton.mp hx
      trivial
    · rintro ⟨fd, args, e, mem⟩
      exact notStuck ⟨fd, args, e, by simpa using mem⟩

theorem NoRequest.prepend (none : NoRequest served) (h : NoRequest before) :
    NoRequest (before ++ served) := fun c r mem =>
  (List.mem_append.mp mem).elim (h c r) (none c r)

/-- A descriptor that is closed aborts before any call. -/
theorem Answers.afterValidity {rest : HostTree Int} (d : NaClHostDesc)
    (answers : Answers host library errno rest) :
    Answers host library errno (naClHostDescCheckValidity d >>= fun _ => rest) := by
  rw [naClHostDescCheckValidity]
  split
  · exact Answers.abort errno
  · exact answers

variable {fd args : Int}

/-- The flags of a descriptor may be read first. -/
theorem Answers.afterGetfl (rest : ∀ reply, Answers host library errno (k reply)) :
    Answers host library errno (sgxOcall (.fcntl fd fGETFL args) >>= k) := fun s => by
  obtain ⟨result, served, s', runs, cases⟩ :=
    rest (untrustedReply (.fcntl fd fGETFL args) (host s (.fcntl fd fGETFL args)).1)
      (host s (.fcntl fd fGETFL args)).2
  refine ⟨result, _, s', (Runs.sgxOcall _ s).bind runs, ?_⟩
  rcases cases with none | ⟨⟨fd', args', e, mem⟩, aborted⟩ |
    ⟨c', r, one, within, notStuck, returned⟩
  · exact Or.inl (none.prepend fun c r mem => by cases List.mem_singleton.mp mem; rfl)
  · exact Or.inr (Or.inl ⟨⟨fd', args', e, List.mem_append_right _ mem⟩, aborted⟩)
  · refine Or.inr (Or.inr ⟨c', r, ?_, within, ?_, returned⟩)
    · refine one.prepend fun x hx => ?_
      cases List.mem_singleton.mp hx
      cases (host s (.fcntl fd fGETFL args)).1 <;> trivial
    · rintro ⟨fd', args', e, mem⟩
      refine notStuck ⟨fd', args', e, ?_⟩
      simpa [fGETFL, fSETFL] using mem

/-- The flags of a descriptor may be set first, if a failure aborts. -/
theorem Answers.afterSetfl (failed : ∀ reply : Reply, reply.ret = -1 → k reply = CallTree.abort)
    (rest : ∀ reply, Answers host library errno (k reply)) :
    Answers host library errno (sgxOcall (.fcntl fd fSETFL args) >>= k) := fun s => by
  have first := @Runs.sgxOcall σ host library (.fcntl fd fSETFL args) s
  generalize (host s (.fcntl fd fSETFL args)).2 = s₁ at *
  cases h : (host s (.fcntl fd fSETFL args)).1 with
  | fail e =>
    rw [h] at first
    refine ⟨none, _, _, first.bind_eq (failed _ rfl) (Runs.abort s₁), Or.inr (Or.inl ⟨?_, rfl⟩)⟩
    exact ⟨fd, args, e, List.mem_cons_self⟩
  | ok value data =>
    rw [h] at first
    obtain ⟨result, served, s', runs, cases⟩ := rest _ s₁
    refine ⟨result, _, s', first.bind runs, ?_⟩
    rcases cases with none | ⟨⟨fd', args', e, mem⟩, aborted⟩ |
      ⟨c', r, one, within, notStuck, returned⟩
    · exact Or.inl (none.prepend fun c r mem => by cases List.mem_singleton.mp mem; rfl)
    · exact Or.inr (Or.inl ⟨⟨fd', args', e, List.mem_append_right _ mem⟩, aborted⟩)
    · refine Or.inr (Or.inr ⟨c', r, ?_, within, ?_, returned⟩)
      · refine one.prepend fun x hx => ?_
        cases List.mem_singleton.mp hx
        trivial
      · rintro ⟨fd', args', e, mem⟩
        refine notStuck ⟨fd', args', e, ?_⟩
        simpa using mem

/-- What `errno` makes of the result of a wrapper, in the way of the operations: minus one is
    translated, and a success gives no error. -/
def Translates (errno : Nat) (values : Nat → Prop) (f : Reply → HostTree Int) : Prop :=
  (∀ reply : Reply, reply.ret = -1 → f reply = pure (negXlate errno)) ∧
    ∀ (reply : Reply) (v : Nat), values v → reply.ret = v → ∃ w, f reply = pure w ∧ 0 ≤ w

variable {f : Reply → HostTree Int}

theorem Wraps.run_translated (wraps : Wraps host library values t)
    (translates : Translates errno values f) (s : σ) :
    ∃ result served s' c r, Runs host library (t >>= f) s result served s' ∧
      OneRequest served c r ∧ r.Within (fun _ => True) ∧ ¬ AppendStuck served ∧
      r.Returned errno result := by
  obtain ⟨reply, served, s', c, r, runs, one, within, notStuck, _, ret⟩ := wraps s
  cases r with
  | fail e =>
    have whole := runs.bind_eq (translates.1 reply ret) (Runs.pure _ _)
    rw [List.append_nil] at whole
    exact ⟨_, _, _, c, _, whole, one, within, notStuck, _, rfl, rfl⟩
  | ok v data =>
    obtain ⟨w, eq, nonneg⟩ := translates.2 reply v within ret
    have whole := runs.bind_eq eq (Runs.pure _ _)
    rw [List.append_nil] at whole
    exact ⟨_, _, _, c, _, whole, one, trivial, notStuck, _, rfl, nonneg⟩

theorem Wraps.answers (wraps : Wraps host library values t)
    (translates : Translates errno values f) : Answers host library errno (t >>= f) := fun s => by
  obtain ⟨result, served, s', c, r, runs, one, within, notStuck, returned⟩ :=
    wraps.run_translated translates s
  exact ⟨result, served, s', runs, Or.inr (Or.inr ⟨c, r, one, within, notStuck, returned⟩)⟩

theorem translates_ret (errno : Nat) (values : Nat → Prop) : Translates errno values fun reply =>
      if reply.ret = -1 then pure (negXlate errno) else pure reply.ret := by
  refine ⟨fun reply ret => if_pos ret, fun reply v _ ret => ⟨reply.ret, if_neg ?_, ?_⟩⟩ <;> omega

theorem Answers.failIfMinusOne (wraps : Wraps host library values t) :
    Answers host library errno (failIfMinusOne errno t) := by
  refine wraps.answers ⟨fun reply ret => if_pos ret, fun reply v _ ret => ?_⟩
  exact ⟨0, if_neg (by omega), le_refl 0⟩

theorem Answers.failUnlessZero (wraps : Wraps host library (· = 0) t) :
    Answers host library errno (failUnlessZero errno t) := by
  refine wraps.answers ⟨fun reply ret => if_pos (by omega), fun reply v zero ret => ?_⟩
  exact ⟨0, if_neg (by omega), le_refl 0⟩

theorem Answers.statOrFail (wraps : Wraps host library values t) :
    Answers host library errno (statOrFail errno t >>= fun p => Pure.pure p.1) := by
  rw [HostDesc.statOrFail, CallTree.bind_assoc_eq]
  refine wraps.answers ⟨fun reply ret => ?_, fun reply v _ ret => ⟨0, ?_, le_refl 0⟩⟩
  · dsimp only
    rw [if_pos ret]
    rfl
  · dsimp only
    rw [if_neg (by omega)]
    rfl

end SandboxTEE.HostDesc
