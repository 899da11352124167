import SandboxTEE.Quota.Model

/-! # Only granted bytes are written

Each call by itself writes only after a request for the position it has asked for (`obeys_call`).
In an interleaving the position is still the one it asked for, as long as no read moves it in
between (`quota_enforced`).
-/

namespace SandboxTEE.Quota

open SandboxTEE.Lib
open SandboxTEE.Lib.CallTree (Obeys)

variable {self : NaClDescQuota}

abbrev Log := List (Op × Int)

/-! ## What a call knows -/

/-- The call has the mutex. -/
def held (log : Log) : Bool :=
  log.foldl (fun held entry => match entry.1 with
    | .lock => true
    | .unlock => false
    | _ => held) false

/-- The position that the call has asked for under the mutex, until it moves it itself. -/
def known (log : Log) : Option Int :=
  log.foldl (fun known entry => match entry.1 with
    | .seek offset whence =>
      if offset = 0 ∧ whence = .cur ∧ 0 ≤ entry.2 then some entry.2 else none
    | .read .. | .write .. | .unlock => none
    | _ => known) none

/-- A request for `offset` was made and `granted` was the answer. -/
def Granted (self : NaClDescQuota) (log : Log) (offset granted : Int) : Prop :=
  ∃ length, (.writeRequest self.fileId offset length, granted) ∈ log

/-- What a call may do next. -/
def Allowed (self : NaClDescQuota) (log : Log) : Op → Prop
  | .lock => held log = false
  | .unlock => held log = true
  | .seek .. => held log = true
  | .write _ len => held log = true ∧
    (0 < len → ∃ offset granted, Granted self log offset granted ∧ known log = some offset ∧
      (len : Int) ≤ granted)
  | .pwrite _ len offset => 0 < len → ∃ granted, Granted self log offset granted ∧ (len : Int) ≤ granted
  | .writeRequest .. => self.quotaInterface = true
  | .read .. | .pread .. => True

/-- Nothing was granted. -/
def Refused (self : NaClDescQuota) (log : Log) : Prop :=
  self.quotaInterface = false ∨
    ∀ fileId offset length granted, (.writeRequest fileId offset length, granted) ∈ log → granted ≤ 0

/-- No operation of the call wrote a byte. -/
def WroteNothing (log : Log) : Prop := ∀ u : Underneath, ∀ entry ∈ log, u.written entry.1 entry.2 = none

/-- The answer of a write for which nothing was granted. -/
def Answered (self : NaClDescQuota) : Request → Log → Int → Prop
  | .write buf len, log, rv => Refused self log → WroteNothing log ∧
    -- nothing is asked for when there is nothing to write
    if len = 0 then (.write buf 0, rv) ∈ log
    else rv = -naClAbiEDQUOT ∨ rv < 0 ∧ (.seek 0 .cur, rv) ∈ log
  | .pwrite buf len offset, log, rv => Refused self log → WroteNothing log ∧
    if len = 0 then (.pwrite buf 0 offset, rv) ∈ log else rv = -naClAbiEDQUOT
  | _, _, _ => True

/-- A call that has ended has given the mutex back. -/
def Finished (self : NaClDescQuota) (request : Request) (log : Log) (rv : Int) : Prop :=
  held log = false ∧ Answered self request log rv

theorem reduce_le {allowed : Int} {len : Nat} (positive : 0 < allowed) :
    (NaClDescQuota.reduce allowed len : Int) ≤ allowed := by
  rw [NaClDescQuota.reduce]
  split <;> omega

variable {log : Log}

/-- A request for quota, by cases of what it comes to. -/
theorem obeys_writeAllowed {can : Op → Int → Prop} {post : Log → Int → Prop} {offset : Int}
    {len : Nat} {k : Int → Call}
    (refused : self.quotaInterface = false → Obeys can (Allowed self) post log (k 0))
    (asked : self.quotaInterface = true → ∀ granted, Obeys can (Allowed self) post
      (log ++ [(.writeRequest self.fileId offset len, granted)]) (k granted)) :
    Obeys can (Allowed self) post log (self.writeAllowed offset len >>= k) := by
  rw [NaClDescQuota.writeAllowed]
  by_cases hasInterface : self.quotaInterface = true
  · rw [if_pos hasInterface]
    exact ⟨hasInterface, fun granted _ => asked hasInterface granted⟩
  · rw [if_neg hasInterface]
    exact refused (by simpa using hasInterface)

theorem wroteNothing_nil : WroteNothing [] := fun _ _ member => nomatch member

variable {r : Int}

theorem WroteNothing.snoc (before : WroteNothing log) {e : Op}
    (here : ∀ u : Underneath, u.written e r = none) : WroteNothing (log ++ [(e, r)]) := by
  intro u entry member
  rw [List.mem_append, List.mem_singleton] at member
  cases member with
  | inl old => exact before u entry old
  | inr new => rw [new, here]

theorem not_refused {fileId : List (BitVec 8)} {offset length granted : Int}
    (hasInterface : self.quotaInterface = true)
    (asked : (.writeRequest fileId offset length, granted) ∈ log) (positive : 0 < granted) :
    ¬ Refused self log := by
  intro refused
  cases refused with
  | inl noInterface => simp [hasInterface] at noInterface
  | inr none => exact absurd (none fileId offset length granted asked) (by omega)

/-- Whatever the replies, a call does what it may do, and answers as it should. -/
theorem obeys_call (self : NaClDescQuota) (request : Request) :
    (request.call self).Obeys can (Allowed self) (Finished self request) [] := by
  cases request with
  | read buf len => exact ⟨trivial, fun r _ => ⟨rfl, trivial⟩⟩
  | pread buf len offset => exact ⟨trivial, fun r _ => ⟨rfl, trivial⟩⟩
  | seek offset whence =>
    exact ⟨rfl, fun _ _ => ⟨rfl, fun _ _ => ⟨rfl, fun _ _ => ⟨rfl, trivial⟩⟩⟩⟩
  | pwrite buf len offset =>
    rw [Request.call, NaClDescQuota.naClDescQuotaPWrite]
    by_cases nothing : len = 0
    · rw [if_pos nothing]
      refine ⟨by simp [Allowed], fun rv short => ⟨rfl, fun refused => ⟨?_, ?_⟩⟩⟩
      · have none : ¬ 0 < rv := by simpa [can] using short
        exact wroteNothing_nil.snoc fun u => if_neg none
      · simp [nothing]
    · rw [if_neg nothing]
      refine obeys_writeAllowed (fun _ => ⟨rfl, fun _ => ⟨wroteNothing_nil, by rw [if_neg nothing]⟩⟩)
        fun hasInterface granted => ?_
      by_cases positive : granted ≤ 0
      · rw [if_pos positive]
        exact ⟨rfl, fun _ => ⟨wroteNothing_nil.snoc fun _ => rfl, by rw [if_neg nothing]⟩⟩
      · rw [if_neg positive]
        have asked : Granted self [(.writeRequest self.fileId offset
            (NaClDescQuota.capWriteLength len), granted)] offset granted := ⟨_, List.mem_singleton_self _⟩
        refine ⟨fun _ => ⟨granted, asked, reduce_le (by omega)⟩, fun rv _ => ⟨rfl, fun refused => ?_⟩⟩
        exact absurd refused (not_refused hasInterface List.mem_cons_self (not_le.mp positive))
  | write buf len =>
    refine ⟨rfl, fun locked _ => ?_⟩
    change Obeys _ _ _ [(.lock, locked)] (self.writeLocked buf len >>= _)
    rw [NaClDescQuota.writeLocked]
    have clear := wroteNothing_nil.snoc (e := .lock) (r := locked) fun _ => rfl
    by_cases nothing : len = 0
    · rw [if_pos nothing]
      refine ⟨⟨rfl, by simp⟩, fun rv short => ⟨rfl, fun _ _ => ⟨rfl, fun _ => ⟨?_, ?_⟩⟩⟩⟩
      · have none : ¬ 0 < rv := by simpa [can] using short
        exact (clear.snoc (e := .write buf 0) fun u => if_neg none).snoc fun _ => rfl
      · simp [nothing]
    · rw [if_neg nothing]
      refine ⟨rfl, fun fileOffset _ => ?_⟩
      have queried := clear.snoc (e := .seek 0 .cur) (r := fileOffset) fun _ => rfl
      change Obeys _ _ _ [(Op.lock, locked), (Op.seek 0 .cur, fileOffset)]
        ((if fileOffset < 0 then _ else _) >>= _)
      by_cases failed : fileOffset < 0
      · rw [if_pos failed]
        refine ⟨rfl, fun _ _ => ⟨rfl, fun _ => ⟨queried.snoc fun _ => rfl, ?_⟩⟩⟩
        rw [if_neg nothing]
        exact .inr ⟨failed, by simp⟩
      · rw [if_neg failed, CallTree.bind_assoc_eq]
        refine obeys_writeAllowed (fun _ => ⟨rfl, fun _ _ => ⟨rfl, fun _ =>
          ⟨queried.snoc fun _ => rfl, ?_⟩⟩⟩) fun hasInterface granted => ?_
        · rw [if_neg nothing]
          exact .inl rfl
        · have requested := queried.snoc (e := .writeRequest self.fileId fileOffset
            (NaClDescQuota.capWriteLength len)) (r := granted) fun _ => rfl
          by_cases positive : granted ≤ 0
          · rw [if_pos positive]
            refine ⟨rfl, fun _ _ => ⟨rfl, fun _ => ⟨requested.snoc fun _ => rfl, ?_⟩⟩⟩
            rw [if_neg nothing]
            exact .inl rfl
          · rw [if_neg positive]
            refine ⟨⟨rfl, fun _ => ⟨fileOffset, granted, ⟨_, by simp; rfl⟩, ?_, reduce_le (by omega)⟩⟩,
              fun rv _ => ⟨rfl, fun _ _ => ⟨rfl, fun refused => ?_⟩⟩⟩
            · simp [known, not_lt.mp failed]
            · exact absurd refused (not_refused hasInterface (List.mem_cons_of_mem _
                (List.mem_cons_of_mem _ List.mem_cons_self)) (not_le.mp positive))

/-! ## Side by side -/

@[simp] theorem held_snoc (log : Log) (op : Op) (r : Int) : held (log ++ [(op, r)]) = match op with
    | .lock => true
    | .unlock => false
    | _ => held log := by
  rw [held, List.foldl_append]
  rfl

@[simp] theorem known_snoc (log : Log) (op : Op) (r : Int) : known (log ++ [(op, r)]) =
    match op with
    | .seek offset whence => if offset = 0 ∧ whence = .cur ∧ 0 ≤ r then some r else none
    | .read .. | .write .. | .unlock => none
    | _ => known log := by
  rw [known, List.foldl_append]
  rfl

structure Sound (quota : NaClDescQuota) (w : World) : Prop where
  obeys : w.Obeys can (fun _ => Allowed quota) (Finished quota)
  /-- The mutex is where the calls say. -/
  holder : ∀ t, w.shared.holder = some t ↔
    ∃ thread, w.thread t = some thread ∧ held thread.log = true
  /-- The position is still the one that was asked for. -/
  pos : ∀ t thread p, w.thread t = some thread → known thread.log = some p →
    held thread.log = true ∧ w.shared.pos = p

/-- The condition on an event: no read moves the position while a write is between its question for
    the position and its own operation, and a write that appends finds the position at the end. -/
def Calm (w : World) : PoolEvent Request Int → Prop
  | .act t r => ∀ request log op k, w.thread t = some ⟨request, log, .call op k⟩ → 0 < r →
    match op with
    | .read .. => ∀ u thread, w.thread u = some thread → known thread.log = none
    | .write .. => w.shared.append = true → w.shared.pos = w.shared.size
    | _ => True
  | _ => True

variable {w w' : World}

theorem sound_idle (u : Underneath) (free : u.holder = none) : Sound self (Pool.idle u) where
  obeys := Pool.obeys_idle u
  holder t := by simp [Pool.idle, free]
  pos := nofun

variable {t : Nat}

/-- Only the thread with the mutex has it in its log. -/
theorem Sound.unique (sound : Sound self w) {u : Nat} {a b : Thread Request Op Int Int}
    (busyA : w.thread t = some a) (busyB : w.thread u = some b) (heldA : held a.log = true)
    (heldB : held b.log = true) : t = u := by
  have first := (sound.holder t).mpr ⟨a, busyA, heldA⟩
  have second := (sound.holder u).mpr ⟨b, busyB, heldB⟩
  exact Option.some.inj (first.symm.trans second)

variable {u u' : Underneath} {op : Op}

/-- What the effect of an operation needs and does, as far as the invariant looks. -/
theorem serve_some (served : serve t u op r = some u') : can op r ∧ effect t u op r = some u' := by
  rw [serve] at served
  split at served
  · next possible => exact ⟨possible, served⟩
  · cases served

theorem effect_holder (done : effect t u op r = some u') : match op with
    | .lock => u.holder = none ∧ u'.holder = some t
    | .unlock => u.holder = some t ∧ u'.holder = none
    | _ => u'.holder = u.holder := by
  cases op with
  | pread | writeRequest =>
    cases done
    rfl
  | lock | unlock | seek | read | write | pwrite =>
    simp only [effect] at done
    split_ifs at done <;> cases done <;> simp_all

theorem effect_pos (done : effect t u op r = some u') : u'.pos = u.pos ∨ match op with
      | .seek .. | .write .. => True
      | .read .. => 0 < r
      | _ => False := by
  cases op with
  | pread | writeRequest =>
    cases done
    exact .inl rfl
  | seek | write => exact .inr trivial
  | lock | unlock | pwrite =>
    simp only [effect] at done
    split_ifs at done <;> cases done <;> exact .inl rfl
  | read =>
    by_cases moves : 0 < r
    · exact .inr moves
    · simp only [effect] at done
      split_ifs at done
      · cases done
        exact .inl rfl
      · cases done
        exact .inl (show u.pos + r = u.pos by omega)

/-- What the reply to its own question tells a call. -/
theorem effect_seek (done : effect t u (.seek 0 .cur) r = some u') (found : 0 ≤ r) :
    u'.pos = r := by
  simp only [effect] at done
  split_ifs at done
  · omega
  · cases done
    rfl

section Act

variable {t : Nat} {request : Request} {log : Log} {op : Op} {r : Int} {k : Int → Call}
  {shared : Underneath}

theorem act_holder (sound : Sound self w) (busy : w.thread t = some ⟨request, log, .call op k⟩)
    (done : effect t w.shared op r = some shared) (u : Nat) : shared.holder = some u ↔
      ∃ thread, Function.update w.thread t (some ⟨request, log ++ [(op, r)], k r⟩) u =
        some thread ∧ held thread.log = true := by
  have before := sound.holder u
  have after := effect_holder done
  have mine : (∃ thread, w.thread t = some thread ∧ held thread.log = true) ↔ held log = true := by
    simp [busy]
  by_cases here : u = t
  · subst here
    rw [Function.update_self]
    rw [mine] at before
    cases op <;> simp_all
  · rw [Function.update_of_ne here]
    rw [← before]
    cases op with
    | lock => simp [after, Ne.symm here]
    | unlock => simp [after, Ne.symm here]
    | seek | read | write | pread | pwrite | writeRequest => rw [after]

theorem act_pos (sound : Sound self w) (calm : Calm w (.act t r))
    (busy : w.thread t = some ⟨request, log, .call op k⟩)
    (done : effect t w.shared op r = some shared) {u : Nat} {thread : Thread Request Op Int Int}
    {p : Int} (busy' : Function.update w.thread t (some ⟨request, log ++ [(op, r)], k r⟩) u =
      some thread) (found : known thread.log = some p) :
    held thread.log = true ∧ shared.pos = p := by
  have allowed : Allowed self log op := (sound.obeys t _ busy).1
  have moves := effect_pos done
  by_cases here : u = t
  · subst here
    rw [Function.update_self] at busy'
    cases busy'
    dsimp only at found ⊢
    have mine := sound.pos u _ p busy
    rw [known_snoc] at found
    rw [held_snoc]
    cases op with
    | seek offset whence =>
      dsimp only at found
      split at found
      · next own =>
        obtain ⟨rfl, rfl, nonneg⟩ := own
        cases found
        exact ⟨allowed, effect_seek done nonneg⟩
      · cases found
    | read | write | unlock => cases found
    | lock => exact absurd (mine found).1 (by rw [allowed]; exact Bool.false_ne_true)
    | pread | pwrite | writeRequest =>
      exact ⟨(mine found).1, (moves.resolve_right id).trans (mine found).2⟩
  · rw [Function.update_of_ne here] at busy'
    obtain ⟨has, pos⟩ := sound.pos u thread p busy' found
    refine ⟨has, Eq.trans ?_ pos⟩
    -- another thread moves the position only with the mutex or by a read
    refine moves.resolve_right fun moved => ?_
    cases op with
    | seek => exact here (sound.unique busy' busy has allowed)
    | write => exact here (sound.unique busy' busy has allowed.1)
    | read =>
      rw [calm request log _ k busy moved u thread busy'] at found
      cases found
    | lock | unlock | pread | pwrite | writeRequest => exact moved

end Act

theorem Sound.set (sound : Sound self w) {new : Option (Thread Request Op Int Int)}
    (obeys : (w.set t new).Obeys can (fun _ => Allowed self) (Finished self))
    (free : ∀ thread, w.thread t = some thread → held thread.log = false)
    (fresh : ∀ thread, new = some thread → thread.log = []) : Sound self (w.set t new) := by
  refine ⟨obeys, fun u => ?_, fun u thread p busy found => ?_⟩
  · rw [Pool.set_shared, sound.holder u]
    by_cases here : u = t
    · subst here
      rw [Pool.set_thread_self]
      refine iff_of_false ?_ ?_ <;> rintro ⟨thread, busy, has⟩
      · simp [free thread busy] at has
      · simp [fresh thread busy, held] at has
    · rw [Pool.set_thread_of_ne _ here]
  · by_cases here : u = t
    · subst here
      rw [Pool.set_thread_self] at busy
      simp [fresh thread busy, known] at found
    · rw [Pool.set_thread_of_ne _ here] at busy
      exact sound.pos u thread p busy found

theorem step_sound {e : PoolEvent Request Int} (sound : Sound self w) (calm : Calm w e)
    (stepped : step self w e = some w') : Sound self w' := by
  have obeys := Pool.obeys_step (obeys_call self) (fun t u op r u' served => (serve_some served).1)
    sound.obeys stepped
  obtain ⟨t, request, rfl, free, rfl⟩ | ⟨t, r, request, log, op, k, shared, rfl, busy, served, rfl⟩ |
    ⟨t, request, log, rv, rfl, busy, rfl⟩ := Pool.step_cases stepped
  · exact sound.set obeys (fun thread busy => by simp [free] at busy) fun thread new => by
      cases new
      rfl
  · have done := (serve_some served).2
    exact ⟨obeys, fun u => act_holder (w := w) sound busy done u,
      fun u thread p => act_pos (w := w) sound calm busy done⟩
  · refine sound.set obeys (fun thread busy' => ?_) nofun
    cases busy.symm.trans busy'
    exact (sound.obeys t _ busy).1

/-! ## Runs -/

/-- The bytes of an operation lie in a range that was granted for the same call at this offset, and a
    call for which nothing was granted writes nothing and says so. -/
def Enforced (self : NaClDescQuota) (w : World) : PoolEvent Request Int → Prop
  | .start .. => True
  | .act t r => ∀ request log op k, w.thread t = some ⟨request, log, .call op k⟩ → can op r →
    ∀ start count, w.shared.written op r = some (start, count) →
      ∃ granted, Granted self log start granted ∧ count ≤ granted
  | .finish t => ∀ request log rv, w.thread t = some ⟨request, log, .done rv⟩ →
    Answered self request log rv

theorem Sound.enforced (sound : Sound self w) {e : PoolEvent Request Int} (calm : Calm w e) :
    Enforced self w e := by
  cases e with
  | start t request => trivial
  | finish t =>
    intro request log rv busy
    have finished : Finished self request log rv := sound.obeys t _ busy
    exact finished.2
  | act t r =>
    intro request log op k busy possible start count writes
    have allowed : Allowed self log op := (sound.obeys t _ busy).1
    cases op with
    | lock | unlock | seek | read | pread | writeRequest => cases writes
    | write buf len =>
      simp only [Underneath.written] at writes
      split at writes
      · next some =>
        cases writes
        obtain ⟨offset, granted, asked, found, enough⟩ := allowed.2 (by simp only [can] at possible; omega)
        have pos := (sound.pos t _ offset busy found).2
        have here : w.shared.writePos = offset := by
          rw [Underneath.writePos]
          split
          · next append => rw [← calm request log _ k busy some append, pos]
          · exact pos
        exact ⟨granted, here ▸ asked, le_trans possible enough⟩
      · cases writes
    | pwrite buf len offset =>
      simp only [Underneath.written] at writes
      split at writes
      · next some =>
        cases writes
        obtain ⟨granted, asked, enough⟩ := allowed (by simp only [can] at possible; omega)
        exact ⟨granted, asked, le_trans possible enough⟩
      · cases writes

/-- In every interleaving in which no read moves the position under a write, and in which a write
    that appends finds the position at the end, only granted bytes are written, at the place they
    were granted for. -/
theorem quota_enforced (self : NaClDescQuota) {u : Underneath} (free : u.holder = none)
    {events : List (PoolEvent Request Int)} {w : World}
    (calm : ∀ pre e, pre ++ [e] <+: events → ∀ w, pre.foldlM (step self) (Pool.idle u) = some w →
      Calm w e) (run : events.foldlM (step self) (Pool.idle u) = some w) :
    ∀ e, Calm w e → Enforced self w e := fun _ here =>
  (foldlM_invariant (fun _ _ _ sound calm stepped => step_sound sound calm stepped) events
    (Pool.idle u) w (sound_idle u free) calm run).enforced here

/-- A write of four bytes at offset 8 to a file of 100 bytes, four of which are granted. -/
theorem quota_enforced_pwrite :
    ∃ w, [PoolEvent.start 0 (Request.pwrite 0 4 8), .act 0 4].foldlM (step ⟨[], true⟩)
      (Pool.idle ⟨0, 100, false, none⟩) = some w ∧ Enforced ⟨[], true⟩ w (.act 0 4) := by
  obtain ⟨w, run⟩ : ∃ w, [PoolEvent.start 0 (Request.pwrite 0 4 8), .act 0 4].foldlM
      (step ⟨[], true⟩) (Pool.idle ⟨0, 100, false, none⟩) = some w := ⟨_, rfl⟩
  refine ⟨w, run, quota_enforced ⟨[], true⟩ rfl (fun pre e within w before => ?_) run _ ?_⟩
  · cases pre with
    | nil =>
      obtain ⟨rfl, -⟩ := List.cons_prefix_cons.mp within
      trivial
    | cons first pre =>
      obtain ⟨rfl, rest⟩ := List.cons_prefix_cons.mp within
      cases pre with
      | nil =>
        cases (List.cons_prefix_cons.mp rest).1
        cases before
        intro request log op k busy _
        cases busy
        trivial
      | cons second pre => simp at rest
  · cases run
    intro request log op k busy _
    cases busy
    trivial

/-- A read moves the position from 0 to 5 while a write is under way, and the ten bytes that were
    granted at 0 are written at 5.  Without an interface, a write of no bytes is answered by the
    descriptor underneath. -/
theorem naClDescQuotaWrite_moved :
    (∃ w, [PoolEvent.start 0 (Request.write 0 10), .start 1 (.read 0 5), .act 0 0, .act 0 0,
        .act 1 5, .act 0 10].foldlM (step ⟨[], true⟩) (Pool.idle ⟨0, 100, false, none⟩) = some w ∧
      ¬ Enforced ⟨[], true⟩ w (.act 0 10)) ∧
    ∃ w log, [PoolEvent.start 0 (Request.write 0 0), .act 0 0, .act 0 0, .act 0 0].foldlM
        (step ⟨[], false⟩) (Pool.idle ⟨0, 100, false, none⟩) = some w ∧
      w.thread 0 = some ⟨.write 0 0, log, .done 0⟩ := by
  refine ⟨⟨_, rfl, fun enforced => ?_⟩, _, _, rfl, rfl⟩
  obtain ⟨granted, ⟨length, asked⟩, -⟩ := enforced _ _ _ _ rfl (by decide) 5 10 rfl
  simp at asked

end SandboxTEE.Quota
