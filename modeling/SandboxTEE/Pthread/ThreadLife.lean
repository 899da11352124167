import Mathlib.Data.Finset.Card
import SandboxTEE.Lib.Run

/-! # The life of a thread (`nc_thread.c`)

`pthread_create`, `pthread_exit`, `pthread_join` and `pthread_detach` by any number of threads, at
the granularity of the sections that hold `__nc_thread_management_lock`; a wait on `join_condvar`
ends a section, and may end without a signal.

A thread id is the address of the thread's basic data.  Two allocations have two ids here: an id of
an address that is used again differs from the old one in that nobody may use the old one.

* `Inv.act`: what a section that changes one thread's record has to keep.
* `Awaited`: what a thread that waits in `pthread_join` relies on; the record is freed by nobody
  else, unless a second call meets the thread after its exit and before the joiner has run.
-/

namespace SandboxTEE.Pthread.ThreadLife

open SandboxTEE.Lib

/-- `void *` of the sandbox. -/
abbrev Value := BitVec 32

/-- A block of the heap: not there, or allocated, or given back. -/
inductive Block where
  | absent
  | live
  | freed
deriving DecidableEq

/-- How far the thread, and the `pthread_create` that makes it, have come. -/
inductive Stage where
  | unborn
  /-- The first section of `pthread_create` is done, `thread_create` is to come. -/
  | starting
  | running
  /-- `pthread_exit` has counted the thread out. -/
  | exiting (retval : Value)
  | exited
  /-- `thread_create` has failed; the counter is still to be set back. -/
  | failing
  /-- `pthread_create` is to release what it has allocated. -/
  | undoing
  | undone
deriving DecidableEq

/-- The TLS block with the `tdb` in it, and the basic data, of one thread. -/
structure Thread where
  stage : Stage := .unborn
  /-- `tls_allocation`. -/
  tls : Block := .absent
  /-- `basic_data`. -/
  basic : Block := .absent
  /-- `tdb->joinable`; this and the next field stay as they were when the block is freed. -/
  joinable : Bool := false
  /-- `tdb->join_waiting`. -/
  joinWaiting : Bool := false
  /-- `basic_data->tdb` is not `NULL`. -/
  hasTdb : Bool := false
  /-- `basic_data->status` is `THREAD_TERMINATED`. -/
  terminated : Bool := false
  /-- `basic_data->retval`. -/
  retval : Value := 0
  /-- `*thread_id` has been stored. -/
  published : Bool := false
  /-- A join or a detach of the thread has returned 0. -/
  retired : Bool := false
  /-- What the thread has passed to `pthread_exit`. -/
  passed : Option Value := none

/-- The call that a thread is in. -/
inductive Doing (ι : Type) where
  | idle
  /-- In `pthread_create`, between its sections. -/
  | creating (c : ι)
  /-- In the wait of `pthread_join`. -/
  | joining (c : ι)
  /-- In `wait_for_threads`. -/
  | draining
deriving DecidableEq

structure State (ι : Type) where
  thread : ι → Thread
  doing : ι → Doing ι
  /-- `__nc_running_threads_counter`. -/
  runningThreads : Int
  /-- What the calls of `pthread_join` that returned 0 have delivered. -/
  joined : List (ι × Value)
  /-- A block was used or freed that is not allocated. -/
  fault : Bool

variable {ι : Type} [DecidableEq ι]

def State.modify (s : State ι) (c : ι) (f : Thread → Thread) : State ι :=
  { s with thread := Function.update s.thread c (f (s.thread c)) }

def State.now (s : State ι) (t : ι) (doing : Doing ι) : State ι :=
  { s with doing := Function.update s.doing t doing }

def State.count (s : State ι) (change : Int) : State ι :=
  { s with runningThreads := s.runningThreads + change }

/-- A join of `c` delivers a value. -/
def State.deliver (s : State ι) (c : ι) (retval : Value) : State ι :=
  { s with joined := (c, retval) :: s.joined }

def State.expect (s : State ι) (block : Block) : State ι :=
  { s with fault := s.fault || decide (block ≠ .live) }

/-- An access to the basic data of `c`. -/
def State.useBasic (s : State ι) (c : ι) : State ι := s.expect (s.thread c).basic

/-- An access to the `tdb` of `c`. -/
def State.useTls (s : State ι) (c : ι) : State ι := s.expect (s.thread c).tls

section Access

variable (s : State ι) (c : ι) (f g : Thread → Thread)

@[simp] theorem modify_thread : (s.modify c f).thread = Function.update s.thread c (f (s.thread c)) :=
  rfl

omit [DecidableEq ι] in
@[simp] theorem count_thread (change : Int) : (s.count change).thread = s.thread := rfl

omit [DecidableEq ι] in
@[simp] theorem count_runningThreads (change : Int) :
    (s.count change).runningThreads = s.runningThreads + change := rfl

omit [DecidableEq ι] in
@[simp] theorem count_zero : s.count 0 = s := by simp [State.count]

omit [DecidableEq ι] in
@[simp] theorem deliver_thread (retval : Value) : (s.deliver c retval).thread = s.thread := rfl

@[simp] theorem modify_doing : (s.modify c f).doing = s.doing := rfl

@[simp] theorem modify_runningThreads : (s.modify c f).runningThreads = s.runningThreads := rfl

@[simp] theorem modify_joined : (s.modify c f).joined = s.joined := rfl

@[simp] theorem modify_fault : (s.modify c f).fault = s.fault := rfl

@[simp] theorem modify_modify : (s.modify c f).modify c g = s.modify c fun r => g (f r) := by
  simp [State.modify]

@[simp] theorem now_self (t : ι) (doing : Doing ι) : (s.now t doing).doing t = doing := by
  simp [State.now]

theorem now_other {t u : ι} (apart : u ≠ t) (doing : Doing ι) :
    (s.now t doing).doing u = s.doing u := by
  simp [State.now, apart]

variable {s c f g}

theorem modify_congr (same : f (s.thread c) = g (s.thread c)) : s.modify c f = s.modify c g := by
  rw [State.modify, State.modify, same]

omit [DecidableEq ι] in
theorem expect_live {block : Block} (live : block = .live) : s.expect block = s := by
  simp [State.expect, live]

omit [DecidableEq ι] in
theorem useBasic_live (live : (s.thread c).basic = .live) : s.useBasic c = s := expect_live live

omit [DecidableEq ι] in
theorem useTls_live (live : (s.thread c).tls = .live) : s.useTls c = s := expect_live live

end Access

/-! ## The source functions -/

def ncReleaseBasicDataMu (s : State ι) (c : ι) : State ι :=
  (s.useBasic c).modify c fun r => { r with basic := .freed }

def ncReleaseTlsAllocation (s : State ι) (c : ι) : State ι :=
  if (s.thread c).tls = .absent then s
  else
    let s := s.useTls c
    let s :=
      if (s.thread c).basic = .absent then s
      else (s.useBasic c).modify c fun r => { r with hasTdb := false }
    s.modify c fun r => { r with tls := .freed }

/-- What the first section of `pthread_create` leaves, by which of its allocations succeed: the TLS
    block, the basic data and the stack. -/
def allocated (tlsOk basicOk stackOk joinable : Bool) : Thread :=
  { stage := if tlsOk && basicOk && stackOk then .starting else .undoing
    tls := if tlsOk then .live else .absent
    basic := if tlsOk && basicOk then .live else .absent
    joinable := joinable
    hasTdb := tlsOk && basicOk
    published := tlsOk && basicOk && stackOk }

def pthreadCreate (s : State ι) (t c : ι) (tlsOk basicOk stackOk joinable : Bool) : State ι :=
  let s := (s.modify c fun _ => allocated tlsOk basicOk stackOk joinable).now t (.creating c)
  if tlsOk && basicOk && stackOk then s.count 1 else s

/-- `thread_create`. -/
def threadCreate (s : State ι) (t c : ι) (ok : Bool) : State ι :=
  if ok then (s.modify c fun r => { r with stage := .running }).now t .idle
  else s.modify c fun r => { r with stage := .failing }

/-- The section that sets the counter back. -/
def createUncount (s : State ι) (c : ι) : State ι :=
  (s.modify c fun r => { r with stage := .undoing }).count (-1)

/-- The section that releases what was allocated. -/
def createUndo (s : State ι) (t c : ι) : State ι :=
  let s := ncReleaseTlsAllocation s c
  let s := if (s.thread c).basic = .absent then s else ncReleaseBasicDataMu s c
  (s.modify c fun r => { r with stage := .undone }).now t .idle

/-- `pthread_exit` up to the end of its first section, for a thread that is not the initial one. -/
def pthreadExit (s : State ι) (t : ι) (retval : Value) : State ι :=
  ((s.useTls t).modify t fun r => { r with stage := .exiting retval, passed := some retval }).count
    (-1)

/-- The second section of `pthread_exit`. -/
def exitRelease (s : State ι) (t : ι) (retval : Value) : State ι :=
  let s := (s.useBasic t).modify t fun r => { r with retval := retval }
  let s := s.useTls t
  let joinable := (s.thread t).joinable
  let s := if joinable then (s.useBasic t).modify t fun r => { r with terminated := true } else s
  let s := ncReleaseTlsAllocation s t
  let s := if joinable then s else ncReleaseBasicDataMu s t
  s.modify t fun r => { r with stage := .exited }

/-- `pthread_join` from the load of `retval` on. -/
def joinReturn (s : State ι) (t c : ι) : State ι :=
  let s := s.useBasic c
  let s := ncReleaseBasicDataMu (s.deliver c (s.thread c).retval) c
  (s.modify c fun r => { r with retired := true }).now t .idle

/-- The test of the loop that waits. -/
def joinWait (s : State ι) (t c : ι) : State ι :=
  let s := s.useBasic c
  if (s.thread c).terminated then joinReturn s t c else s.now t (.joining c)

def pthreadJoin (s : State ι) (t c : ι) : State ι :=
  let s := s.useTls t
  -- `EDEADLK`
  if t = c then s
  else
    let s := s.useBasic c
    if (s.thread c).hasTdb then
      let s := s.useTls c
      -- `EINVAL`
      if !(s.thread c).joinable || (s.thread c).joinWaiting then s
      else joinWait (s.modify c fun r => { r with joinWaiting := true }) t c
    else joinReturn s t c

def pthreadDetach (s : State ι) (c : ι) : State ι :=
  let s := s.useBasic c
  if (s.thread c).hasTdb then
    let s := s.useTls c
    if (s.thread c).joinWaiting then s.modify c fun r => { r with retired := true }
    else if (s.thread c).joinable then
      s.modify c fun r => { r with joinable := false, retired := true }
    -- `EINVAL`
    else s
  else (ncReleaseBasicDataMu s c).modify c fun r => { r with retired := true }

/-! ## What they do to blocks that are allocated -/

variable {s : State ι} {c : ι}

theorem ncReleaseBasicDataMu_live (live : (s.thread c).basic = .live) :
    ncReleaseBasicDataMu s c = s.modify c fun r => { r with basic := .freed } := by
  rw [ncReleaseBasicDataMu, useBasic_live live]

theorem ncReleaseTlsAllocation_live (tls : (s.thread c).tls = .live)
    (basic : (s.thread c).basic = .live) :
    ncReleaseTlsAllocation s c = s.modify c fun r => { r with hasTdb := false, tls := .freed } := by
  simp [ncReleaseTlsAllocation, useTls_live tls, useBasic_live basic, tls, basic]

variable {t : ι}

theorem joinReturn_live (live : (s.thread c).basic = .live) : joinReturn s t c =
      ((s.deliver c (s.thread c).retval).modify c
        fun r => { r with basic := .freed, retired := true }).now t .idle := by
  simp [joinReturn, useBasic_live live, ncReleaseBasicDataMu_live, live]

theorem exitRelease_live {retval : Value} (tls : (s.thread t).tls = .live)
    (basic : (s.thread t).basic = .live) :
    exitRelease s t retval = s.modify t fun r =>
      { r with
        stage := .exited
        retval := retval
        terminated := r.joinable || r.terminated
        hasTdb := false
        tls := .freed
        basic := if r.joinable then .live else .freed } := by
  cases joinable : (s.thread t).joinable with
  | true =>
    simp only [exitRelease, useBasic_live, useTls_live, ncReleaseTlsAllocation_live, tls, basic,
      joinable, modify_thread, Function.update_self, modify_modify, if_true]
    apply modify_congr
    simp [basic, joinable]
  | false =>
    simp only [exitRelease, useBasic_live, useTls_live, ncReleaseTlsAllocation_live,
      ncReleaseBasicDataMu_live, tls, basic, joinable, modify_thread, Function.update_self,
      modify_modify, if_false, Bool.false_eq_true]
    apply modify_congr
    simp [joinable]

/-! ## Runs -/

inductive Event (ι : Type) where
  /-- `t` calls `pthread_create`, which allocates the basic data `c` if it comes so far. -/
  | create (t c : ι) (tlsOk basicOk stackOk joinable : Bool)
  | start (t : ι) (ok : Bool)
  | uncount (t : ι)
  | undo (t : ι)
  | exit (t : ι) (retval : Value)
  | release (t : ι)
  /-- The initial thread finds no other threads, and calls `exit`. -/
  | drained (t : ι)
  | join (t c : ι)
  /-- `pthread_cond_wait` returns to a thread that waits in `pthread_join`. -/
  | wake (t : ι)
  | detach (t c : ι)

/-- A thread that may make a call; handlers that `exit` runs may make calls too. -/
def Free (s : State ι) (t : ι) : Prop :=
  (s.thread t).stage = .running ∧ s.doing t = .idle

instance (s : State ι) (t : ι) : Decidable (Free s t) :=
  inferInstanceAs (Decidable (_ ∧ _))

/-- An id that has been stored, and no join or detach of which has returned 0. -/
def Usable (s : State ι) (c : ι) : Prop :=
  (s.thread c).published = true ∧ (s.thread c).retired = false

instance (s : State ι) (c : ι) : Decidable (Usable s c) :=
  inferInstanceAs (Decidable (_ ∧ _))

def step (main : ι) (s : State ι) : Event ι → Option (State ι)
  | .create t c tlsOk basicOk stackOk joinable =>
    if Free s t ∧ (s.thread c).stage = .unborn then
      some (pthreadCreate s t c tlsOk basicOk stackOk joinable)
    else none
  | .start t ok =>
    match s.doing t with
    | .creating c => if (s.thread c).stage = .starting then some (threadCreate s t c ok) else none
    | _ => none
  | .uncount t =>
    match s.doing t with
    | .creating c => if (s.thread c).stage = .failing then some (createUncount s c) else none
    | _ => none
  | .undo t =>
    match s.doing t with
    | .creating c => if (s.thread c).stage = .undoing then some (createUndo s t c) else none
    | _ => none
  | .exit t retval =>
    if Free s t then
      if t = main then some ((s.useTls t).now t .draining) else some (pthreadExit s t retval)
    else none
  | .release t =>
    match (s.thread t).stage with
    | .exiting retval => some (exitRelease s t retval)
    | _ => none
  | .drained t =>
    if s.doing t = .draining ∧ s.runningThreads = 1 then some (s.now t .idle) else none
  | .join t c => if Free s t ∧ Usable s c then some (pthreadJoin s t c) else none
  | .wake t =>
    match s.doing t with
    | .joining c => some (joinWait s t c)
    | _ => none
  | .detach t c => if Free s t ∧ Usable s c then some (pthreadDetach s c) else none

/-- Only the initial thread. -/
def initial (main : ι) : State ι where
  thread := fun c =>
    if c = main then
      { stage := .running, tls := .live, basic := .live, joinable := true, hasTdb := true
        published := true }
    else {}
  doing := fun _ => .idle
  runningThreads := 1
  joined := []
  fault := false

/-! ## The invariant -/

/-- The basic data and the `tdb` as `nc_tdb_init` leaves them, before `pthread_exit`. -/
structure Thread.Intact (r : Thread) : Prop where
  published : r.published = true
  tls : r.tls = .live
  basic : r.basic = .live
  hasTdb : r.hasTdb = true
  terminated : r.terminated = false

theorem Thread.Intact.move {r : Thread} (intact : r.Intact) (stage : Stage)
    (passed : Option Value) : Thread.Intact { r with stage := stage, passed := passed } :=
  ⟨intact.published, intact.tls, intact.basic, intact.hasTdb, intact.terminated⟩

/-- What a record keeps after the thread's exit. -/
structure Thread.Left (r : Thread) : Prop where
  hasTdb : r.hasTdb = false
  passed : r.passed = some r.retval
  terminated : r.joinable = true → r.terminated = true
  basic : r.joinable = true → r.retired = false → r.basic = .live

/-- What a `pthread_create` that fails has allocated. -/
structure Thread.Partial (r : Thread) : Prop where
  tls : r.tls ≠ .freed
  basic : r.basic ≠ .freed
  tls_of_basic : r.basic = .live → r.tls = .live

def Thread.Sound (r : Thread) : Prop :=
  match r.stage with
  | .unborn => r.published = false ∧ r.passed = none
  | .starting | .running | .failing => r.Intact ∧ r.passed = none
  | .exiting retval => r.Intact ∧ r.passed = some retval
  | .exited => r.Left
  | .undoing => (r.published = true → r.Intact) ∧ r.Partial
  | .undone => True

/-- The flags of joins and detaches, while there is a `tdb`. -/
theorem Thread.Sound.mark {r : Thread} (sound : r.Sound) (intact : r.Intact)
    (stays : r.stage ≠ .exited) (joinable joinWaiting retired : Bool) :
    Thread.Sound { r with joinable := joinable, joinWaiting := joinWaiting, retired := retired } := by
  have marked : Thread.Intact
      { r with joinable := joinable, joinWaiting := joinWaiting, retired := retired } :=
    ⟨intact.published, intact.tls, intact.basic, intact.hasTdb, intact.terminated⟩
  cases stage : r.stage with
  | unborn =>
    simp only [Thread.Sound, stage] at sound
    rw [intact.published] at sound
    cases sound.1
  | starting | running | failing | exiting =>
    simp only [Thread.Sound, stage] at sound marked ⊢
    exact ⟨marked, sound.2⟩
  | undoing =>
    simp only [Thread.Sound, stage] at sound marked ⊢
    exact ⟨fun _ => marked, sound.2.tls, sound.2.basic, sound.2.tls_of_basic⟩
  | undone => simp only [Thread.Sound]
  | exited => exact absurd stage stays

/-- The stages of a thread that somebody may wait for. -/
def Stage.reached : Stage → Bool
  | .starting | .running | .exiting _ | .exited => true
  | _ => false

/-- A thread that somebody waits for in `pthread_join`. -/
structure Thread.Awaited (r : Thread) : Prop where
  joinable : r.joinable = true
  joinWaiting : r.joinWaiting = true
  basic : r.basic = .live
  reached : r.stage.reached = true

/-- A thread that is created, and is not past its decrement of the counter. -/
def Stage.counted : Stage → Bool
  | .starting | .running | .failing => true
  | _ => false

/-- The threads besides the initial one that the counter counts. -/
def Counts (main : ι) (s : State ι) (counted : Finset ι) : Prop :=
  ∀ c, c ∈ counted ↔ c ≠ main ∧ (s.thread c).stage.counted = true

structure Inv (main : ι) (s : State ι) : Prop where
  safe : s.fault = false
  sound : ∀ c, (s.thread c).Sound
  initial : (s.thread main).stage = .running
  awaited : ∀ u c, s.doing u = .joining c → (s.thread c).Awaited
  alone : ∀ u u' c, s.doing u = .joining c → s.doing u' = .joining c → u = u'
  counter : ∃ counted, Counts main s counted ∧ s.runningThreads = 1 + counted.card
  delivered : ∀ c v, (c, v) ∈ s.joined → (s.thread c).passed = some v

variable {main : ι}

/-- 1 for a stage that counts. -/
def Stage.weight (stage : Stage) : Int := if stage.counted then 1 else 0

variable {f : Thread → Thread}

theorem Counts.modify {counted : Finset ι} (counts : Counts main s counted)
    (before : (s.thread main).stage = .running)
    (initial : c = main → (f (s.thread c)).stage = .running) :
    ∃ counted', Counts main (s.modify c f) counted' ∧
      (counted'.card : Int) + (s.thread c).stage.weight =
        counted.card + (f (s.thread c)).stage.weight := by
  by_cases isMain : c = main
  · refine ⟨counted, ?_, by rw [initial isMain, isMain, before]⟩
    intro x
    rw [counts x]
    apply and_congr_right
    intro apart
    rw [← isMain] at apart
    simp [apart]
  have member : c ∈ counted ↔ (s.thread c).stage.counted = true := by simp [counts c, isMain]
  cases now : (f (s.thread c)).stage.counted with
  | true =>
    refine ⟨insert c counted, ?_, ?_⟩
    · intro x
      by_cases same : x = c
      · simp [same, now, isMain]
      · simp [same, counts x]
    · by_cases old : c ∈ counted
      · simp [Stage.weight, now, member.mp old, Finset.insert_eq_of_mem old]
      · simp [Stage.weight, now, mt member.mpr old, Finset.card_insert_of_notMem old]
  | false =>
    refine ⟨counted.erase c, ?_, ?_⟩
    · intro x
      by_cases same : x = c
      · simp [same, now]
      · simp [same, counts x]
    · by_cases old : c ∈ counted
      · have card := Finset.card_erase_add_one old
        simp only [Stage.weight, now, member.mp old, if_true, if_false, Bool.false_eq_true]
        omega
      · simp [Stage.weight, now, mt member.mpr old, Finset.erase_eq_of_notMem old]

/-- A change to the record of `c` and to the counter. -/
theorem Inv.modify (inv : Inv main s) (change : Int) (sound : (f (s.thread c)).Sound)
    (initial : c = main → (f (s.thread c)).stage = .running)
    (passed : ∀ v, (s.thread c).passed = some v → (f (s.thread c)).passed = some v)
    (awaited : ∀ u, s.doing u = .joining c → (f (s.thread c)).Awaited)
    (counter : change + (s.thread c).stage.weight = (f (s.thread c)).stage.weight) :
    Inv main ((s.modify c f).count change) := by
  refine ⟨inv.safe, ?_, ?_, ?_, inv.alone, ?_, ?_⟩
  · intro x
    by_cases same : x = c
    · simpa [same] using sound
    · simpa [same] using inv.sound x
  · by_cases same : main = c
    · simpa [same] using initial same.symm
    · simpa [same] using inv.initial
  · intro u x waits
    by_cases same : x = c
    · simpa [same] using awaited u (same ▸ waits)
    · simpa [same] using inv.awaited u x waits
  · obtain ⟨counted, counts, card⟩ := inv.counter
    obtain ⟨counted', counts', card'⟩ := counts.modify inv.initial initial
    refine ⟨counted', counts', ?_⟩
    simp only [count_runningThreads, modify_runningThreads]
    omega
  · intro x v delivered
    by_cases same : x = c
    · simpa [same] using passed v (same ▸ inv.delivered x v delivered)
    · simpa [same] using inv.delivered x v delivered

omit [DecidableEq ι] in
theorem Inv.deliver {v : Value} (inv : Inv main s) (passed : (s.thread c).passed = some v) :
    Inv main (s.deliver c v) := by
  refine ⟨inv.safe, inv.sound, inv.initial, inv.awaited, inv.alone, inv.counter, ?_⟩
  intro x w delivered
  cases List.mem_cons.mp delivered with
  | inl new =>
    cases new
    exact passed
  | inr old => exact inv.delivered x w old

/-- A thread that goes on without a wait for another. -/
theorem Inv.now (inv : Inv main s) (doing : Doing ι) (t : ι) (awake : ∀ c, doing ≠ .joining c) :
    Inv main (s.now t doing) := by
  have old : ∀ u c, (s.now t doing).doing u = .joining c → s.doing u = .joining c := by
    intro u c waits
    by_cases same : u = t
    · rw [same, now_self] at waits
      exact absurd waits (awake c)
    · rwa [now_other s same] at waits
  refine ⟨inv.safe, inv.sound, inv.initial, ?_, ?_, inv.counter, inv.delivered⟩
  · intro u c waits
    exact inv.awaited u c (old u c waits)
  · intro u u' c waits waits'
    exact inv.alone u u' c (old u c waits) (old u' c waits')

theorem Inv.wait (inv : Inv main s) (t : ι) (awaited : (s.thread c).Awaited)
    (alone : ∀ u, u ≠ t → s.doing u ≠ .joining c) : Inv main (s.now t (.joining c)) := by
  have old : ∀ u x, (s.now t (.joining c)).doing u = .joining x →
      u = t ∧ x = c ∨ u ≠ t ∧ s.doing u = .joining x := by
    intro u x waits
    by_cases same : u = t
    · rw [same, now_self] at waits
      cases waits
      exact .inl ⟨same, rfl⟩
    · rw [now_other s same] at waits
      exact .inr ⟨same, waits⟩
  refine ⟨inv.safe, inv.sound, inv.initial, ?_, ?_, inv.counter, inv.delivered⟩
  · intro u x waits
    cases old u x waits with
    | inl here =>
      rw [here.2]
      exact awaited
    | inr there => exact inv.awaited u x there.2
  · intro u u' x waits waits'
    cases old u x waits with
    | inl here =>
      cases old u' x waits' with
      | inl here' => exact here.1.trans here'.1.symm
      | inr there' => exact absurd (here.2 ▸ there'.2) (alone u' there'.1)
    | inr there =>
      cases old u' x waits' with
      | inl here' => exact absurd (here'.2 ▸ there.2) (alone u there.1)
      | inr there' => exact inv.alone u u' x there.2 there'.2

/-! ## What one section keeps -/

omit [DecidableEq ι] in
theorem Inv.intact (inv : Inv main s) (stage : (s.thread t).stage = .running) :
    (s.thread t).Intact := by
  have sound := inv.sound t
  simp only [Thread.Sound, stage] at sound
  exact sound.1

omit [DecidableEq ι] in
theorem Inv.useTls (inv : Inv main s) (stage : (s.thread t).stage = .running) : s.useTls t = s :=
  useTls_live (inv.intact stage).tls

omit [DecidableEq ι] in
/-- Nobody waits for a thread before the `pthread_create` that makes it is through. -/
theorem Inv.unawaited (inv : Inv main s) (stage : (s.thread c).stage.reached = false) (u : ι) :
    s.doing u ≠ .joining c := by
  intro waits
  rw [(inv.awaited u c waits).reached] at stage
  cases stage

theorem allocated_sound (tlsOk basicOk stackOk joinable : Bool) :
    (allocated tlsOk basicOk stackOk joinable).Sound := by
  cases ok : tlsOk && basicOk && stackOk with
  | true =>
    simp only [Bool.and_eq_true] at ok
    obtain ⟨⟨rfl, rfl⟩, rfl⟩ := ok
    exact ⟨⟨rfl, rfl, rfl, rfl, rfl⟩, rfl⟩
  | false =>
    simp only [Thread.Sound, allocated, ok]
    refine ⟨by simp, ?_, ?_, ?_⟩
    · cases tlsOk <;> simp
    · cases tlsOk <;> cases basicOk <;> simp
    · cases tlsOk <;> simp

theorem Inv.pthreadCreate (inv : Inv main s) (t : ι) (unborn : (s.thread c).stage = .unborn)
    (tlsOk basicOk stackOk joinable : Bool) :
    Inv main (pthreadCreate s t c tlsOk basicOk stackOk joinable) := by
  have sound := inv.sound c
  simp only [Thread.Sound, unborn] at sound
  have made : Inv main ((s.modify c fun _ => allocated tlsOk basicOk stackOk joinable).count
      (allocated tlsOk basicOk stackOk joinable).stage.weight) := by
    apply inv.modify _ (allocated_sound tlsOk basicOk stackOk joinable)
    · intro same
      rw [same, inv.initial] at unborn
      cases unborn
    · simp [sound.2]
    · intro u waits
      exact absurd waits (inv.unawaited (by rw [unborn]; rfl) u)
    · simp [unborn, Stage.weight, Stage.counted]
  have weight : (allocated tlsOk basicOk stackOk joinable).stage.weight =
      if tlsOk && basicOk && stackOk then 1 else 0 := by
    cases ok : tlsOk && basicOk && stackOk <;> simp [allocated, ok, Stage.weight, Stage.counted]
  have moved := made.now (.creating c) t (by simp)
  rw [weight] at moved
  cases ok : tlsOk && basicOk && stackOk with
  | true =>
    simp only [ok, if_true] at moved
    simp only [ThreadLife.pthreadCreate, ok, if_true]
    exact moved
  | false =>
    simp only [ok, if_false, Bool.false_eq_true, count_zero] at moved
    simp only [ThreadLife.pthreadCreate, ok, if_false, Bool.false_eq_true]
    exact moved

/-- A change to the record only, of a thread that is not the initial one, and not one that begins
    or ceases to count. -/
theorem Inv.alter (inv : Inv main s) (sound : (f (s.thread c)).Sound)
    (initial : c = main → (f (s.thread c)).stage = .running)
    (passed : (f (s.thread c)).passed = (s.thread c).passed)
    (awaited : ∀ u, s.doing u = .joining c → (f (s.thread c)).Awaited)
    (counted : (f (s.thread c)).stage.counted = (s.thread c).stage.counted) :
    Inv main (s.modify c f) := by
  have altered := inv.modify 0 sound initial (by simp [passed]) awaited
    (by simp [Stage.weight, counted])
  rwa [count_zero] at altered

omit [DecidableEq ι] in
theorem Inv.initial_of (inv : Inv main s) (same : c = main) : (s.thread c).stage = .running := by
  rw [same]
  exact inv.initial

omit [DecidableEq ι] in
theorem Inv.not_initial (inv : Inv main s) (stage : (s.thread c).stage ≠ .running) : c ≠ main := by
  intro same
  rw [same] at stage
  exact stage inv.initial

theorem Inv.threadCreate (inv : Inv main s) (t : ι) {ok : Bool}
    (starting : (s.thread c).stage = .starting)
    (sensible : ok = true ∨ (s.thread c).joinWaiting = false) :
    Inv main (threadCreate s t c ok) := by
  have sound := inv.sound c
  simp only [Thread.Sound, starting] at sound
  obtain ⟨intact, unpassed⟩ := sound
  have notInitial : c ≠ main := inv.not_initial (by simp [starting])
  cases ok with
  | true =>
    have created : Inv main (s.modify c fun r => { r with stage := .running }) := by
      refine inv.alter ⟨intact.move .running _, unpassed⟩ (fun _ => rfl) rfl ?_ ?_
      · intro u waits
        have old := inv.awaited u c waits
        exact ⟨old.joinable, old.joinWaiting, old.basic, rfl⟩
      · rw [starting]
        rfl
    exact created.now _ t (by simp)
  | false =>
    have unawaited : (s.thread c).joinWaiting = false := by simpa using sensible
    have failed : Inv main (s.modify c fun r => { r with stage := .failing }) := by
      refine inv.alter ⟨intact.move .failing _, unpassed⟩ (absurd · notInitial) rfl ?_ ?_
      · intro u waits
        rw [(inv.awaited u c waits).joinWaiting] at unawaited
        cases unawaited
      · rw [starting]
        rfl
    exact failed

theorem Inv.createUncount (inv : Inv main s) (failing : (s.thread c).stage = .failing) :
    Inv main (createUncount s c) := by
  have sound := inv.sound c
  simp only [Thread.Sound, failing] at sound
  obtain ⟨intact, unpassed⟩ := sound
  have notInitial : c ≠ main := inv.not_initial (by simp [failing])
  refine inv.modify (-1) ⟨fun _ => intact.move .undoing _, ?_, ?_, ?_⟩ (absurd · notInitial) ?_ ?_ ?_
  · simp [intact.tls]
  · simp [intact.basic]
  · simp [intact.tls]
  · simp
  · intro u waits
    exact absurd waits (inv.unawaited (by rw [failing]; rfl) u)
  · simp [failing, Stage.weight, Stage.counted]

/-- Whichever of the allocations were made are released. -/
theorem createUndo_partial (made : (s.thread c).Partial) :
    ∃ f, createUndo s t c = (s.modify c f).now t .idle ∧ (f (s.thread c)).stage = .undone ∧
      (f (s.thread c)).passed = (s.thread c).passed := by
  cases basic : (s.thread c).basic with
  | freed => exact absurd basic made.basic
  | live =>
    refine ⟨fun r => { r with stage := .undone, hasTdb := false, tls := .freed, basic := .freed }, ?_,
      rfl, rfl⟩
    rw [createUndo, ncReleaseTlsAllocation_live (made.tls_of_basic basic) basic]
    simp [ncReleaseBasicDataMu_live, basic]
  | absent =>
    cases tls : (s.thread c).tls with
    | freed => exact absurd tls made.tls
    | live =>
      refine ⟨fun r => { r with stage := .undone, tls := .freed }, ?_, rfl, rfl⟩
      simp [createUndo, ncReleaseTlsAllocation, useTls_live tls, tls, basic]
    | absent =>
      refine ⟨fun r => { r with stage := .undone }, ?_, rfl, rfl⟩
      simp [createUndo, ncReleaseTlsAllocation, tls, basic]

theorem Inv.createUndo (inv : Inv main s) (t : ι) (undoing : (s.thread c).stage = .undoing) :
    Inv main (createUndo s t c) := by
  have sound := inv.sound c
  simp only [Thread.Sound, undoing] at sound
  have notInitial : c ≠ main := inv.not_initial (by simp [undoing])
  obtain ⟨f, released, stage, passed⟩ := createUndo_partial (t := t) sound.2
  rw [released]
  have undone : Inv main (s.modify c f) := by
    refine inv.alter ?_ (absurd · notInitial) passed ?_ ?_
    · simp [Thread.Sound, stage]
    · intro u waits
      exact absurd waits (inv.unawaited (by rw [undoing]; rfl) u)
    · rw [stage, undoing]
      rfl
  exact undone.now _ t (by simp)

theorem Inv.pthreadExit (inv : Inv main s) (retval : Value)
    (running : (s.thread t).stage = .running) (other : t ≠ main) :
    Inv main (pthreadExit s t retval) := by
  have sound := inv.sound t
  simp only [Thread.Sound, running] at sound
  obtain ⟨intact, unpassed⟩ := sound
  rw [ThreadLife.pthreadExit, inv.useTls running]
  refine inv.modify (-1) ⟨intact.move (.exiting retval) _, rfl⟩ (absurd · other) ?_ ?_ ?_
  · simp [unpassed]
  · intro u waits
    have old := inv.awaited u t waits
    exact ⟨old.joinable, old.joinWaiting, old.basic, rfl⟩
  · simp [running, Stage.weight, Stage.counted]

theorem Inv.exitRelease {retval : Value} (inv : Inv main s)
    (exiting : (s.thread t).stage = .exiting retval) : Inv main (exitRelease s t retval) := by
  have sound := inv.sound t
  simp only [Thread.Sound, exiting] at sound
  obtain ⟨intact, passes⟩ := sound
  have notInitial : t ≠ main := inv.not_initial (by simp [exiting])
  rw [exitRelease_live intact.tls intact.basic]
  refine inv.alter ⟨rfl, passes, ?_, ?_⟩ (absurd · notInitial) rfl ?_ ?_
  · intro joinable
    change ((s.thread t).joinable || (s.thread t).terminated) = true
    rw [joinable, Bool.true_or]
  · intro joinable _
    exact if_pos joinable
  · intro u waits
    have old := inv.awaited u t waits
    exact ⟨old.joinable, old.joinWaiting, if_pos old.joinable, rfl⟩
  · rw [exiting]
    rfl

/-- The last part of a join: nobody else waits for the thread, which has exited. -/
theorem Inv.joinReturn (inv : Inv main s) (exited : (s.thread c).stage = .exited)
    (live : (s.thread c).basic = .live) (alone : ∀ u, u ≠ t → s.doing u ≠ .joining c) :
    Inv main (joinReturn s t c) := by
  have left := inv.sound c
  simp only [Thread.Sound, exited] at left
  have notInitial : c ≠ main := inv.not_initial (by simp [exited])
  have delivered : Inv main ((s.now t .idle).deliver c (s.thread c).retval) :=
    (inv.now _ t (by simp)).deliver left.passed
  have unawaited : ∀ u, (s.now t .idle).doing u ≠ .joining c := by
    intro u
    by_cases same : u = t
    · simp [same]
    · rw [now_other s same]
      exact alone u same
  rw [joinReturn_live live]
  have released : Inv main (((s.now t .idle).deliver c (s.thread c).retval).modify c
      fun r => { r with basic := .freed, retired := true }) := by
    refine delivered.alter ?_ (absurd · notInitial) rfl ?_ rfl
    · change Thread.Sound { s.thread c with basic := .freed, retired := true }
      simp only [Thread.Sound, exited]
      exact ⟨left.hasTdb, left.passed, left.terminated, by simp⟩
    · intro u waits
      exact absurd waits (unawaited u)
  exact released

/-- What a call on the id of `c` finds: a record that is not freed, and not promised to a join that
    has still to return. -/
def Thread.Claimable (r : Thread) : Prop :=
  match r.stage with
  | .exited => r.joinable = true ∧ r.joinWaiting = false
  | .undone => False
  | _ => True

instance (r : Thread) : Decidable r.Claimable := by
  unfold Thread.Claimable
  split <;> infer_instance

omit [DecidableEq ι] in
/-- A thread whose id is used either has the record of `nc_tdb_init` or has left its basic data. -/
theorem Inv.claimed (inv : Inv main s) (usable : Usable s c) (claimable : (s.thread c).Claimable) :
    (s.thread c).Intact ∧ (s.thread c).stage ≠ .exited ∨
      (s.thread c).stage = .exited ∧ (s.thread c).basic = .live ∧ (s.thread c).hasTdb = false ∧
        ∀ u, s.doing u ≠ .joining c := by
  have sound := inv.sound c
  cases stage : (s.thread c).stage with
  | unborn =>
    simp only [Thread.Sound, stage] at sound
    rw [usable.1] at sound
    cases sound.1
  | starting | running | failing | exiting =>
    simp only [Thread.Sound, stage] at sound
    exact .inl ⟨sound.1, by simp⟩
  | undoing =>
    simp only [Thread.Sound, stage] at sound
    exact .inl ⟨sound.1 usable.1, by simp⟩
  | undone => simp only [Thread.Claimable, stage] at claimable
  | exited =>
    simp only [Thread.Sound, stage] at sound
    simp only [Thread.Claimable, stage] at claimable
    refine .inr ⟨rfl, sound.basic claimable.1 usable.2, sound.hasTdb, ?_⟩
    intro u waits
    have joinWaiting := (inv.awaited u c waits).joinWaiting
    rw [claimable.2] at joinWaiting
    cases joinWaiting

theorem Inv.joinWait (inv : Inv main s) (awaited : (s.thread c).Awaited)
    (alone : ∀ u, u ≠ t → s.doing u ≠ .joining c) : Inv main (joinWait s t c) := by
  rw [ThreadLife.joinWait, useBasic_live awaited.basic]
  cases terminated : (s.thread c).terminated with
  | false => exact inv.wait t awaited alone
  | true =>
    have exited : (s.thread c).stage = .exited := by
      have sound := inv.sound c
      have reached := awaited.reached
      cases stage : (s.thread c).stage with
      | exited => rfl
      | starting | running | exiting =>
        simp only [Thread.Sound, stage] at sound
        have running := sound.1.terminated
        rw [terminated] at running
        cases running
      | unborn | failing | undoing | undone =>
        rw [stage] at reached
        cases reached
    exact inv.joinReturn exited awaited.basic alone

theorem Inv.pthreadJoin (inv : Inv main s) (free : Free s t) (usable : Usable s c)
    (sensible : t = c ∨ (s.thread c).Claimable ∧
      ((s.thread c).stage.reached = true ∨ (s.thread c).joinable = false)) :
    Inv main (pthreadJoin s t c) := by
  rw [ThreadLife.pthreadJoin, inv.useTls free.1]
  by_cases self : t = c
  · simpa [self] using inv
  obtain ⟨claimable, waits⟩ := sensible.resolve_left self
  simp only [self, if_false]
  cases inv.claimed usable claimable with
  | inl there =>
    obtain ⟨intact, stays⟩ := there
    simp only [useBasic_live intact.basic, useTls_live intact.tls, intact.hasTdb, if_true]
    cases refused : !(s.thread c).joinable || (s.thread c).joinWaiting with
    | true => simpa using inv
    | false =>
      simp only [Bool.or_eq_false_iff, Bool.not_eq_false'] at refused
      obtain ⟨joinable, first⟩ := refused
      have unawaited : ∀ u, s.doing u ≠ .joining c := by
        intro u waits
        rw [(inv.awaited u c waits).joinWaiting] at first
        cases first
      have reached := waits.resolve_right (by simp [joinable])
      have marked : Inv main (s.modify c fun r => { r with joinWaiting := true }) := by
        refine inv.alter ?_ inv.initial_of rfl ?_ rfl
        · exact (inv.sound c).mark intact stays _ true _
        · intro u waits
          exact absurd waits (unawaited u)
      apply marked.joinWait
      · simpa using ⟨joinable, rfl, intact.basic, reached⟩
      · intro u _
        exact unawaited u
  | inr gone =>
    obtain ⟨exited, live, noTdb, unawaited⟩ := gone
    simp only [useBasic_live live, noTdb, if_false, Bool.false_eq_true]
    apply inv.joinReturn exited live
    intro u _
    exact unawaited u

theorem Inv.pthreadDetach (inv : Inv main s) (usable : Usable s c)
    (claimable : (s.thread c).Claimable) : Inv main (pthreadDetach s c) := by
  cases inv.claimed usable claimable with
  | inl there =>
    obtain ⟨intact, stays⟩ := there
    simp only [ThreadLife.pthreadDetach, useBasic_live intact.basic, useTls_live intact.tls,
      intact.hasTdb, if_true]
    cases joinWaiting : (s.thread c).joinWaiting with
    | true =>
      simp only [if_true]
      refine inv.alter ((inv.sound c).mark intact stays _ _ true) inv.initial_of rfl ?_ rfl
      intro u waits
      have old := inv.awaited u c waits
      exact ⟨old.joinable, old.joinWaiting, old.basic, old.reached⟩
    | false =>
      cases joinable : (s.thread c).joinable with
      | true =>
        simp only [if_true, if_false, Bool.false_eq_true]
        refine inv.alter ((inv.sound c).mark intact stays false _ true) inv.initial_of rfl ?_ rfl
        intro u waits
        rw [(inv.awaited u c waits).joinWaiting] at joinWaiting
        cases joinWaiting
      | false => simpa using inv
  | inr gone =>
    obtain ⟨exited, live, noTdb, unawaited⟩ := gone
    have left := inv.sound c
    simp only [Thread.Sound, exited] at left
    simp only [ThreadLife.pthreadDetach, useBasic_live live, noTdb, if_false, Bool.false_eq_true,
      ncReleaseBasicDataMu_live live, modify_modify]
    refine inv.alter ?_ inv.initial_of rfl ?_ rfl
    · simp only [Thread.Sound, exited]
      exact ⟨left.hasTdb, left.passed, left.terminated, by simp⟩
    · intro u waits
      exact absurd waits (unawaited u)

/-! ## Runs of the library -/

/-- A call on an id finds a thread whose record is not freed and not promised to a join that has
    still to return; nobody waits for a thread that `thread_create` fails to start. -/
def Event.Sensible (s : State ι) : Event ι → Prop
  | .start t ok =>
    match s.doing t with
    | .creating c => ok = true ∨ (s.thread c).joinWaiting = false
    | _ => True
  | .join t c =>
    t = c ∨ (s.thread c).Claimable ∧
      ((s.thread c).stage.reached = true ∨ (s.thread c).joinable = false)
  | .detach _ c => (s.thread c).Claimable
  | _ => True

theorem Inv.step {s' : State ι} {event : Event ι} (inv : Inv main s) (sensible : event.Sensible s)
    (stepped : step main s event = some s') : Inv main s' := by
  cases event with
  | create t c tlsOk basicOk stackOk joinable =>
    simp only [ThreadLife.step, Option.ite_none_right_eq_some, Option.some.injEq] at stepped
    rw [← stepped.2]
    exact inv.pthreadCreate t stepped.1.2 tlsOk basicOk stackOk joinable
  | start t ok =>
    cases doing : s.doing t with
    | creating c =>
      simp only [ThreadLife.step, doing, Option.ite_none_right_eq_some, Option.some.injEq] at stepped
      simp only [Event.Sensible, doing] at sensible
      rw [← stepped.2]
      exact inv.threadCreate t stepped.1 sensible
    | idle | joining | draining => simp [ThreadLife.step, doing] at stepped
  | uncount t =>
    cases doing : s.doing t with
    | creating c =>
      simp only [ThreadLife.step, doing, Option.ite_none_right_eq_some, Option.some.injEq] at stepped
      rw [← stepped.2]
      exact inv.createUncount stepped.1
    | idle | joining | draining => simp [ThreadLife.step, doing] at stepped
  | undo t =>
    cases doing : s.doing t with
    | creating c =>
      simp only [ThreadLife.step, doing, Option.ite_none_right_eq_some, Option.some.injEq] at stepped
      rw [← stepped.2]
      exact inv.createUndo t stepped.1
    | idle | joining | draining => simp [ThreadLife.step, doing] at stepped
  | exit t retval =>
    simp only [ThreadLife.step, Option.ite_none_right_eq_some] at stepped
    obtain ⟨free, stepped⟩ := stepped
    by_cases isMain : t = main
    · simp only [isMain, if_true, Option.some.injEq] at stepped
      rw [← stepped, inv.useTls inv.initial]
      exact inv.now _ main (by simp)
    · simp only [isMain, if_false, Option.some.injEq] at stepped
      rw [← stepped]
      exact inv.pthreadExit retval free.1 isMain
  | release t =>
    cases stage : (s.thread t).stage with
    | exiting retval =>
      simp only [ThreadLife.step, stage, Option.some.injEq] at stepped
      rw [← stepped]
      exact inv.exitRelease stage
    | unborn | starting | running | exited | failing | undoing | undone =>
      simp [ThreadLife.step, stage] at stepped
  | drained t =>
    simp only [ThreadLife.step, Option.ite_none_right_eq_some, Option.some.injEq] at stepped
    rw [← stepped.2]
    exact inv.now _ t (by simp)
  | join t c =>
    simp only [ThreadLife.step, Option.ite_none_right_eq_some, Option.some.injEq] at stepped
    rw [← stepped.2]
    exact inv.pthreadJoin stepped.1.1 stepped.1.2 sensible
  | wake t =>
    cases doing : s.doing t with
    | joining c =>
      simp only [ThreadLife.step, doing, Option.some.injEq] at stepped
      rw [← stepped]
      apply inv.joinWait (inv.awaited t c doing)
      intro u apart waits
      exact apart (inv.alone u t c waits doing)
    | idle | creating | draining => simp [ThreadLife.step, doing] at stepped
  | detach t c =>
    simp only [ThreadLife.step, Option.ite_none_right_eq_some, Option.some.injEq] at stepped
    rw [← stepped.2]
    exact inv.pthreadDetach stepped.1.2 sensible

theorem initial_inv (main : ι) : Inv main (initial main) := by
  have stage : ((initial main).thread main).stage = .running := by simp [ThreadLife.initial]
  refine ⟨rfl, ?_, stage, ?_, ?_, ⟨∅, ?_, rfl⟩, ?_⟩
  · intro c
    by_cases same : c = main
    · simp only [ThreadLife.initial, same, if_true]
      exact ⟨⟨rfl, rfl, rfl, rfl, rfl⟩, rfl⟩
    · simp only [ThreadLife.initial, same, if_false]
      exact ⟨rfl, rfl⟩
  · intro u c waits
    cases waits
  · intro u u' c waits
    cases waits
  · intro c
    by_cases same : c = main
    · simp [same]
    · simp [same, ThreadLife.initial, Stage.counted]
  · intro c v delivered
    cases delivered

/-- No block is used or freed after it was freed, every join that returned 0 has delivered what the
    thread passed to `pthread_exit`, and the counter is right, in every run in which no call comes
    between the exit of a thread and the return of the join that waits for it, no call is made on a
    thread that has exited detached or whose `pthread_create` has failed, and no join waits for a
    thread that fails to start. -/
theorem threadLife_runs (main : ι) (events : List (Event ι)) (s : State ι)
    (run : events.foldlM (step main) (initial main) = some s)
    (sensible : ∀ pre event, pre ++ [event] <+: events → ∀ before,
      pre.foldlM (step main) (initial main) = some before → event.Sensible before) :
    s.fault = false ∧ (∀ c v, (c, v) ∈ s.joined → (s.thread c).passed = some v) ∧
      ∃ counted, Counts main s counted ∧ s.runningThreads = 1 + counted.card := by
  have inv : Inv main s :=
    @foldlM_invariant _ _ (step main) (Inv main) (fun s event => event.Sensible s)
      (fun _ _ _ inv sensible stepped => inv.step sensible stepped) events _ s (initial_inv main)
      sensible run
  exact ⟨inv.safe, inv.delivered, inv.counter⟩

instance (s : State ι) : (event : Event ι) → Decidable (event.Sensible s)
  | .start t ok =>
    match h : s.doing t with
    | .creating c =>
      decidable_of_iff (ok = true ∨ (s.thread c).joinWaiting = false) (by simp [Event.Sensible, h])
    | .idle | .joining _ | .draining => .isTrue (by simp [Event.Sensible, h])
  | .join _ _ => inferInstanceAs (Decidable (_ ∨ _ ∧ _))
  | .detach _ c => inferInstanceAs (Decidable (Thread.Claimable _))
  | .create .. | .uncount _ | .undo _ | .exit .. | .release _ | .drained _ | .wake _ => .isTrue trivial

/-- The initial thread waits for another, and then fails to make a third. -/
def joinsOne (t u v : Fin 3) : List (Event (Fin 3)) :=
  [.create t u true true true true, .start t true, .join t u, .exit u 5, .release u, .wake t,
    .create t v true true false true, .undo t]

theorem threadLife_runs_joinsOne : ∃ s : State (Fin 3),
    (joinsOne 0 1 2).foldlM (step 0) (initial 0) = some s ∧ (1, 5) ∈ s.joined ∧ s.fault = false ∧
      (s.thread 1).passed = some 5 := by
  have seen : ((joinsOne 0 1 2).foldlM (step 0) (initial 0)).map (fun s => s.joined) = some [(1, 5)] := by
    decide
  obtain ⟨s, run, here⟩ := Option.map_eq_some_iff.mp seen
  have met : meets (step 0) (fun s event => event.Sensible s) (initial 0) (joinsOne 0 1 2) = true := by decide
  have delivered : (1, 5) ∈ s.joined := by simp [here]
  have facts := threadLife_runs 0 (joinsOne 0 1 2) s run (cond_of_meets met)
  exact ⟨s, run, delivered, facts.1, facts.2.1 1 5 delivered⟩

/-- Thread `u` waits for `v`, which exits; before `u` has run, `t` joins `v`. -/
def joinedTwice (t u v : Fin 3) : List (Event (Fin 3)) :=
  [.create t u true true true true, .start t true, .create t v true true true true, .start t true,
    .join u v, .exit v 5, .release v, .join t v, .wake u]

/-- A thread that is created detached exits, and is then detached. -/
def detachedTwice (t u : Fin 3) : List (Event (Fin 3)) :=
  [.create t u true true true false, .start t true, .exit u 5, .release u, .detach t u]

/-- Thread `u` waits for `v`, which `thread_create` fails to start. -/
def joinedUnstarted (t u v : Fin 3) : List (Event (Fin 3)) :=
  [.create t u true true true true, .start t true, .create t v true true true true, .join u v,
    .start t false, .uncount t, .undo t, .wake u]

theorem threadLife_faults :
    (∃ s, (joinedTwice 0 1 2).foldlM (step 0) (initial 0) = some s ∧ s.fault = true) ∧
    (∃ s, (detachedTwice 0 1).foldlM (step 0) (initial 0) = some s ∧ s.fault = true) ∧
    ∃ s, (joinedUnstarted 0 1 2).foldlM (step 0) (initial 0) = some s ∧ s.fault = true := by
  have seen : ∀ events ∈ [joinedTwice 0 1 2, detachedTwice 0 1, joinedUnstarted 0 1 2],
      (events.foldlM (step 0) (initial 0)).map (fun s => s.fault) = some true := by decide
  have faulty : ∀ events ∈ [joinedTwice 0 1 2, detachedTwice 0 1, joinedUnstarted 0 1 2],
      ∃ s, events.foldlM (step 0) (initial 0) = some s ∧ s.fault = true :=
    fun events among => Option.map_eq_some_iff.mp (seen events among)
  exact ⟨faulty _ (by simp), faulty _ (by simp), faulty _ (by simp)⟩

end SandboxTEE.Pthread.ThreadLife
