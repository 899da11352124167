import Mathlib.Tactic.FinCases
import SandboxTEE.Lib.Run
import SandboxTEE.Lib.Tally

/-! # Reader-writer locks of the pthread library (`nc_rwlock.c`)

A step is what a thread does from the time it gets the internal mutex to the time it gives it up, in
`pthread_mutex_unlock` or inside a wait.  A wait on a condition variable may come back at any time.

Each waiting writer is counted until it has the mutex again, also when its time is over.  So an unlock may
signal a writer that will not take the lock, and the readers behind it are not woken
(`rwlock_strands`).
-/

namespace SandboxTEE.Pthread.RwLock

open SandboxTEE.Lib

/-- The arguments `abs_timeout` and `try_only`. -/
inductive Mode where
  | untimed
  | tryOnly
  | timed
deriving DecidableEq

inductive Errno where
  | eperm
  | ebusy
  | etimedout
deriving DecidableEq

/-- A wait on a condition variable: asleep, or back and waiting for the mutex. -/
inductive Waiting where
  | asleep
  | woken
  | timedOut
deriving DecidableEq

/-- Where a thread is: outside with what its last call has returned, in front of the mutex, or in a wait on
    `read_possible` or `write_possible`. -/
inductive Place where
  | out (errno : Option Errno)
  | rdlock (mode : Mode)
  | wrlock (mode : Mode)
  | unlock
  | reader (mode : Mode) (waiting : Waiting)
  | writer (mode : Mode) (waiting : Waiting)
deriving DecidableEq

namespace Place

def isReader (waiting : Waiting) : Place → Bool
  | .reader _ w => decide (w = waiting)
  | _ => false

def isWriter (waiting : Waiting) : Place → Bool
  | .writer _ w => decide (w = waiting)
  | _ => false

/-- What `writers_waiting` counts. -/
def waitingWriter : Place → Bool
  | .writer _ _ => true
  | _ => false

def asleep (place : Place) : Bool := place.isReader .asleep || place.isWriter .asleep

/-- The wait comes back, and not for the time. -/
def wake : Place → Place
  | .reader mode .asleep => .reader mode .woken
  | .writer mode .asleep => .writer mode .woken
  | place => place

def wakeReader : Place → Place
  | .reader mode .asleep => .reader mode .woken
  | place => place

theorem waitingWriter_wakeReader (place : Place) :
    place.wakeReader.waitingWriter = place.waitingWriter := by
  cases place with
  | reader mode waiting => cases waiting <;> rfl
  | _ => rfl

theorem wakeReader_eq_unlock {place : Place} (here : place.wakeReader = .unlock) : place = .unlock := by
  cases place with
  | reader mode waiting => cases waiting <;> cases here
  | _ => exact here

theorem asleep_wakeReader {place : Place} (awake : place.isWriter .asleep = false) :
    place.wakeReader.asleep = false := by
  cases place with
  | reader mode waiting => cases waiting <;> rfl
  | _ => exact awake

end Place

structure State (ι : Type) where
  writerThreadId : Option ι
  writersWaiting : Int
  readerCount : Int
  /-- Of each thread, over all locks. -/
  threadRdlockCount : ι → BitVec 32
  place : ι → Place
  /-- The thread has locked this lock for writing, and not unlocked it. -/
  writes : ι → Bool
  /-- How often the thread has locked this lock for reading and not unlocked it. -/
  reads : ι → Nat

/-- After `pthread_rwlock_init`. -/
def State.init {ι : Type} : State ι :=
  ⟨none, 0, 0, fun _ => 0, fun _ => .out none, fun _ => false, fun _ => 0⟩

/-- The `int` fields do not go beyond this. -/
def intMax : Int := 0x7FFFFFFF

variable {ι : Type} [DecidableEq ι]

namespace State

def writeLockAvailable (s : State ι) : Bool :=
  if s.writerThreadId ≠ none then false
  else if 0 < s.readerCount then false
  else true

def readLockAvailable (s : State ι) (t : ι) : Bool :=
  if s.writerThreadId ≠ none then false
  else if 0 < s.writersWaiting ∧ s.threadRdlockCount t = 0 then false
  else true

def move (s : State ι) (t : ι) (place : Place) : State ι :=
  { s with place := Function.update s.place t place }

/-- The loop of `rdlock_internal`, up to its next wait or the end. -/
def rdlockLoop (s : State ι) (t : ι) (mode : Mode) : Option (State ι) :=
  if s.readLockAvailable t then
    if s.readerCount < intMax then
      some ({ s with
        readerCount := s.readerCount + 1
        threadRdlockCount := Function.update s.threadRdlockCount t (s.threadRdlockCount t + 1)
        reads := Function.update s.reads t (s.reads t + 1) }.move t (.out none))
    else none
  else if mode = .tryOnly then some (s.move t (.out (some .ebusy)))
  else some (s.move t (.reader mode .asleep))

/-- The loop of `rwlock_internal`, up to its next wait or the end. -/
def wrlockLoop (s : State ι) (t : ι) (mode : Mode) : Option (State ι) :=
  if s.writeLockAvailable then
    some ({ s with
      writerThreadId := some t
      writes := Function.update s.writes t true }.move t (.out none))
  else if mode = .tryOnly then some (s.move t (.out (some .ebusy)))
  else if s.writersWaiting < intMax then
    some ({ s with writersWaiting := s.writersWaiting + 1 }.move t (.writer mode .asleep))
  else none

/-- The wait that a signal reaches comes back. -/
def signal (s : State ι) (woken : Option ι) : State ι :=
  woken.elim s fun u => s.move u (s.place u).wake

/-- `pthread_cond_broadcast(&rwlock->read_possible)` -/
def broadcast (s : State ι) : State ι := { s with place := fun t => (s.place t).wakeReader }

def releaseWrite (s : State ι) (t : ι) : State ι :=
  { s with writerThreadId := none, writes := Function.update s.writes t false }

def releaseRead (s : State ι) (t : ι) : State ι where
  writerThreadId := s.writerThreadId
  writersWaiting := s.writersWaiting
  readerCount := s.readerCount - 1
  threadRdlockCount := Function.update s.threadRdlockCount t (s.threadRdlockCount t - 1)
  place := s.place
  writes := s.writes
  reads := Function.update s.reads t (s.reads t - 1)

/-- `pthread_rwlock_unlock`, and whether it signals `write_possible`. -/
def unlock (s : State ι) (t : ι) : State ι × Bool :=
  match s.writerThreadId with
  | some w =>
    if w ≠ t then (s.move t (.out (some .eperm)), false)
    else if 0 < (s.releaseWrite t).writersWaiting then ((s.releaseWrite t).move t (.out none), true)
    else ((s.releaseWrite t).broadcast.move t (.out none), false)
  | none =>
    if s.readerCount = 0 then (s.move t (.out (some .eperm)), false)
    else if (s.releaseRead t).readerCount = 0 ∧ 0 < (s.releaseRead t).writersWaiting then
      ((s.releaseRead t).move t (.out none), true)
    else ((s.releaseRead t).move t (.out none), false)

end State

/-! ## Runs -/

inductive Event (ι : Type) where
  | rdlock (t : ι) (mode : Mode)
  | wrlock (t : ι) (mode : Mode)
  /-- By a thread that holds the lock. -/
  | unlock (t : ι)
  /-- `t` gets the mutex, in a lock. -/
  | go (t : ι)
  /-- `t` gets the mutex, in an unlock: the thread that its signal wakes. -/
  | release (t : ι) (woken : Option ι)
  /-- The wait of `t` comes back without a wake. -/
  | interrupt (t : ι)
  | timeout (t : ι)
  /-- `t` locks or unlocks other locks for reading. -/
  | elsewhere (t : ι) (threadRdlockCount : BitVec 32)

def go (s : State ι) (t : ι) : Option (State ι) :=
  match s.place t with
  | .rdlock mode => s.rdlockLoop t mode
  | .wrlock mode => s.wrlockLoop t mode
  | .reader mode .woken => s.rdlockLoop t mode
  | .reader _ .timedOut => some (s.move t (.out (some .etimedout)))
  | .writer mode .woken => { s with writersWaiting := s.writersWaiting - 1 }.wrlockLoop t mode
  | .writer _ .timedOut =>
    some ({ s with writersWaiting := s.writersWaiting - 1 }.move t (.out (some .etimedout)))
  | _ => none

/-- `pthread_cond_signal(&rwlock->write_possible)`, if `signals`. -/
def State.signalIf [Fintype ι] (s : State ι) (signals : Bool) (woken : Option ι) : Option (State ι) :=
  if signals then
    if Wakes (Place.isWriter .asleep) s.place woken then some (s.signal woken) else none
  else if woken = none then some s
  else none

def step [Fintype ι] (s : State ι) : Event ι → Option (State ι)
  | .rdlock t mode =>
    match s.place t with
    | .out _ => some (s.move t (.rdlock mode))
    | _ => none
  | .wrlock t mode =>
    match s.place t with
    | .out _ => some (s.move t (.wrlock mode))
    | _ => none
  | .unlock t =>
    match s.place t with
    | .out _ => if s.writes t = true ∨ 0 < s.reads t then some (s.move t .unlock) else none
    | _ => none
  | .go t => go s t
  | .release t woken =>
    match s.place t with
    | .unlock => (s.unlock t).1.signalIf (s.unlock t).2 woken
    | _ => none
  | .interrupt t => if (s.place t).asleep then some (s.move t (s.place t).wake) else none
  | .timeout t =>
    match s.place t with
    | .reader .timed .asleep => some (s.move t (.reader .timed .timedOut))
    | .writer .timed .asleep => some (s.move t (.writer .timed .timedOut))
    | _ => none
  | .elsewhere t count =>
    match s.place t with
    | .out _ => some { s with threadRdlockCount := Function.update s.threadRdlockCount t count }
    | _ => none

/-! ## What holds in every run -/

namespace State

def Free (s : State ι) : Prop := s.writerThreadId = none ∧ s.readerCount = 0

/-- A wake-up of `t` has been issued and is still to be consumed, and `t` can take the lock. -/
def CanAcquire (s : State ι) (t : ι) : Prop :=
  ((s.place t).isReader .woken = true ∧ s.readLockAvailable t = true) ∨
    ((s.place t).isWriter .woken = true ∧ s.writeLockAvailable = true)

def NotStranded (s : State ι) : Prop :=
  s.Free → (∃ t, (s.place t).asleep = true) → ∃ t, s.CanAcquire t

omit [DecidableEq ι] in
theorem writeLockAvailable_iff {s : State ι} :
    s.writeLockAvailable = true ↔ s.writerThreadId = none ∧ s.readerCount ≤ 0 := by
  unfold writeLockAvailable
  split
  · next held => simp [held]
  · next free =>
    split
    · next some => simp [some]
    · next none => exact iff_of_true rfl ⟨not_not.mp free, not_lt.mp none⟩

omit [DecidableEq ι] in
theorem readLockAvailable_iff {s : State ι} {t : ι} : s.readLockAvailable t = true ↔
      s.writerThreadId = none ∧ (s.writersWaiting ≤ 0 ∨ s.threadRdlockCount t ≠ 0) := by
  unfold readLockAvailable
  split
  · next held => simp [held]
  · next free =>
    split
    · next blocked => simp [blocked]
    · next clear =>
      rw [not_and_or, not_lt] at clear
      exact iff_of_true rfl ⟨not_not.mp free, clear⟩

omit [DecidableEq ι] in
theorem Free.writeLockAvailable {s : State ι} (free : s.Free) : s.writeLockAvailable = true :=
  writeLockAvailable_iff.mpr ⟨free.1, free.2.le⟩

end State

structure Counts [Fintype ι] (s : State ι) : Prop where
  writer : ∀ t, s.writerThreadId = some t ↔ s.writes t = true
  apart : s.writerThreadId ≠ none → s.readerCount = 0
  readers : s.readerCount = (∑ t, s.reads t : Nat)
  waiting : s.writersWaiting = tally Place.waitingWriter s.place
  unlocking : ∀ t, s.place t = .unlock → s.writes t = true ∨ 0 < s.reads t

section Counts

variable [Fintype ι] {s : State ι} {t : ι} {place : Place}

variable {count : ι → BitVec 32}

omit [DecidableEq ι] in
theorem Counts.relocate (counts : Counts s) {place : ι → Place}
    (waiting : ∀ u, (place u).waitingWriter = (s.place u).waitingWriter)
    (unlocking : ∀ u, place u = .unlock → s.writes u = true ∨ 0 < s.reads u) :
    Counts { s with place := place, threadRdlockCount := count } where
  writer := counts.writer
  apart := counts.apart
  readers := counts.readers
  waiting := by
    rw [counts.waiting, tally, tally]
    simp only [waiting]
  unlocking := unlocking

variable {writersWaiting : Int}

theorem Counts.waiting_move (counts : Counts s)
    (balance : writersWaiting + (s.place t).waitingWriter.toNat =
      s.writersWaiting + place.waitingWriter.toNat) :
    writersWaiting = tally Place.waitingWriter (Function.update s.place t place) := by
  have moved := tally_update Place.waitingWriter s.place t place
  have before := counts.waiting
  omega

theorem Counts.unlocking_move (counts : Counts s) (other : place ≠ .unlock) (u : ι)
    (here : Function.update s.place t place u = .unlock) :
    u ≠ t ∧ (s.writes u = true ∨ 0 < s.reads u) := by
  rw [Function.update_apply] at here
  split at here
  · exact absurd here other
  · next ne => exact ⟨ne, counts.unlocking u here⟩

/-- `t` has the lock free for reading, and takes it. -/
theorem Counts.acquireRead (counts : Counts s) (available : s.readLockAvailable t = true)
    (waiting : (s.place t).waitingWriter = false) :
    Counts ({ s with
      readerCount := s.readerCount + 1
      threadRdlockCount := count
      reads := Function.update s.reads t (s.reads t + 1) }.move t (.out none)) where
  writer := counts.writer
  apart := fun held => absurd (State.readLockAvailable_iff.mp available).1 held
  readers := by
    have total := sum_update s.reads t (s.reads t + 1)
    have before := counts.readers
    simp only [State.move]
    omega
  waiting := counts.waiting_move (by rw [waiting]; rfl)
  unlocking := fun u here => by
    obtain ⟨other, holds⟩ := counts.unlocking_move (by simp) u here
    simpa only [State.move, Function.update_of_ne other] using holds

/-- `t` has the lock free for writing, and takes it.  A writer that comes back from a wait is not counted
    any more. -/
theorem Counts.acquireWrite (counts : Counts s) (available : s.writeLockAvailable = true)
    (waiting : writersWaiting + (s.place t).waitingWriter.toNat = s.writersWaiting) :
    Counts ({ s with
      writerThreadId := some t
      writersWaiting := writersWaiting
      writes := Function.update s.writes t true }.move t (.out none)) where
  writer := fun u => by
    have before := counts.writer u
    rw [(State.writeLockAvailable_iff.mp available).1] at before
    simp only [State.move, Function.update_apply, Option.some.injEq]
    split
    · next same => simp [same]
    · next other => simpa [Ne.symm other] using before
  apart := fun _ => by
    have zero := (State.writeLockAvailable_iff.mp available).2
    have before := counts.readers
    simp only [State.move]
    omega
  readers := counts.readers
  waiting := counts.waiting_move (by simpa [State.move, Place.waitingWriter] using waiting)
  unlocking := fun u here => by
    obtain ⟨other, holds⟩ := counts.unlocking_move (by simp) u here
    simpa only [State.move, Function.update_of_ne other] using holds

/-- A writer starts to wait, or waits again, or leaves. -/
theorem Counts.writerGoes (counts : Counts s) (outside : place ≠ .unlock)
    (waiting : writersWaiting + (s.place t).waitingWriter.toNat =
      s.writersWaiting + place.waitingWriter.toNat) :
    Counts ({ s with writersWaiting := writersWaiting }.move t place) where
  writer := counts.writer
  apart := counts.apart
  readers := counts.readers
  waiting := counts.waiting_move waiting
  unlocking := fun u here => (counts.unlocking_move outside u here).2

theorem Counts.releaseWrite (counts : Counts s) (here : s.place t = .unlock)
    (holds : s.writerThreadId = some t) : Counts ((s.releaseWrite t).move t (.out none)) where
  writer := fun u => by
    have before := counts.writer u
    rw [holds] at before
    simp only [State.move, State.releaseWrite, Function.update_apply, reduceCtorEq, false_iff]
    split
    · simp
    · next other => simpa [Ne.symm other] using before
  apart := fun held => absurd rfl held
  readers := counts.readers
  waiting := counts.waiting_move (by rw [here]; rfl)
  unlocking := fun u at_unlock => by
    obtain ⟨other, holds⟩ := counts.unlocking_move (by simp) u at_unlock
    simpa only [State.move, State.releaseWrite, Function.update_of_ne other] using holds

theorem Counts.releaseRead (counts : Counts s) (here : s.place t = .unlock)
    (free : s.writerThreadId = none) : Counts ((s.releaseRead t).move t (.out none)) where
  writer := counts.writer
  apart := fun held => absurd free held
  readers := by
    have holds : 0 < s.reads t := by
      apply (counts.unlocking t here).resolve_left
      rw [← counts.writer, free]
      simp
    have total := sum_update s.reads t (s.reads t - 1)
    have before := counts.readers
    simp only [State.move, State.releaseRead]
    omega
  waiting := counts.waiting_move (by rw [here]; rfl)
  unlocking := fun u at_unlock => by
    obtain ⟨other, holds⟩ := counts.unlocking_move (by simp) u at_unlock
    simpa only [State.move, State.releaseRead, Function.update_of_ne other] using holds

end Counts

/-! ## When nobody is stranded -/

namespace State

/-- Some writer's time is not over, or a reader that is woken can take the lock once nobody holds it. -/
def Relieved (s : State ι) : Prop :=
  ∃ u, ((s.place u).isWriter .asleep = true ∨ (s.place u).isWriter .woken = true) ∨
    ((s.place u).isReader .woken = true ∧ (s.writersWaiting ≤ 0 ∨ s.threadRdlockCount u ≠ 0))

/-- Nobody holds the lock when `t` has unlocked it. -/
def Frees (s : State ι) (t : ι) : Prop :=
  s.writerThreadId = some t ∨ s.writerThreadId = none ∧ s.readerCount = 1

end State

/-- In a lock for reading that may wait. -/
def Place.reading : Place → Bool
  | .rdlock mode => decide (mode ≠ .tryOnly)
  | .reader mode .woken => decide (mode ≠ .tryOnly)
  | _ => false

/-- No reader goes to sleep on a free lock, or is left asleep by an unlock that frees the lock, with only
    such writers in front of it whose time is over. -/
def Minds (s : State ι) : Event ι → Prop
  | .go t => s.Free → (s.place t).reading = true → s.readLockAvailable t = false → s.Relieved
  | .release t _ => s.Frees t → (∃ u, (s.place u).isReader .asleep = true) →
    s.writerThreadId = some t ∧ s.writersWaiting ≤ 0 ∨ s.Relieved
  | _ => True

structure Inv [Fintype ι] (s : State ι) : Prop where
  counts : Counts s
  /-- An unlock has woken one of the writers that sleep. -/
  served : s.Free → (∃ t, (s.place t).isWriter .asleep = true) → ∃ t, (s.place t).isWriter .woken = true

/-- What a step leaves, under the condition `minds`. -/
structure Steps [Fintype ι] (minds : Prop) (s s' : State ι) : Prop where
  inv : Inv s'
  notStranded : s.NotStranded → minds → s'.NotStranded
  stranded : ¬ minds → ¬ s'.NotStranded

section Step

variable [Fintype ι] {s s' : State ι} {t u : ι} {minds : Prop}

omit [DecidableEq ι] in
theorem Inv.init : Inv (State.init : State ι) where
  counts := by
    refine ⟨fun t => by simp [State.init], fun _ => rfl, by simp [State.init], ?_,
      fun t unlock => by cases unlock⟩
    rw [State.init, tally_eq_zero.mpr fun _ => rfl]
    rfl
  served := fun _ ⟨t, asleep⟩ => by cases asleep

omit [DecidableEq ι] in
theorem Counts.held (counts : Counts s') (minded : minds) (held : ¬ s'.Free) : Steps minds s s' where
  inv := ⟨counts, fun free => absurd free held⟩
  notStranded := fun _ _ free => absurd free held
  stranded := fun not => absurd minded not

/-- Only `t` has gone to another place, and a waiting writer may be less. -/
structure Alike (s s' : State ι) (t : ι) : Prop where
  writer : s'.writerThreadId = s.writerThreadId
  readers : s'.readerCount = s.readerCount
  waiting : s'.writersWaiting ≤ s.writersWaiting
  place : ∀ u, u ≠ t → s'.place u = s.place u
  count : ∀ u, u ≠ t → s'.threadRdlockCount u = s.threadRdlockCount u

omit [DecidableEq ι] [Fintype ι] in
theorem Alike.canAcquire (alike : Alike s s' t) (other : u ≠ t) (can : s.CanAcquire u) :
    s'.CanAcquire u := by
  have waiting := alike.waiting
  unfold State.CanAcquire at can ⊢
  rw [State.readLockAvailable_iff, State.writeLockAvailable_iff, alike.place u other, alike.count u other,
    alike.writer, alike.readers]
  rw [State.readLockAvailable_iff, State.writeLockAvailable_iff] at can
  apply can.imp_left
  rintro ⟨woken, free, clear⟩
  exact ⟨woken, free, clear.imp_left waiting.trans⟩

omit [DecidableEq ι] in
theorem Inv.served_alike (inv : Inv s) (alike : Alike s s' t) (awake : (s'.place t).isWriter .asleep = false)
    (kept : (s.place t).isWriter .woken = false) (free : s'.Free)
    (sleeps : ∃ u, (s'.place u).isWriter .asleep = true) : ∃ u, (s'.place u).isWriter .woken = true := by
  obtain ⟨u, asleep⟩ := sleeps
  have other : u ≠ t := by
    rintro rfl
    rw [awake] at asleep
    cases asleep
  rw [alike.place u other] at asleep
  obtain ⟨v, woken⟩ := inv.served ⟨alike.writer ▸ free.1, alike.readers ▸ free.2⟩ ⟨u, asleep⟩
  refine ⟨v, ?_⟩
  rwa [alike.place]
  rintro rfl
  rw [kept] at woken
  cases woken

omit [DecidableEq ι] in
/-- `t` does not go to sleep, and nobody counts on it. -/
theorem Inv.moved (inv : Inv s) (alike : Alike s s' t) (counts : Counts s') (minded : minds)
    (awake : (s'.place t).asleep = false) (kept : (s.place t).isWriter .woken = false)
    (cannot : ¬ s.CanAcquire t) : Steps minds s s' where
  inv := by
    refine ⟨counts, inv.served_alike alike ?_ kept⟩
    unfold Place.asleep at awake
    exact (Bool.or_eq_false_iff.mp awake).2
  notStranded := by
    rintro notStranded - free ⟨u, asleep⟩
    have other : u ≠ t := by
      rintro rfl
      rw [awake] at asleep
      cases asleep
    rw [alike.place u other] at asleep
    obtain ⟨v, can⟩ := notStranded ⟨alike.writer ▸ free.1, alike.readers ▸ free.2⟩ ⟨u, asleep⟩
    refine ⟨v, alike.canAcquire ?_ can⟩
    rintro rfl
    exact cannot can
  stranded := fun not => absurd minded not

omit [DecidableEq ι] [Fintype ι] in
/-- On a free lock it is enough to be woken, for a writer, and not to stand behind writers, for a reader. -/
theorem State.Free.canAcquire_iff (free : s.Free) : s.CanAcquire u ↔ (s.place u).isWriter .woken = true ∨
    ((s.place u).isReader .woken = true ∧ (s.writersWaiting ≤ 0 ∨ s.threadRdlockCount u ≠ 0)) := by
  unfold State.CanAcquire
  rw [State.readLockAvailable_iff, free.writeLockAvailable]
  simp only [free.1, true_and, and_true]
  exact or_comm

omit [DecidableEq ι] in
theorem Inv.relieved_iff (inv : Inv s) (free : s.Free) : s.Relieved ↔ ∃ u, s.CanAcquire u := by
  simp only [free.canAcquire_iff]
  constructor
  · rintro ⟨u, (asleep | woken) | reader⟩
    · obtain ⟨v, woken⟩ := inv.served free ⟨u, asleep⟩
      exact ⟨v, .inl woken⟩
    · exact ⟨u, .inl woken⟩
    · exact ⟨u, .inr reader⟩
  · rintro ⟨u, woken | reader⟩
    · exact ⟨u, .inl (.inr woken)⟩
    · exact ⟨u, .inr reader⟩

variable {mode : Mode}

theorem Inv.sleepReader (inv : Inv s) (reading : (s.place t).reading = true)
    (blocked : s.readLockAvailable t = false) (waiting : (s.place t).waitingWriter = false) :
    Steps (s.Free → (s.place t).reading = true → s.readLockAvailable t = false → s.Relieved) s
      (s.move t (.reader mode .asleep)) := by
  have others : ∀ u, u ≠ t → (s.move t (.reader mode .asleep)).place u = s.place u :=
    fun u other => Function.update_of_ne other ..
  have here : (s.move t (.reader mode .asleep)).place t = .reader mode .asleep := Function.update_self ..
  have alike : Alike s (s.move t (.reader mode .asleep)) t :=
    ⟨rfl, rfl, le_refl _, others, fun u _ => rfl⟩
  have writer : (s.place t).isWriter .woken = false := by
    cases place : s.place t <;> rw [place] at waiting <;> first | rfl | cases waiting
  have cannot : ¬ s.CanAcquire t := by
    rintro (⟨-, available⟩ | ⟨woken, -⟩)
    · rw [blocked] at available
      cases available
    · rw [writer] at woken
      cases woken
  refine ⟨⟨?_, inv.served_alike alike ?_ writer⟩, fun _ minded free _ => ?_, fun not stranded => not ?_⟩
  · apply inv.counts.relocate
    · intro u
      rw [Function.update_apply]
      split
      · next same =>
        rw [same, waiting]
        rfl
      · rfl
    · exact fun u at_unlock => (inv.counts.unlocking_move (by simp) u at_unlock).2
  · rw [here]
    rfl
  · obtain ⟨v, can⟩ := (inv.relieved_iff free).mp (minded free reading blocked)
    refine ⟨v, alike.canAcquire ?_ can⟩
    rintro rfl
    exact cannot can
  · intro free _ _
    obtain ⟨v, can⟩ := stranded free ⟨t, by rw [here]; rfl⟩
    have other : v ≠ t := by
      rintro rfl
      rw [State.CanAcquire, here] at can
      simp [Place.isReader, Place.isWriter] at can
    apply (inv.relieved_iff free).mpr
    refine ⟨v, ?_⟩
    unfold State.CanAcquire at can ⊢
    rwa [others v other] at can

structure Signalled (s s' : State ι) : Prop where
  reader : ∀ u w, (s'.place u).isReader w = (s.place u).isReader w
  waiting : ∀ u, (s'.place u).waitingWriter = (s.place u).waitingWriter
  unlock : ∀ u, s'.place u = .unlock → s.place u = .unlock
  asleep : ∀ u, (s'.place u).isWriter .asleep = true → (s.place u).isWriter .asleep = true
  woken : (∃ u, (s'.place u).isWriter .woken = true) ↔
    ∃ u, (s.place u).isWriter .asleep = true ∨ (s.place u).isWriter .woken = true

variable {woken : Option ι}

omit [Fintype ι] in
theorem State.signalled (wakes : Wakes (Place.isWriter .asleep) s.place woken) :
    Signalled s (s.signal woken) := by
  cases woken with
  | none =>
    refine ⟨fun u w => rfl, fun u => rfl, fun u => id, fun u => id, ?_⟩
    simp only [signal, Option.elim_none]
    constructor
    · rintro ⟨u, woken⟩
      exact ⟨u, .inr woken⟩
    · rintro ⟨u, asleep | woken⟩
      · rw [wakes u] at asleep
        cases asleep
      · exact ⟨u, woken⟩
  | some v =>
    obtain ⟨mode, here⟩ : ∃ mode, s.place v = .writer mode .asleep := by
      have asleep : (s.place v).isWriter .asleep = true := wakes
      cases place : s.place v <;> rw [place] at asleep <;> simp_all [Place.isWriter]
    have after : ∀ u, (s.signal (some v)).place u = if u = v then .writer mode .woken else s.place u := by
      intro u
      simp only [signal, Option.elim_some, move, Function.update_apply, here]
      rfl
    refine ⟨fun u w => ?_, fun u => ?_, fun u => ?_, fun u => ?_, ?_⟩
    · rw [after]
      split
      · next same => rw [same, here]; rfl
      · rfl
    · rw [after]
      split
      · next same => rw [same, here]; rfl
      · rfl
    · rw [after]
      split
      · intro unlock
        cases unlock
      · exact id
    · rw [after]
      split
      · intro asleep
        cases asleep
      · exact id
    · constructor
      · exact fun _ => ⟨v, .inl wakes⟩
      · refine fun _ => ⟨v, ?_⟩
        rw [after, if_pos rfl]
        rfl

omit [Fintype ι] in
theorem State.Free.signal (free : s.Free) (woken : Option ι) : (s.signal woken).Free := by
  cases woken <;> exact free

theorem Counts.signal (counts : Counts s) (signalled : Signalled s (s.signal woken)) :
    Counts (s.signal woken) := by
  have relocated : Counts { s with place := (s.signal woken).place, threadRdlockCount := s.threadRdlockCount } :=
    counts.relocate signalled.waiting fun u unlock => counts.unlocking u (signalled.unlock u unlock)
  cases woken <;> exact relocated

variable {s₁ : State ι}

/-- `t` has unlocked the lock, and nobody holds it. -/
theorem Inv.frees (here : s.place t = .unlock) (frees : s.Frees t)
    (waits : s.writersWaiting ≤ 0 → s.writerThreadId ≠ some t) (counts : Counts s₁) (free : s₁.Free)
    (waiting : s₁.writersWaiting = s.writersWaiting)
    (place : s₁.place = Function.update s.place t (.out none))
    (count : ∀ u, u ≠ t → s₁.threadRdlockCount u = s.threadRdlockCount u)
    (wakes : Wakes (Place.isWriter .asleep) s₁.place woken) :
    Steps (s.Frees t → (∃ u, (s.place u).isReader .asleep = true) →
      s.writerThreadId = some t ∧ s.writersWaiting ≤ 0 ∨ s.Relieved) s (s₁.signal woken) := by
  have signalled := State.signalled wakes
  have readers : ∀ u w, (s₁.place u).isReader w = (s.place u).isReader w := by
    intro u w
    rw [place, Function.update_apply]
    split
    · next same => rw [same, here]; rfl
    · rfl
  have writers : ∀ u w, (s₁.place u).isWriter w = (s.place u).isWriter w := by
    intro u w
    rw [place, Function.update_apply]
    split
    · next same => rw [same, here]; rfl
    · rfl
  have after : (s₁.signal woken).writersWaiting = s.writersWaiting ∧
      ∀ u, (s₁.signal woken).threadRdlockCount u = s₁.threadRdlockCount u := by
    cases woken <;> exact ⟨waiting, fun u => rfl⟩
  -- who can take the lock now
  have relieved : (∃ u, (s₁.signal woken).CanAcquire u) ↔ s.Relieved := by
    have woke := signalled.woken
    simp only [writers] at woke
    simp only [(free.signal woken).canAcquire_iff, exists_or, State.Relieved, woke, signalled.reader, readers,
      after.1, after.2]
    apply or_congr_right
    apply exists_congr
    intro u
    apply and_congr_right
    intro reader
    rw [count]
    rintro rfl
    rw [here] at reader
    cases reader
  refine ⟨⟨counts.signal signalled, fun _ asleep => ?_⟩, fun _ minded now asleep => ?_, fun not stranded => ?_⟩
  · obtain ⟨u, asleep⟩ := asleep
    exact signalled.woken.mpr ⟨u, .inl (signalled.asleep u asleep)⟩
  · obtain ⟨u, asleep⟩ := asleep
    apply relieved.mpr
    rcases (Bool.or_eq_true_iff.mp asleep) with reader | writer
    · rw [signalled.reader, readers] at reader
      rcases minded frees ⟨u, reader⟩ with ⟨held, none⟩ | relieved
      · exact absurd held (waits none)
      · exact relieved
    · have before := signalled.asleep u writer
      rw [writers] at before
      exact ⟨u, .inl (.inl before)⟩
  · apply not
    rintro - ⟨u, reader⟩
    right
    apply relieved.mp
    apply stranded (free.signal woken)
    refine ⟨u, Bool.or_eq_true_iff.mpr (.inl ?_)⟩
    rw [signalled.reader, readers]
    exact reader

/-! ## Steps -/

theorem Inv.rdlockLoop (inv : Inv s) (reading : (s.place t).reading = decide (mode ≠ .tryOnly))
    (waiting : (s.place t).waitingWriter = false) (loop : s.rdlockLoop t mode = some s') :
    Steps (s.Free → (s.place t).reading = true → s.readLockAvailable t = false → s.Relieved) s s' := by
  unfold State.rdlockLoop at loop
  split at loop
  · next available =>
    split at loop
    · cases loop
      apply (inv.counts.acquireRead available waiting).held
      · rintro - - blocked
        rw [available] at blocked
        cases blocked
      · rintro ⟨-, zero⟩
        have before := inv.counts.readers
        simp only [State.move] at zero
        omega
    · cases loop
  · next blocked =>
    rw [Bool.not_eq_true] at blocked
    split at loop
    · next tryOnly =>
      cases loop
      have writer : (s.place t).isWriter .woken = false := by
        cases place : s.place t <;> rw [place] at waiting <;> first | rfl | cases waiting
      apply inv.moved (t := t)
      · exact ⟨rfl, rfl, le_refl _, fun u other => Function.update_of_ne other .., fun u _ => rfl⟩
      · exact inv.counts.writerGoes (by simp) (by rw [waiting]; rfl)
      · rintro - now
        rw [reading, tryOnly] at now
        cases now
      · simp [State.move, Place.asleep, Place.isReader, Place.isWriter]
      · exact writer
      · rintro (⟨-, available⟩ | ⟨woken, -⟩)
        · rw [blocked] at available
          cases available
        · rw [writer] at woken
          cases woken
    · next waits =>
      cases loop
      exact inv.sleepReader (by rw [reading]; simp [waits]) blocked waiting

/-- A lock for writing leaves the lock held, by `t` or by whom it waits for. -/
theorem Counts.wrlockLoop (counts : Counts s) {writersWaiting : Int}
    (waiting : writersWaiting + (s.place t).waitingWriter.toNat = s.writersWaiting) (minded : minds)
    (loop : { s with writersWaiting := writersWaiting }.wrlockLoop t mode = some s') :
    Steps minds s s' := by
  unfold State.wrlockLoop at loop
  split at loop
  · next available =>
    cases loop
    have available : s.writeLockAvailable = true := available
    exact (counts.acquireWrite available waiting).held minded fun free => by cases free.1
  · next blocked =>
    have held : ¬ s.Free := fun free => blocked free.writeLockAvailable
    split at loop
    · cases loop
      apply (counts.writerGoes _ _).held minded held
      · simp
      · simpa [Place.waitingWriter] using waiting
    · split at loop
      · cases loop
        apply (counts.writerGoes _ _).held minded held
        · simp
        · have one : (Place.writer mode .asleep).waitingWriter.toNat = 1 := rfl
          rw [one]
          dsimp only
          omega
      · cases loop

theorem Inv.go (inv : Inv s) (stepped : go s t = some s') : Steps (Minds s (.go t)) s s' := by
  unfold RwLock.go at stepped
  split at stepped
  · next mode here =>
    apply inv.rdlockLoop _ _ stepped
    · rw [here]
      rfl
    · rw [here]
      rfl
  · next mode here =>
    apply inv.counts.wrlockLoop _ _ stepped
    · simp [here, Place.waitingWriter]
    · simp [Minds, here, Place.reading]
  · next mode here =>
    apply inv.rdlockLoop _ _ stepped
    · rw [here]
      rfl
    · rw [here]
      rfl
  · next mode here =>
    cases stepped
    apply inv.moved (t := t)
    · exact ⟨rfl, rfl, le_refl _, fun u other => Function.update_of_ne other .., fun u _ => rfl⟩
    · exact inv.counts.writerGoes (by simp) (by rw [here]; rfl)
    · simp [Minds, here, Place.reading]
    · simp [State.move, Place.asleep, Place.isReader, Place.isWriter]
    · simp [here, Place.isWriter]
    · simp [State.CanAcquire, here, Place.isReader, Place.isWriter]
  · next mode here =>
    apply inv.counts.wrlockLoop _ _ stepped
    · simp [here, Place.waitingWriter]
    · simp [Minds, here, Place.reading]
  · next mode here =>
    cases stepped
    apply inv.moved (t := t)
    · exact ⟨rfl, rfl, by simp [State.move], fun u other => Function.update_of_ne other .., fun u _ => rfl⟩
    · exact inv.counts.writerGoes (by simp) (by simp [here, Place.waitingWriter])
    · simp [Minds, here, Place.reading]
    · simp [State.move, Place.asleep, Place.isReader, Place.isWriter]
    · simp [here, Place.isWriter]
    · simp [State.CanAcquire, here, Place.isReader, Place.isWriter]
  · cases stepped

/-- An unlock that finds the lock not held leaves it as it is. -/
theorem Inv.unlock_eperm (inv : Inv s) (here : s.place t = .unlock) (minded : minds) :
    Steps minds s (s.move t (.out (some .eperm))) := by
  apply inv.moved (t := t)
  · exact ⟨rfl, rfl, le_refl _, fun u other => Function.update_of_ne other .., fun u _ => rfl⟩
  · exact inv.counts.writerGoes (by simp) (by rw [here]; rfl)
  · exact minded
  · simp [State.move, Place.asleep, Place.isReader, Place.isWriter]
  · simp [here, Place.isWriter]
  · simp [State.CanAcquire, here, Place.isReader, Place.isWriter]

omit [DecidableEq ι] in
theorem Counts.noWriter (counts : Counts s) (none : s.writersWaiting ≤ 0) (waiting : Waiting) (u : ι) :
    (s.place u).isWriter waiting = false := by
  have zero : tally Place.waitingWriter s.place = 0 := by
    have before := counts.waiting
    omega
  have here := tally_eq_zero.mp zero u
  cases place : s.place u <;> rw [place] at here <;> first | rfl | cases here

/-- The last writer wakes all readers that sleep. -/
theorem Counts.broadcast (counts : Counts (s₁.move t (.out none))) (nobody : s₁.writersWaiting ≤ 0)
    (minded : minds) : Steps minds s (s₁.broadcast.move t (.out none)) := by
  have noWriter := counts.noWriter nobody .asleep
  have after : ∀ u, (s₁.broadcast.move t (.out none)).place u =
      if u = t then .out none else (s₁.place u).wakeReader := fun u => Function.update_apply ..
  have before : ∀ u, (s₁.move t (.out none)).place u = if u = t then .out none else s₁.place u :=
    fun u => Function.update_apply ..
  have awake : ∀ u, ((s₁.broadcast.move t (.out none)).place u).asleep = false := by
    intro u
    have writer := noWriter u
    rw [before] at writer
    rw [after]
    split
    · rfl
    · next other =>
      rw [if_neg other] at writer
      exact Place.asleep_wakeReader writer
  have relocated : Counts { s₁.move t (.out none) with
      place := (s₁.broadcast.move t (.out none)).place, threadRdlockCount := s₁.threadRdlockCount } := by
    apply counts.relocate
    · intro u
      rw [before, after]
      split
      · rfl
      · exact Place.waitingWriter_wakeReader _
    · intro u unlock
      apply counts.unlocking u
      rw [before]
      rw [after] at unlock
      split at unlock
      · cases unlock
      · next other =>
        rw [if_neg other]
        exact Place.wakeReader_eq_unlock unlock
  refine ⟨⟨relocated, fun _ ⟨u, asleep⟩ => ?_⟩, fun _ _ _ ⟨u, asleep⟩ => ?_, fun not => absurd minded not⟩
  · have here := awake u
    rw [Place.asleep, asleep, Bool.or_true] at here
    cases here
  · rw [awake u] at asleep
    cases asleep

theorem State.signalIf_true (signalled : s.signalIf true woken = some s') :
    Wakes (Place.isWriter .asleep) s.place woken ∧ s' = s.signal woken := by
  simp only [signalIf, if_true] at signalled
  split at signalled
  · next wakes => exact ⟨wakes, (Option.some.inj signalled).symm⟩
  · cases signalled

theorem State.signalIf_false (signalled : s.signalIf false woken = some s') :
    s' = s ∧ woken = none := by
  simp only [signalIf, Bool.false_eq_true, if_false] at signalled
  split at signalled
  · next none => exact ⟨(Option.some.inj signalled).symm, none⟩
  · cases signalled

theorem Inv.releaseWrite (inv : Inv s) (here : s.place t = .unlock)
    (writer : s.writerThreadId = some t)
    (stepped : (s.unlock t).1.signalIf (s.unlock t).2 woken = some s') :
    Steps (Minds s (.release t woken)) s s' := by
  have counts := inv.counts.releaseWrite here writer
  have free := inv.counts.apart (by simp [writer])
  simp only [State.unlock, writer, ne_eq, not_true_eq_false, if_false] at stepped
  split at stepped
  · next waits =>
    obtain ⟨wakes, rfl⟩ := State.signalIf_true stepped
    apply Inv.frees here (.inl writer) _ counts
    · exact ⟨rfl, free⟩
    · rfl
    · rfl
    · exact fun u _ => rfl
    · exact wakes
    · exact fun nobody => absurd waits (not_lt.mpr nobody)
  · next nobody =>
    obtain ⟨rfl, rfl⟩ := State.signalIf_false stepped
    apply Counts.broadcast counts
    · exact not_lt.mp nobody
    · exact fun _ _ => .inl ⟨writer, not_lt.mp nobody⟩

theorem Inv.releaseRead (inv : Inv s) (here : s.place t = .unlock)
    (writer : s.writerThreadId = none)
    (stepped : (s.unlock t).1.signalIf (s.unlock t).2 woken = some s') :
    Steps (Minds s (.release t woken)) s s' := by
  have counts := inv.counts.releaseRead here writer
  have notWriter : s.writersWaiting ≤ 0 → s.writerThreadId ≠ some t := by simp [writer]
  simp only [State.unlock, writer] at stepped
  split at stepped
  · next zero =>
    obtain ⟨rfl, rfl⟩ := State.signalIf_false stepped
    apply inv.unlock_eperm here
    rintro (held | free)
    · rw [writer] at held
      cases held
    · rw [zero] at free
      cases free.2
  by_cases last : (s.releaseRead t).readerCount = 0
  · have frees : s.Frees t := by
      refine .inr ⟨writer, ?_⟩
      simp only [State.releaseRead] at last
      omega
    have free : ((s.releaseRead t).move t (.out none)).Free := ⟨writer, last⟩
    have wakes : Wakes (Place.isWriter .asleep) ((s.releaseRead t).move t (.out none)).place woken ∧
        s' = ((s.releaseRead t).move t (.out none)).signal woken := by
      split at stepped
      · exact State.signalIf_true stepped
      · next nobody =>
        obtain ⟨rfl, rfl⟩ := State.signalIf_false stepped
        refine ⟨counts.noWriter ?_ .asleep, rfl⟩
        exact not_lt.mp fun waits => nobody ⟨last, waits⟩
    obtain ⟨wakes, rfl⟩ := wakes
    apply Inv.frees here frees notWriter counts free
    · rfl
    · rfl
    · exact fun u other => Function.update_of_ne other ..
    · exact wakes
  · simp only [last, false_and, if_false] at stepped
    obtain ⟨rfl, rfl⟩ := State.signalIf_false stepped
    apply counts.held
    · rintro (held | ⟨-, one⟩)
      · rw [writer] at held
        cases held
      · simp only [State.releaseRead] at last
        omega
    · exact fun free => last free.2

theorem Inv.release (inv : Inv s) (stepped : step s (.release t woken) = some s') :
    Steps (Minds s (.release t woken)) s s' := by
  simp only [RwLock.step] at stepped
  split at stepped
  · next here =>
    cases writer : s.writerThreadId with
    | none => exact inv.releaseRead here writer stepped
    | some w =>
      by_cases same : w = t
      · exact inv.releaseWrite here (same ▸ writer) stepped
      · simp only [State.unlock, writer, ne_eq, same, not_false_eq_true, if_true] at stepped
        obtain ⟨rfl, rfl⟩ := State.signalIf_false stepped
        apply inv.unlock_eperm here
        rintro (held | free)
        · rw [writer] at held
          exact absurd (Option.some.inj held) same
        · rw [writer] at free
          cases free.1
  · cases stepped

/-- A thread that is not inside a wait that is over goes to a place where it does not sleep. -/
theorem Inv.relocated (inv : Inv s) {place : Place} (waiting : (s.place t).waitingWriter = place.waitingWriter)
    (unlocking : place = .unlock → s.writes t = true ∨ 0 < s.reads t) (minded : minds)
    (awake : place.asleep = false) (reader : (s.place t).isReader .woken = false)
    (writer : (s.place t).isWriter .woken = false) : Steps minds s (s.move t place) := by
  apply inv.moved (t := t)
  · exact ⟨rfl, rfl, le_refl _, fun u other => Function.update_of_ne other .., fun u _ => rfl⟩
  · apply inv.counts.relocate
    · intro u
      rw [Function.update_apply]
      split
      · next same => rw [same, waiting]
      · rfl
    · intro u unlock
      rw [Function.update_apply] at unlock
      split at unlock
      · next same =>
        rw [same]
        exact unlocking unlock
      · exact inv.counts.unlocking u unlock
  · exact minded
  · simpa [State.move] using awake
  · exact writer
  · simp [State.CanAcquire, reader, writer]

theorem Inv.step (inv : Inv s) {e : Event ι} (stepped : step s e = some s') :
    Steps (Minds s e) s s' := by
  cases e with
  | rdlock t mode =>
    simp only [RwLock.step] at stepped
    split at stepped
    · next errno here =>
      cases stepped
      apply inv.relocated <;> simp [here, Minds, Place.waitingWriter, Place.asleep, Place.isReader,
        Place.isWriter]
    · cases stepped
  | wrlock t mode =>
    simp only [RwLock.step] at stepped
    split at stepped
    · next errno here =>
      cases stepped
      apply inv.relocated <;> simp [here, Minds, Place.waitingWriter, Place.asleep, Place.isReader,
        Place.isWriter]
    · cases stepped
  | unlock t =>
    simp only [RwLock.step] at stepped
    split at stepped
    · next errno here =>
      split at stepped
      · next holds =>
        cases stepped
        apply inv.relocated
        · simp [here, Place.waitingWriter]
        · exact fun _ => holds
        · trivial
        · rfl
        · simp [here, Place.isReader]
        · simp [here, Place.isWriter]
      · cases stepped
    · cases stepped
  | go t => exact inv.go stepped
  | release t woken => exact inv.release stepped
  | interrupt t =>
    simp only [RwLock.step] at stepped
    split at stepped
    · next asleep =>
      cases stepped
      obtain ⟨mode, here | here⟩ : ∃ mode, s.place t = .reader mode .asleep ∨ s.place t = .writer mode .asleep := by
        cases place : s.place t <;> rw [place] at asleep <;>
          simp_all [Place.asleep, Place.isReader, Place.isWriter]
      · apply inv.relocated <;> simp [here, Minds, Place.wake, Place.waitingWriter, Place.asleep,
          Place.isReader, Place.isWriter]
      · apply inv.relocated <;> simp [here, Minds, Place.wake, Place.waitingWriter, Place.asleep,
          Place.isReader, Place.isWriter]
    · cases stepped
  | timeout t =>
    simp only [RwLock.step] at stepped
    split at stepped
    · next here =>
      cases stepped
      apply inv.relocated <;> simp [here, Minds, Place.waitingWriter, Place.asleep, Place.isReader,
        Place.isWriter]
    · next here =>
      cases stepped
      apply inv.relocated <;> simp [here, Minds, Place.waitingWriter, Place.asleep, Place.isReader,
        Place.isWriter]
    · cases stepped
  | elsewhere t count =>
    simp only [RwLock.step] at stepped
    split at stepped
    · next errno here =>
      cases stepped
      apply inv.moved (t := t)
      · exact ⟨rfl, rfl, le_refl _, fun u _ => rfl, fun u other => Function.update_of_ne other ..⟩
      · exact inv.counts.relocate (fun u => rfl) inv.counts.unlocking
      · trivial
      · simp [here, Place.asleep, Place.isReader, Place.isWriter]
      · simp [here, Place.isWriter]
      · simp [State.CanAcquire, here, Place.isReader, Place.isWriter]
    · cases stepped

/-- In every run the counts are right and a writer is alone.  If every step of the run minds the readers that
    sleep then nobody is stranded; a step that does not strands one. -/
theorem rwlock_runs {events : List (Event ι)} {s : State ι}
    (run : events.foldlM step State.init = some s) :
    (∀ t u, s.writes t = true → s.reads u = 0 ∧ (s.writes u = true → u = t)) ∧
      s.readerCount = (∑ t, s.reads t : Nat) ∧
      s.writersWaiting = tally Place.waitingWriter s.place ∧
      ((∀ pre e, pre ++ [e] <+: events → ∀ u, pre.foldlM step State.init = some u → Minds u e) →
        s.NotStranded) ∧
      ∀ e s', step s e = some s' → ¬ Minds s e → ¬ s'.NotStranded := by
  have inv : Inv s := @foldlM_invariant _ _ step Inv (fun _ _ => True)
    (fun s e s' inv _ stepped => (inv.step stepped).inv) events _ s Inv.init (fun _ _ _ _ _ => trivial) run
  refine ⟨fun t u writes => ⟨?_, fun writes' => ?_⟩, inv.counts.readers, inv.counts.waiting, fun minds => ?_,
    fun e s' stepped => (inv.step stepped).stranded⟩
  · have holds := (inv.counts.writer t).mpr writes
    have none := inv.counts.apart (by simp [holds])
    have total := inv.counts.readers
    have part : s.reads u ≤ ∑ t, s.reads t := Finset.single_le_sum (fun t _ => Nat.zero_le _) (Finset.mem_univ u)
    omega
  · have both := ((inv.counts.writer u).mpr writes').symm.trans ((inv.counts.writer t).mpr writes)
    exact Option.some.inj both
  · have final := @foldlM_invariant _ _ step (fun s => Inv s ∧ s.NotStranded) Minds
      (fun s e s' both minds stepped =>
        ⟨(both.1.step stepped).inv, (both.1.step stepped).notStranded both.2 minds⟩) events _ s
      ⟨Inv.init, fun _ ⟨t, asleep⟩ => by cases asleep⟩ minds run
    exact final.2

end Step

section Decidable

variable [Fintype ι] (s : State ι)

instance : Decidable s.Free := inferInstanceAs (Decidable (_ ∧ _))

instance (t : ι) : Decidable (s.CanAcquire t) := inferInstanceAs (Decidable (_ ∨ _))

instance : Decidable s.NotStranded := inferInstanceAs (Decidable (_ → _ → _))

instance : Decidable s.Relieved := inferInstanceAs (Decidable (∃ _, _))

instance (t : ι) : Decidable (s.Frees t) := inferInstanceAs (Decidable (_ ∨ _))

instance : (e : Event ι) → Decidable (Minds s e)
  | .go _ => inferInstanceAs (Decidable (_ → _ → _ → _))
  | .release .. => inferInstanceAs (Decidable (_ → _ → _))
  | .rdlock .. | .wrlock .. | .unlock _ | .interrupt _ | .timeout _ | .elsewhere .. => .isTrue trivial

end Decidable

/-- A reader sleeps while a writer holds the lock, and the writer unlocks it. -/
def readerBehindHolder (t u : Fin 2) : List (Event (Fin 2)) :=
  [.wrlock t .untimed, .go t, .rdlock u .untimed, .go u, .unlock t, .release t none]

theorem rwlock_runs_broadcast : ∃ s : State (Fin 2),
    (readerBehindHolder 0 1).foldlM step State.init = some s ∧ s.Free ∧ s.NotStranded := by
  have free : ((readerBehindHolder 0 1).foldlM step State.init).map (fun s => decide s.Free) = some true := by decide
  obtain ⟨s, run, here⟩ := Option.map_eq_some_iff.mp free
  have met : meets step Minds State.init (readerBehindHolder 0 1) = true := by decide
  exact ⟨s, run, of_decide_eq_true here, (rwlock_runs run).2.2.2.1 (cond_of_meets met)⟩

/-- A reader sleeps behind a writer that waits for another reader.  The writer's time is over, and then the
    other reader unlocks. -/
def writerGivesUp (t u v : Fin 3) : List (Event (Fin 3)) :=
  [.rdlock t .untimed, .go t, .wrlock u .timed, .go u, .rdlock v .untimed, .go v, .timeout u, .go u,
    .unlock t, .release t none]

/-- Nobody holds the lock or is inside a call but the reader, which sleeps. -/
theorem rwlock_strands : ∃ s : State (Fin 3),
    (writerGivesUp 0 1 2).foldlM step State.init = some s ∧ s.Free ∧ s.place 0 = .out none ∧
      s.place 1 = .out (some .etimedout) ∧ s.place 2 = .reader .untimed .asleep ∧ ¬ s.NotStranded := by
  have seen : ((writerGivesUp 0 1 2).foldlM step State.init).map (fun s =>
      (decide s.Free, s.place 0, s.place 1, s.place 2, decide s.NotStranded)) =
      some (true, .out none, .out (some .etimedout), .reader .untimed .asleep, false) := by decide
  obtain ⟨s, run, here⟩ := Option.map_eq_some_iff.mp seen
  simp only [Prod.mk.injEq, decide_eq_true_eq, decide_eq_false_iff_not] at here
  exact ⟨s, run, here⟩

end SandboxTEE.Pthread.RwLock
