import Mathlib.Tactic.FinCases
import SandboxTEE.Futex.WaitQueue

/-! # Condition variables of the pthread library (`nc_condvar.c`)

Any number of threads wait on one condition variable with one mutex, of which only the holder counts here.
The futex is the queue that `NaClSysFutexWaitAbs` and `NaClSysFutexWake` keep, and other users of it may change
it in any way that leaves those who wait on this condition variable alone.

Waits are told apart by their numbers.  A signal compares nothing: it wakes whoever is first in the queue.
That this is one of those it is for follows from the order of the queue, which is the order of the sequence
numbers that the waits have read (`Inv.sorted`).
-/

namespace SandboxTEE.Pthread.CondVar

open SandboxTEE.Lib
open SandboxTEE.Futex (Queue NaClSyncStatus Waits wakes without)

/-- A call of `pthread_cond_timedwait_abs`. -/
structure Wait where
  /-- Which of the calls of its thread it is. -/
  number : Nat
  /-- The number of signals when it was called. -/
  startedAt : Nat
  /-- The number of signals when it read the sequence number. -/
  readAt : Nat
  oldValue : BitVec 32
  abstimePtr : BitVec 32

/-- The waits that a signal is for: those that had released the mutex and not been woken. -/
abbrev Waiters (threads : Nat) := Fin threads → Option Nat

/-- Where a thread is: at the access that is next, or outside with what the wait that it has just come back
    from has returned. -/
inductive Place (threads : Nat) where
  | out (timedOut : Option Bool)
  /-- `int old_value = cond->sequence_number` -/
  | read (w : Wait)
  /-- `pthread_mutex_unlock` -/
  | unlock (w : Wait)
  | futexWait (w : Wait)
  | asleep (w : Wait)
  /-- `pthread_mutex_lock` -/
  | relock (w : Wait) (timedOut : Bool)
  /-- `__sync_fetch_and_add`, with the waiters when the call was made. -/
  | raise (broadcast : Bool) (called : Waiters threads)
  /-- `futex_wake`, with the waiters when the call was made and when it raised the sequence number, and the
      number of signals since then. -/
  | wake (broadcast : Bool) (called raised : Waiters threads) (signals : Nat)

namespace Place

variable {threads : Nat}

/-- The wait that the thread is in. -/
def wait : Place threads → Option Wait
  | .read w => some w
  | .unlock w => some w
  | .futexWait w => some w
  | .asleep w => some w
  | .relock w _ => some w
  | _ => none

/-- About to raise the sequence number. -/
def raising : Place threads → Bool
  | .raise _ _ => true
  | _ => false

/-- About to wake one waiter, or all of them. -/
def waking : Place threads → Option Bool
  | .wake broadcast _ _ _ => some broadcast
  | _ => none

/-- Who waited when the signal was called. -/
def calledFor : Place threads → Waiters threads
  | .raise _ called => called
  | .wake _ called _ _ => called
  | _ => fun _ => none

/-- Who waited when the signal raised the sequence number. -/
def raisedFor : Place threads → Waiters threads
  | .wake _ _ raised _ => raised
  | _ => fun _ => none

/-- Before the wait releases the mutex. -/
def holding : Place threads → Bool
  | .read _ => true
  | .unlock _ => true
  | _ => false

/-- The wait has released the mutex, and may still sleep or go to sleep. -/
def released : Place threads → Option Wait
  | .futexWait w => some w
  | .asleep w => some w
  | _ => none

theorem released_iff {place : Place threads} {w : Wait} :
    place.released = some w ↔ place = .futexWait w ∨ place = .asleep w := by
  cases place <;> simp [released]

def sleeping : Place threads → Option Wait
  | .asleep w => some w
  | _ => none

/-- Of a thread that sleeps. -/
def readAt (place : Place threads) : Nat := (place.sleeping.map Wait.readAt).getD 0

end Place

structure State (threads : Nat) where
  sequenceNumber : BitVec 32
  futex : Queue threads
  /-- Of the mutex. -/
  holder : Option (Fin threads)
  place : Fin threads → Place threads
  /-- The number of waits that each thread has called. -/
  calls : Fin threads → Nat
  signals : Nat

variable {threads : Nat}

/-- After `pthread_cond_init`. -/
def State.init : State threads := ⟨0, Queue.empty, none, fun _ => .out none, fun _ => 0, 0⟩

def intMax : BitVec 32 := 0x7FFFFFFF

/-- The threads that wait on the address `addr`. -/
def on (waiting : List (Fin threads × BitVec 32)) (addr : BitVec 32) : List (Fin threads) :=
  (waiting.filter (·.2 = addr)).map Prod.fst

def State.waiters (s : State threads) : Waiters threads := fun t =>
  if t ∈ s.futex.woken then none else (s.place t).released.map Wait.number

def State.move (s : State threads) (t : Fin threads) (place : Place threads) : State threads :=
  { s with place := Function.update s.place t place }

/-- `__sync_fetch_and_add(&cond->sequence_number, 1)` -/
def State.increment (s : State threads) : State threads :=
  { s with sequenceNumber := s.sequenceNumber + 1, signals := s.signals + 1 }

/-! ## Runs -/

inductive Event (threads : Nat) where
  /-- Of the mutex, outside a wait. -/
  | lock (t : Fin threads)
  | unlock (t : Fin threads)
  /-- `pthread_cond_wait`, where `abstimePtr` is null, or a timed wait, by the holder. -/
  | wait (t : Fin threads) (abstimePtr : BitVec 32)
  /-- `pthread_cond_signal` or `pthread_cond_broadcast`. -/
  | pulse (t : Fin threads) (broadcast : Bool)
  /-- The next access of the call that `t` is in. -/
  | go (t : Fin threads)
  /-- The futex wait of `t` comes back. -/
  | resume (t : Fin threads) (status : NaClSyncStatus)
  /-- A futex call at another address changes the list.  Whom it wakes is not recorded. -/
  | other (t : Fin threads) (waiting : List (Fin threads × BitVec 32))

/-- One access; `none` where the thread has to wait for the mutex. -/
def access (addr : BitVec 32) (s : State threads) (t : Fin threads) : Option (State threads) :=
  match s.place t with
  | .read w => some (s.move t (.unlock { w with readAt := s.signals, oldValue := s.sequenceNumber }))
  | .unlock w =>
    if s.holder = some t then some ({ s with holder := none }.move t (.futexWait w))
    else some (s.move t (.out none))
  | .futexWait w =>
    if s.sequenceNumber = w.oldValue then
      some ({ s with futex := s.futex.after (.wait t addr w.oldValue w.abstimePtr
        ⟨true, some s.sequenceNumber⟩) }.move t (.asleep w))
    else some (s.move t (.relock w false))
  | .relock _ timedOut =>
    if s.holder = none then some ({ s with holder := some t }.move t (.out (some timedOut))) else none
  | .raise broadcast called =>
    some (s.increment.move t (.wake broadcast called s.waiters s.increment.signals))
  | .wake broadcast _ _ _ =>
    some ({ s with futex := s.futex.after (.wake t addr (if broadcast then intMax else 1)) }.move t
      (.out none))
  | .out _ | .asleep _ => none

def step (addr : BitVec 32) (s : State threads) : Event threads → Option (State threads)
  | .lock t =>
    match s.place t with
    | .out _ => if s.holder = none then some ({ s with holder := some t }.move t (.out none)) else none
    | _ => none
  | .unlock t =>
    match s.place t with
    | .out _ => if s.holder = some t then some ({ s with holder := none }.move t (.out none)) else none
    | _ => none
  | .wait t abstimePtr =>
    match s.place t with
    | .out _ =>
      if s.holder = some t then
        some ({ s with calls := Function.update s.calls t (s.calls t + 1) }.move t
          (.read ⟨s.calls t + 1, s.signals, 0, 0, abstimePtr⟩))
      else none
    | _ => none
  | .pulse t broadcast =>
    match s.place t with
    | .out _ => some (s.move t (.raise broadcast s.waiters))
    | _ => none
  | .go t => access addr s t
  | .resume t status =>
    match s.place t with
    | .asleep w =>
      if status = .condvarTimedout → w.abstimePtr ≠ 0 then
        some ({ s with futex := s.futex.after (.resume t status) }.move t
          (.relock w (decide (t ∉ s.futex.woken ∧ status = NaClSyncStatus.condvarTimedout))))
      else none
    | _ => none
  | .other t waiting =>
    match s.place t with
    | .out _ =>
      if on waiting addr = on s.futex.waiting addr then
        some ({ s with futex := { s.futex with waiting := waiting } }.move t (.out none))
      else none
    | _ => none

/-! ## The queue -/

section Queue

variable {q : Queue threads} {addr : BitVec 32} {t : Fin threads}

theorem on_wait {value abstimePtr : BitVec 32} {copyIn : Futex.CopyIn}
    (waits : Waits value abstimePtr copyIn) :
    on (q.after (.wait t addr value abstimePtr copyIn)).waiting addr = on q.waiting addr ++ [t] := by
  simp [Queue.after, waits, on]

theorem wakes_eq (n : Nat) : wakes q.waiting addr n = (on q.waiting addr).take n := by
  simp [wakes, on, List.map_take]

theorem on_without (gone : List (Fin threads)) :
    on (without q.waiting gone) addr = (on q.waiting addr).filter (· ∉ gone) := by
  simp [on, without, List.filter_filter, List.filter_map, Function.comp_def, Bool.and_comm]

end Queue

/-- The sleepers are queued in the order of what they have read. -/
structure Queued (addr : BitVec 32) (futex : Queue threads) (place : Fin threads → Place threads) : Prop where
  members : ∀ u, u ∈ on futex.waiting addr ↔ (place u).sleeping.isSome ∧ u ∉ futex.woken
  woken : ∀ u ∈ futex.woken, (place u).sleeping.isSome
  nodup : (on futex.waiting addr).Nodup
  sorted : (on futex.waiting addr).Pairwise fun u v => (place u).readAt ≤ (place v).readAt

namespace Queued

variable {addr : BitVec 32} {futex : Queue threads} {place : Fin threads → Place threads} {t : Fin threads}
  {next : Place threads}

/-- A thread that was not asleep goes to a place where it is not. -/
theorem plain (queued : Queued addr futex place) (awake : (place t).sleeping = none)
    (stays : next.sleeping = none) : Queued addr futex (Function.update place t next) where
  members := fun u => by
    rw [queued.members, Function.update_apply]
    split
    · next same => simp [same, awake, stays]
    · rfl
  woken := fun u woken => by
    have asleep := queued.woken u woken
    rwa [Function.update_of_ne]
    rintro rfl
    simp [awake] at asleep
  nodup := queued.nodup
  sorted := by
    apply queued.sorted.imp_of_mem
    intro u v first second ordered
    rwa [Function.update_of_ne, Function.update_of_ne]
    · rintro rfl
      simp [queued.members, awake] at second
    · rintro rfl
      simp [queued.members, awake] at first

theorem not_woken (queued : Queued addr futex place) (awake : (place t).sleeping = none) :
    t ∉ futex.woken := fun woken => by
  have asleep := queued.woken t woken
  simp [awake] at asleep

theorem not_on (queued : Queued addr futex place) (awake : (place t).sleeping = none) :
    t ∉ on futex.waiting addr := by
  simp [queued.members, awake]

theorem enqueue (queued : Queued addr futex place) {w : Wait} (awake : (place t).sleeping = none)
    {value abstimePtr : BitVec 32} {copyIn : Futex.CopyIn} (waits : Waits value abstimePtr copyIn)
    (last : ∀ u, (place u).readAt ≤ w.readAt) :
    Queued addr (futex.after (.wait t addr value abstimePtr copyIn))
      (Function.update place t (.asleep w)) := by
  have woken : (futex.after (.wait t addr value abstimePtr copyIn)).woken = futex.woken := by
    simp [Queue.after, waits]
  refine ⟨fun u => ?_, fun u gone => ?_, ?_, ?_⟩
  · rw [on_wait waits, woken, List.mem_append, List.mem_singleton, queued.members, Function.update_apply]
    split
    · next same => simp [same, Place.sleeping, queued.not_woken awake]
    · next other => simp [other]
  · rw [woken] at gone
    rw [Function.update_apply]
    split
    · rfl
    · exact queued.woken u gone
  · rw [on_wait waits]
    exact queued.nodup.append (List.nodup_singleton t)
      (List.disjoint_singleton.mpr (queued.not_on awake))
  · have others : ∀ u ∈ on futex.waiting addr, Function.update place t (.asleep w) u = place u := by
      intro u member
      apply Function.update_of_ne
      rintro rfl
      exact queued.not_on awake member
    rw [on_wait waits]
    apply List.pairwise_append.mpr
    refine ⟨?_, List.pairwise_singleton .., fun u first v second => ?_⟩
    · apply queued.sorted.imp_of_mem
      intro u v first second ordered
      rwa [others u first, others v second]
    · rw [List.mem_singleton.mp second, others u first, Function.update_self]
      exact last u

/-- The first of those that wait on the address go. -/
theorem wake (queued : Queued addr futex place) (n : BitVec 32) :
    Queued addr (futex.after (.wake t addr n)) place := by
  have left : on (futex.after (.wake t addr n)).waiting addr =
      (on futex.waiting addr).filter (· ∉ (on futex.waiting addr).take n.toNat) := by
    rw [← wakes_eq]
    exact on_without _
  have woken : ∀ u, u ∈ (futex.after (.wake t addr n)).woken ↔
      u ∈ futex.woken ∨ u ∈ (on futex.waiting addr).take n.toNat := by
    intro u
    rw [← wakes_eq]
    simp [Queue.after]
  refine ⟨fun u => ?_, fun u gone => ?_, ?_, ?_⟩
  · rw [left, woken, List.mem_filter, queued.members]
    simp only [decide_eq_true_eq]
    tauto
  · rcases (woken u).mp gone with before | now
    · exact queued.woken u before
    · exact ((queued.members u).mp (List.mem_of_mem_take now)).1
  · rw [left]
    exact queued.nodup.filter _
  · rw [left]
    exact queued.sorted.filter _

theorem resume (queued : Queued addr futex place) {status : NaClSyncStatus} (stays : next.sleeping = none) :
    Queued addr (futex.after (.resume t status)) (Function.update place t next) := by
  have left : on (futex.after (.resume t status)).waiting addr = (on futex.waiting addr).filter (· ∉ [t]) :=
    on_without _
  have others : ∀ u ∈ on (futex.after (.resume t status)).waiting addr,
      Function.update place t next u = place u := by
    intro u member
    rw [left, List.mem_filter] at member
    apply Function.update_of_ne
    simpa using member.2
  refine ⟨fun u => ?_, fun u woken => ?_, ?_, ?_⟩
  · rw [left, List.mem_filter, queued.members, Function.update_apply]
    split
    · next same => simp [same, stays]
    · next other => simp [Queue.after, other]
  · simp only [Queue.after, Finset.mem_erase] at woken
    rw [Function.update_of_ne woken.1]
    exact queued.woken u woken.2
  · rw [left]
    exact queued.nodup.filter _
  · rw [left] at others ⊢
    apply (queued.sorted.filter _).imp_of_mem
    intro u v first second ordered
    rwa [others u first, others v second]

end Queued

/-! ## What a thread knows -/

namespace State

/-- The wait `n` of `u` has released the mutex, and has read before signal `k`, if it is not over. -/
def Released (s : State threads) (u : Fin threads) (n k : Nat) : Prop :=
  n ≤ s.calls u ∧ (s.calls u = n →
    (s.place u).holding = false ∧ ∀ w, (s.place u).released = some w → w.readAt < k)

/-- `u` is in the wait `w`. -/
structure InWait (s : State threads) (u : Fin threads) (w : Wait) : Prop where
  number : w.number = s.calls u
  started : w.startedAt ≤ s.signals
  few : s.signals - w.startedAt < 2 ^ 32

structure HasRead (s : State threads) (w : Wait) : Prop where
  started : w.startedAt ≤ w.readAt
  read : w.readAt ≤ s.signals
  value : w.oldValue = BitVec.ofNat 32 w.readAt

def Knows (addr : BitVec 32) (s : State threads) (u : Fin threads) : Place threads → Prop
  | .out timedOut => timedOut ≠ none → s.holder = some u
  | .read w => s.holder = some u ∧ s.InWait u w
  | .unlock w => s.holder = some u ∧ s.InWait u w ∧ s.HasRead w
  | .futexWait w | .asleep w => s.InWait u w ∧ s.HasRead w
  | .relock _ _ => True
  | .raise _ called => ∀ v n, called v = some n → s.Released v n (s.signals + 1)
  | .wake _ called raised k =>
    k ≤ s.signals ∧ (∀ v n, called v = some n ∨ raised v = some n → s.Released v n k) ∧
      ∀ v ∈ on s.futex.waiting addr, (s.place v).readAt < k → raised v = some (s.calls v)

/-- A step of `t` from `s` to `s'`. -/
structure Moved (addr : BitVec 32) (s s' : State threads) (t : Fin threads) : Prop where
  place : ∀ u, u ≠ t → s'.place u = s.place u
  holder : ∀ u, u ≠ t → s.holder = some u → s'.holder = some u
  calls : ∀ u, u ≠ t → s'.calls u = s.calls u
  signals : s.signals ≤ s'.signals
  few : ∀ u w, u ≠ t → (s.place u).wait = some w → s.signals - w.startedAt < 2 ^ 32 →
    s'.signals - w.startedAt < 2 ^ 32
  /-- A later wait, or the same one, that releases the mutex only once, and sleeps only if it has read last. -/
  goes : s'.calls t = s.calls t + 1 ∨ s'.calls t = s.calls t ∧ ((s.place t).holding = true ∨
    (s'.place t).holding = false ∧ (∀ w, s'.place t ≠ .futexWait w) ∧
      ∀ w, s'.place t = .asleep w → s.place t = .futexWait w ∧ s.signals ≤ w.readAt)
  woken : ∀ u, u ≠ t → u ∈ s.futex.woken → u ∈ s'.futex.woken
  /-- Who comes to the queue has read last. -/
  queue : ∀ v ∈ on s'.futex.waiting addr, s.signals ≤ (s'.place v).readAt ∨
    v ∈ on s.futex.waiting addr ∧ v ≠ t

variable {u : Fin threads} {s : State threads}

theorem Moved.released {addr : BitVec 32} {s' : State threads} {t : Fin threads} {n k : Nat}
    (moved : Moved addr s s' t) (before : s.Released u n k) : s'.Released u n k := by
  by_cases same : u = t
  · subst same
    rcases moved.goes with later | ⟨calls, holding | ⟨past, awake, sleeps⟩⟩
    · refine ⟨?_, fun now => ?_⟩
      · have le := before.1
        omega
      · have le := before.1
        omega
    · refine ⟨by rw [calls]; exact before.1, fun now => ?_⟩
      have out := (before.2 (calls ▸ now)).1
      rw [holding] at out
      cases out
    · refine ⟨by rw [calls]; exact before.1, fun now => ⟨past, fun w released => ?_⟩⟩
      apply (before.2 (calls ▸ now)).2 w
      rcases Place.released_iff.mp released with still | asleep
      · exact absurd still (awake w)
      · exact Place.released_iff.mpr (.inl (sleeps w asleep).1)
  · unfold Released
    rw [moved.calls u same, moved.place u same]
    exact before

theorem Released.mono {n k k' : Nat} (before : s.Released u n k) (le : k ≤ k') :
    s.Released u n k' :=
  ⟨before.1, fun now => ⟨(before.2 now).1, fun w released =>
    Nat.lt_of_lt_of_le ((before.2 now).2 w released) le⟩⟩

/-- What another thread than `t` knows. -/
theorem Knows.frame {addr : BitVec 32} {s' : State threads} {t : Fin threads}
    (knows : s.Knows addr u (s.place u)) (moved : Moved addr s s' t) (other : u ≠ t) :
    s'.Knows addr u (s'.place u) := by
  rw [moved.place u other]
  have inWait : ∀ w, (s.place u).wait = some w → s.InWait u w → s'.InWait u w := by
    intro w here inWait
    refine ⟨?_, inWait.started.trans moved.signals, moved.few u w other here inWait.few⟩
    rw [moved.calls u other]
    exact inWait.number
  have hasRead : ∀ w, s.HasRead w → s'.HasRead w := fun w read =>
    ⟨read.started, read.read.trans moved.signals, read.value⟩
  cases here : s.place u with
  | out timedOut =>
    rw [here] at knows
    exact fun back => moved.holder u other (knows back)
  | read w =>
    rw [here] at knows inWait
    exact ⟨moved.holder u other knows.1, inWait w rfl knows.2⟩
  | unlock w =>
    rw [here] at knows inWait
    exact ⟨moved.holder u other knows.1, inWait w rfl knows.2.1, hasRead w knows.2.2⟩
  | futexWait w =>
    rw [here] at knows inWait
    exact ⟨inWait w rfl knows.1, hasRead w knows.2⟩
  | asleep w =>
    rw [here] at knows inWait
    exact ⟨inWait w rfl knows.1, hasRead w knows.2⟩
  | relock w timedOut => trivial
  | raise broadcast called =>
    rw [here] at knows
    intro v n target
    exact (moved.released (knows v n target)).mono (Nat.succ_le_succ moved.signals)
  | wake broadcast called raised k =>
    rw [here] at knows
    obtain ⟨le, released, cover⟩ := knows
    refine ⟨le.trans moved.signals, fun v n target => moved.released (released v n target), ?_⟩
    intro v member early
    rcases moved.queue v member with late | ⟨before, notSelf⟩
    · omega
    · rw [moved.place v notSelf] at early
      rw [moved.calls v notSelf]
      exact cover v before early

end State

structure Inv (addr : BitVec 32) (s : State threads) : Prop where
  sequence : s.sequenceNumber = BitVec.ofNat 32 s.signals
  knows : ∀ u, s.Knows addr u (s.place u)
  queued : Queued addr s.futex s.place

section Step

variable {addr : BitVec 32} {s s' : State threads} {t : Fin threads} {next : Place threads}

theorem Inv.init : Inv addr (State.init : State threads) where
  sequence := rfl
  knows := fun u => fun back => absurd rfl back
  queued := by
    refine ⟨fun u => ?_, fun u woken => ?_, List.nodup_nil, List.Pairwise.nil⟩
    · simp [State.init, Queue.empty, on, Place.sleeping]
    · simp [State.init, Queue.empty] at woken

structure Steps (addr : BitVec 32) (s s' : State threads) (t : Fin threads) : Prop where
  moved : s.Moved addr s' t
  inv : Inv addr s'

theorem Inv.moved (inv : Inv addr s) (moved : s.Moved addr s' t)
    (sequence : s'.sequenceNumber = BitVec.ofNat 32 s'.signals) (knows : s'.Knows addr t (s'.place t))
    (queued : Queued addr s'.futex s'.place) : Steps addr s s' t where
  moved := moved
  inv := by
    refine ⟨sequence, fun u => ?_, queued⟩
    by_cases same : u = t
    · rw [same]
      exact knows
    · exact (inv.knows u).frame moved same

variable {holder : Option (Fin threads)}

/-- Between places where `t` does not sleep, with nothing changed but the holder. -/
theorem Inv.goes_moved (inv : Inv addr s) (awake : (s.place t).sleeping = none)
    (stays : next.sleeping = none) (others : ∀ u, u ≠ t → s.holder = some u → holder = some u)
    (goes : (s.place t).holding = true ∨ next.holding = false ∧ ∀ w, next ≠ .futexWait w) :
    s.Moved addr ({ s with holder := holder }.move t next) t where
  place := fun u other => Function.update_of_ne other ..
  holder := others
  calls := fun u _ => rfl
  signals := Nat.le_refl _
  few := fun u w _ _ few => few
  goes := by
    right
    simp only [State.move, Function.update_self, true_and]
    apply goes.imp_right
    intro plain
    refine ⟨plain.1, plain.2, ?_⟩
    rintro w rfl
    cases stays
  woken := fun u _ => id
  queue := fun v member => by
    right
    refine ⟨member, ?_⟩
    rintro rfl
    exact inv.queued.not_on awake member

theorem Inv.goes (inv : Inv addr s) (awake : (s.place t).sleeping = none)
    (stays : next.sleeping = none) (others : ∀ u, u ≠ t → s.holder = some u → holder = some u)
    (goes : (s.place t).holding = true ∨ next.holding = false ∧ ∀ w, next ≠ .futexWait w)
    (knows : ({ s with holder := holder }.move t next).Knows addr t next) :
    Steps addr s ({ s with holder := holder }.move t next) t := by
  apply inv.moved (inv.goes_moved awake stays others goes) inv.sequence
  · simp only [State.move, Function.update_self]
    exact knows
  · exact inv.queued.plain awake stays

/-- A futex call, and `t` goes on from outside the mutex. -/
theorem moved_futex {futex : Queue threads}
    (goes : next.holding = false ∧ (∀ w, next ≠ .futexWait w) ∧
      ∀ w, next = .asleep w → s.place t = .futexWait w ∧ s.signals ≤ w.readAt)
    (woken : ∀ u, u ≠ t → u ∈ s.futex.woken → u ∈ futex.woken)
    (queue : ∀ v ∈ on futex.waiting addr, s.signals ≤ (Function.update s.place t next v).readAt ∨
      v ∈ on s.futex.waiting addr ∧ v ≠ t) :
    s.Moved addr ({ s with futex := futex }.move t next) t where
  place := fun u other => Function.update_of_ne other ..
  holder := fun u _ => id
  calls := fun u _ => rfl
  signals := Nat.le_refl _
  few := fun u w _ _ few => few
  goes := by
    right
    simp only [State.move, Function.update_self, true_and]
    exact .inr goes
  woken := woken
  queue := queue

/-- The waits for which the number of signals stays below 2^32. -/
def Few (s : State threads) : Event threads → Prop
  | .go t => (s.place t).raising = true →
    ∀ u, ∀ w ∈ (s.place u).wait, s.signals + 1 - w.startedAt < 2 ^ 32
  | _ => True

instance (s : State threads) : (e : Event threads) → Decidable (Few s e)
  | .go _ => inferInstanceAs (Decidable (_ → _))
  | .lock _ | .unlock _ | .wait .. | .pulse .. | .resume .. | .other .. => .isTrue trivial

variable {w : Wait} {u : Fin threads}

theorem Inv.hasRead (inv : Inv addr s) (released : (s.place u).released = some w) :
    s.InWait u w ∧ s.HasRead w := by
  have knows := inv.knows u
  cases here : s.place u with
  | futexWait w' =>
    rw [here] at knows released
    cases released
    exact knows
  | asleep w' =>
    rw [here] at knows released
    cases released
    exact knows
  | _ =>
    rw [here] at released
    cases released

theorem Inv.readAt_le (inv : Inv addr s) (u : Fin threads) : (s.place u).readAt ≤ s.signals := by
  cases here : s.place u with
  | asleep w =>
    have hasRead := (inv.hasRead (u := u) (w := w) (by rw [here]; rfl)).2
    exact hasRead.read
  | _ => exact Nat.zero_le _

/-- The futex compares the sequence number, which tells the number of signals as it has not come round. -/
theorem Inv.readAt_eq (inv : Inv addr s) (released : (s.place u).released = some w)
    (same : s.sequenceNumber = w.oldValue) : w.readAt = s.signals := by
  obtain ⟨inWait, hasRead⟩ := inv.hasRead released
  have few := inWait.few
  have started := hasRead.started
  have read := hasRead.read
  rw [inv.sequence, hasRead.value, ← BitVec.toNat_inj] at same
  simp only [BitVec.toNat_ofNat] at same
  omega

theorem Inv.sleep (inv : Inv addr s) (here : s.place t = .futexWait w)
    (same : s.sequenceNumber = w.oldValue) :
    Steps addr s ({ s with futex := s.futex.after (.wait t addr w.oldValue w.abstimePtr
      ⟨true, some s.sequenceNumber⟩) }.move t (.asleep w)) t := by
  have released : (s.place t).released = some w := by
    rw [here]
    rfl
  have awake : (s.place t).sleeping = none := by
    rw [here]
    rfl
  have last := inv.readAt_eq released same
  have waits : Waits w.oldValue w.abstimePtr ⟨true, some s.sequenceNumber⟩ :=
    ⟨fun _ => rfl, congrArg some same⟩
  obtain ⟨inWait, hasRead⟩ := inv.hasRead released
  apply inv.moved
  · apply moved_futex
    · refine ⟨rfl, by simp, ?_⟩
      rintro w' ⟨rfl⟩
      exact ⟨here, last.ge⟩
    · intro u _ woken
      simpa [Queue.after, waits] using woken
    · intro v member
      rw [on_wait waits, List.mem_append, List.mem_singleton] at member
      rcases member with before | rfl
      · right
        refine ⟨before, ?_⟩
        rintro rfl
        exact inv.queued.not_on awake before
      · left
        rw [Function.update_self]
        exact last.ge
  · exact inv.sequence
  · simp only [State.move, Function.update_self]
    exact ⟨⟨inWait.number, inWait.started, inWait.few⟩, hasRead.started, hasRead.read, hasRead.value⟩
  · apply inv.queued.enqueue awake waits
    intro u
    rw [last]
    exact inv.readAt_le u

variable {n : Nat}

theorem Inv.waiters (inv : Inv addr s) (waits : s.waiters u = some n) :
    s.Released u n (s.signals + 1) := by
  unfold State.waiters at waits
  split at waits
  · cases waits
  · obtain ⟨w, released, rfl⟩ := Option.map_eq_some_iff.mp waits
    obtain ⟨inWait, hasRead⟩ := inv.hasRead released
    refine ⟨inWait.number.le, fun _ => ⟨?_, fun w' released' => ?_⟩⟩
    · cases here : s.place u <;> rw [here] at released <;> first | rfl | cases released
    · rw [released] at released'
      cases released'
      exact Nat.lt_succ_of_le hasRead.read

theorem Inv.waiters_of_on (inv : Inv addr s) (member : u ∈ on s.futex.waiting addr) :
    s.waiters u = some (s.calls u) := by
  obtain ⟨asleep, notWoken⟩ := (inv.queued.members u).mp member
  cases here : s.place u with
  | asleep w =>
    have inWait := (inv.hasRead (u := u) (w := w) (by rw [here]; rfl)).1
    rw [State.waiters, if_neg notWoken, here, ← inWait.number]
    rfl
  | _ =>
    rw [here] at asleep
    cases asleep

variable {called : Waiters threads}

theorem Inv.raise (inv : Inv addr s) {broadcast : Bool} (here : s.place t = .raise broadcast called)
    (few : Few s (.go t)) :
    Steps addr s (s.increment.move t (.wake broadcast called s.waiters s.increment.signals)) t := by
  have knows := inv.knows t
  rw [here] at knows
  have few := few (by rw [here]; rfl)
  have awake : (s.place t).sleeping = none := by
    rw [here]
    rfl
  have moved : s.Moved addr
      (s.increment.move t (.wake broadcast called s.waiters s.increment.signals)) t := by
    refine ⟨fun u other => Function.update_of_ne other .., fun u _ => id, fun u _ => rfl, Nat.le_succ _,
      fun u w _ inside _ => few u w inside, .inr ⟨rfl, .inr ?_⟩, fun u _ => id,
      fun v member => .inr ⟨member, ?_⟩⟩
    · simp [State.move, Place.holding]
    · rintro rfl
      exact inv.queued.not_on awake member
  apply inv.moved moved
  · simp only [State.move, State.increment, inv.sequence, BitVec.ofNat_add]
    rfl
  · simp only [State.move, Function.update_self]
    refine ⟨Nat.le_refl _, fun v n target => ?_, fun v member _ => inv.waiters_of_on member⟩
    rcases target with before | now
    · exact moved.released (knows v n before)
    · exact moved.released (inv.waiters now)
  · apply inv.queued.plain awake
    rfl

theorem Inv.wake (inv : Inv addr s) {broadcast : Bool} {raised : Waiters threads} {k : Nat}
    (here : s.place t = .wake broadcast called raised k) (n : BitVec 32) :
    Steps addr s ({ s with futex := s.futex.after (.wake t addr n) }.move t (.out none)) t := by
  have awake : (s.place t).sleeping = none := by
    rw [here]
    rfl
  have left : Queued addr (s.futex.after (.wake t addr n)) s.place := inv.queued.wake n
  apply inv.moved
  · apply moved_futex
    · simp [Place.holding]
    · intro u _ woken
      simp [Queue.after, woken]
    · intro v member
      right
      refine ⟨List.mem_of_mem_filter ((on_without _).symm ▸ member), ?_⟩
      rintro rfl
      exact left.not_on awake member
  · exact inv.sequence
  · simp only [State.move, Function.update_self]
    exact fun back => absurd rfl back
  · apply left.plain awake
    rfl

theorem Inv.access (inv : Inv addr s) (few : Few s (.go t)) (stepped : access addr s t = some s') :
    Steps addr s s' t := by
  have knows := inv.knows t
  unfold CondVar.access at stepped
  cases here : s.place t with
  | out timedOut =>
    rw [here] at stepped
    cases stepped
  | asleep w =>
    rw [here] at stepped
    cases stepped
  | read w =>
    rw [here] at stepped knows
    cases stepped
    obtain ⟨holds, inWait⟩ := knows
    apply inv.goes
    · simp [here, Place.sleeping]
    · rfl
    · exact fun u _ => id
    · simp [here, Place.holding]
    · exact ⟨holds, ⟨inWait.number, inWait.started, inWait.few⟩, inWait.started, Nat.le_refl _, inv.sequence⟩
  | unlock w =>
    rw [here] at stepped knows
    obtain ⟨holds, inWait, hasRead⟩ := knows
    simp only [holds, if_true] at stepped
    cases stepped
    apply inv.goes
    · simp [here, Place.sleeping]
    · rfl
    · intro u other holder
      rw [holds] at holder
      exact absurd (Option.some.inj holder).symm other
    · simp [here, Place.holding]
    · exact ⟨⟨inWait.number, inWait.started, inWait.few⟩, hasRead.started, hasRead.read, hasRead.value⟩
  | futexWait w =>
    rw [here] at stepped
    dsimp only at stepped
    split at stepped
    · next same =>
      cases stepped
      exact inv.sleep here same
    · cases stepped
      apply inv.goes
      · simp [here, Place.sleeping]
      · rfl
      · exact fun u _ => id
      · right
        simp [Place.holding]
      · trivial
  | relock w timedOut =>
    rw [here] at stepped
    dsimp only at stepped
    split at stepped
    · next free =>
      cases stepped
      apply inv.goes
      · simp [here, Place.sleeping]
      · rfl
      · intro u _ holder
        rw [free] at holder
        cases holder
      · right
        simp [Place.holding]
      · exact fun _ => rfl
    · cases stepped
  | raise broadcast called =>
    rw [here] at stepped
    cases stepped
    exact inv.raise here few
  | wake broadcast called raised k =>
    rw [here] at stepped
    cases stepped
    exact inv.wake here _

theorem Inv.resume (inv : Inv addr s) {w : Wait} (status : NaClSyncStatus) (timedOut : Bool) :
    Steps addr s ({ s with futex := s.futex.after (.resume t status) }.move t (.relock w timedOut)) t := by
  have left : Queued addr (s.futex.after (.resume t status))
      (Function.update s.place t (.relock w timedOut)) := inv.queued.resume rfl
  apply inv.moved
  · apply moved_futex
    · simp [Place.holding]
    · intro u other woken
      simp [Queue.after, woken, other]
    · intro v member
      right
      have stays : v ∈ (on s.futex.waiting addr).filter (· ∉ [t]) := (on_without _) ▸ member
      simpa using stays
  · exact inv.sequence
  · simp only [State.move, Function.update_self]
    trivial
  · exact left

/-- Other users of the futex leave the queue as it is. -/
theorem Inv.other (inv : Inv addr s) {waiting : List (Fin threads × BitVec 32)}
    (awake : (s.place t).sleeping = none) (same : on waiting addr = on s.futex.waiting addr) :
    Steps addr s ({ s with futex := { s.futex with waiting := waiting } }.move t (.out none)) t := by
  apply inv.moved
  · apply moved_futex
    · simp [Place.holding]
    · exact fun u _ => id
    · intro v member
      right
      have before : v ∈ on s.futex.waiting addr := same ▸ member
      refine ⟨before, ?_⟩
      rintro rfl
      exact inv.queued.not_on awake before
  · exact inv.sequence
  · simp only [State.move, Function.update_self]
    exact fun back => absurd rfl back
  · have still : Queued addr { s.futex with waiting := waiting } s.place := by
      refine ⟨fun u => ?_, inv.queued.woken, ?_, ?_⟩
      · rw [same]
        exact inv.queued.members u
      · rw [same]
        exact inv.queued.nodup
      · rw [same]
        exact inv.queued.sorted
    exact still.plain awake rfl

theorem Inv.step (inv : Inv addr s) {e : Event threads} (few : Few s e)
    (stepped : step addr s e = some s') : ∃ t, Steps addr s s' t := by
  cases e with
  | lock t =>
    simp only [CondVar.step] at stepped
    split at stepped
    · next timedOut here =>
      split at stepped
      · next free =>
        cases stepped
        refine ⟨t, ?_⟩
        apply inv.goes
        · simp [here, Place.sleeping]
        · rfl
        · intro u _ holder
          rw [free] at holder
          cases holder
        · right
          simp [Place.holding]
        · exact fun _ => rfl
      · cases stepped
    · cases stepped
  | unlock t =>
    simp only [CondVar.step] at stepped
    split at stepped
    · next timedOut here =>
      split at stepped
      · next holds =>
        cases stepped
        refine ⟨t, ?_⟩
        apply inv.goes
        · simp [here, Place.sleeping]
        · rfl
        · intro u other holder
          rw [holds] at holder
          exact absurd (Option.some.inj holder).symm other
        · right
          simp [Place.holding]
        · exact fun back => absurd rfl back
      · cases stepped
    · cases stepped
  | wait t abstimePtr =>
    simp only [CondVar.step] at stepped
    split at stepped
    · next timedOut here =>
      have awake : (s.place t).sleeping = none := by
        rw [here]
        rfl
      split at stepped
      · next holds =>
        cases stepped
        refine ⟨t, ?_⟩
        apply inv.moved
        · refine ⟨fun u other => Function.update_of_ne other .., fun u _ => id,
            fun u other => Function.update_of_ne other .., Nat.le_refl _, fun u w _ _ few => few, .inl ?_,
            fun u _ => id, fun v member => .inr ⟨member, ?_⟩⟩
          · exact Function.update_self ..
          · rintro rfl
            exact inv.queued.not_on awake member
        · exact inv.sequence
        · simp only [State.move, Function.update_self]
          refine ⟨holds, ?_, Nat.le_refl _, ?_⟩
          · simp
          · simp
        · exact inv.queued.plain awake rfl
      · cases stepped
    · cases stepped
  | pulse t broadcast =>
    simp only [CondVar.step] at stepped
    split at stepped
    · next timedOut here =>
      cases stepped
      have awake : (s.place t).sleeping = none := by
        rw [here]
        rfl
      have moved : s.Moved addr (s.move t (.raise broadcast s.waiters)) t :=
        inv.goes_moved awake rfl (fun u _ => id) (.inr ⟨rfl, by simp⟩)
      refine ⟨t, ?_⟩
      apply inv.moved moved inv.sequence
      · simp only [State.move, Function.update_self]
        exact fun v n waits => moved.released (inv.waiters waits)
      · exact inv.queued.plain awake rfl
    · cases stepped
  | go t => exact ⟨t, inv.access few stepped⟩
  | resume t status =>
    simp only [CondVar.step] at stepped
    split at stepped
    · split at stepped
      · cases stepped
        exact ⟨t, inv.resume status _⟩
      · cases stepped
    · cases stepped
  | other t waiting =>
    simp only [CondVar.step] at stepped
    split at stepped
    · next timedOut here =>
      split at stepped
      · next same =>
        cases stepped
        refine ⟨t, ?_⟩
        apply inv.other _ same
        rw [here]
        rfl
      · cases stepped
    · cases stepped

/-! ## A wait that is woken -/

/-- The wait `n` of `u` is over, or it is woken, or it is yet to find that it has read too early to sleep. -/
def State.Past (s : State threads) (u : Fin threads) (n : Nat) : Prop :=
  n ≤ s.calls u ∧ (s.calls u = n → (s.place u).holding = false ∧
    (∀ w, s.place u = .futexWait w → w.readAt < s.signals) ∧
    ∀ w, s.place u = .asleep w → u ∈ s.futex.woken)

theorem State.Moved.past (moved : s.Moved addr s' t) (past : s.Past u n) : s'.Past u n := by
  obtain ⟨le, past⟩ := past
  by_cases same : u = t
  · subst same
    rcases moved.goes with later | ⟨calls, goes⟩
    · exact ⟨by omega, fun now => by omega⟩
    · refine ⟨by omega, fun now => ?_⟩
      obtain ⟨out, early, woken⟩ := past (calls ▸ now)
      rcases goes with holding | ⟨out', awake, sleeps⟩
      · rw [holding] at out
        cases out
      · refine ⟨out', fun w here => absurd here (awake w), fun w here => ?_⟩
        obtain ⟨before, last⟩ := sleeps w here
        have read := early w before
        omega
  · unfold State.Past
    rw [moved.calls u same, moved.place u same]
    refine ⟨le, fun now => ?_⟩
    obtain ⟨out, early, woken⟩ := past now
    refine ⟨out, fun w here => ?_, fun w here => moved.woken u same (woken w here)⟩
    exact Nat.lt_of_lt_of_le (early w here) moved.signals

/-- A wait that the raise of the number comes after is past it, or in the queue. -/
theorem Inv.past_or_on (inv : Inv addr s) {k : Nat} (released : s.Released u n k)
    (le : k ≤ s.signals) : s.Past u n ∨ s.calls u = n ∧ u ∈ on s.futex.waiting addr := by
  by_cases queued : s.calls u = n ∧ u ∈ on s.futex.waiting addr
  · exact .inr queued
  · left
    refine ⟨released.1, fun now => ?_⟩
    obtain ⟨out, early⟩ := released.2 now
    refine ⟨out, fun w here => ?_, fun w here => ?_⟩
    · have read := early w (Place.released_iff.mpr (.inl here))
      omega
    · by_contra awake
      apply queued
      refine ⟨now, (inv.queued.members u).mpr ⟨?_, awake⟩⟩
      rw [here]
      rfl

theorem Inv.past_of_woken (inv : Inv addr s) (woken : u ∈ s.futex.woken) (le : n ≤ s.calls u) :
    s.Past u n := by
  have asleep := inv.queued.woken u woken
  refine ⟨le, fun _ => ⟨?_, fun w here => ?_, fun _ _ => woken⟩⟩
  · cases here : s.place u <;> rw [here] at asleep <;> first | rfl | cases asleep
  · rw [here] at asleep
    cases asleep

end Step

/-- The thread has not been woken since it went to sleep here. -/
def State.asleep (s : State threads) (u : Fin threads) : Prop :=
  (s.place u).sleeping.isSome ∧ u ∉ s.futex.woken

/-- However the run goes on, `u` does not sleep in its wait `n`. -/
def State.StaysAwake (addr : BitVec 32) (s : State threads) (u : Fin threads) (n : Nat) : Prop :=
  ∀ more s', (∀ pre e, pre ++ [e] <+: more → ∀ v, pre.foldlM (step addr) s = some v → Few v e) →
    more.foldlM (step addr) s = some s' → ¬ (s'.calls u = n ∧ s'.asleep u)

section Runs

variable {addr : BitVec 32} {s s' : State threads} {t u : Fin threads} {n k : Nat}

theorem Inv.staysAwake (inv : Inv addr s) (past : s.Past u n) : s.StaysAwake addr u n := by
  intro more s' few run
  have final : Inv addr s' ∧ s'.Past u n := @foldlM_invariant _ _ (CondVar.step addr)
    (fun s => Inv addr s ∧ s.Past u n) Few
    (fun s e s' both few stepped => by
      obtain ⟨t, steps⟩ := both.1.step few stepped
      exact ⟨steps.inv, steps.moved.past both.2⟩) more s s' ⟨inv, past⟩ few run
  rintro ⟨now, asleep, awake⟩
  obtain ⟨-, -, woken⟩ := final.2.2 now
  cases here : s'.place u with
  | asleep w => exact awake (woken w here)
  | _ =>
    rw [here] at asleep
    cases asleep

theorem woken_of_take {count : BitVec 32} {place : Place threads}
    (first : u ∈ (on s.futex.waiting addr).take count.toNat) :
    u ∈ ({ s with futex := s.futex.after (.wake t addr count) }.move t place).futex.woken := by
  rw [← wakes_eq] at first
  simp [State.move, Queue.after, first]

variable {called raised : Waiters threads}

/-- A signal is for some wait: it leaves one of those that it is for awake. -/
theorem Inv.signal (inv : Inv addr s) {broadcast : Bool}
    (here : s.place t = .wake broadcast called raised k) (target : raised u = some n) :
    ∃ u n, raised u = some n ∧
      ({ s with futex := s.futex.after (.wake t addr 1) }.move t (.out none)).Past u n := by
  have knows := inv.knows t
  rw [here] at knows
  obtain ⟨le, released, cover⟩ := knows
  have steps := inv.wake here 1
  rcases inv.past_or_on (released u n (.inr target)) le with past | ⟨now, member⟩
  · exact ⟨u, n, target, steps.moved.past past⟩
  -- who is first in the queue has read no later
  obtain ⟨v, rest, queue⟩ := List.exists_cons_of_ne_nil (List.ne_nil_of_mem member)
  have first : v ∈ on s.futex.waiting addr := by simp [queue]
  have read : (s.place v).readAt ≤ (s.place u).readAt := by
    have sorted := inv.queued.sorted
    rw [queue] at sorted member
    rcases List.mem_cons.mp member with same | later
    · rw [same]
    · exact List.rel_of_pairwise_cons sorted later
  have early : (s.place u).readAt < k := by
    have asleep := ((inv.queued.members u).mp member).1
    cases at_u : s.place u with
    | asleep w => exact ((released u n (.inr target)).2 now).2 w (Place.released_iff.mpr (.inr at_u))
    | _ =>
      rw [at_u] at asleep
      cases asleep
  refine ⟨v, s.calls v, cover v first (Nat.lt_of_le_of_lt read early), ?_⟩
  apply steps.inv.past_of_woken
  · apply woken_of_take
    simp [queue]
  · exact Nat.le_refl _

theorem Inv.broadcast (inv : Inv addr s) (few : threads ≤ intMax.toNat) {broadcast : Bool}
    (here : s.place t = .wake broadcast called raised k) (target : called u = some n) :
    ({ s with futex := s.futex.after (.wake t addr intMax) }.move t (.out none)).Past u n := by
  have knows := inv.knows t
  rw [here] at knows
  obtain ⟨le, released, -⟩ := knows
  have steps := inv.wake here intMax
  rcases inv.past_or_on (released u n (.inl target)) le with past | ⟨now, member⟩
  · exact steps.moved.past past
  · apply steps.inv.past_of_woken
    · apply woken_of_take
      rw [List.take_of_length_le]
      · exact member
      · have bound := inv.queued.nodup.length_le_card
        rw [Fintype.card_fin] at bound
        omega
    · exact now.ge

/-- In every state of every run, with fewer than 2^32 signals in any wait. -/
theorem condVar_runs (many : threads ≤ intMax.toNat) {events : List (Event threads)} {s : State threads}
    (few : ∀ pre e, pre ++ [e] <+: events → ∀ v, pre.foldlM (step addr) State.init = some v → Few v e)
    (run : events.foldlM (step addr) State.init = some s) :
    (∀ t timedOut, s.place t = .out (some timedOut) → s.holder = some t) ∧
      ∀ t broadcast s', (s.place t).waking = some broadcast → step addr s (.go t) = some s' →
        (broadcast = false → (∃ u n, (s.place t).raisedFor u = some n) →
          ∃ u n, (s.place t).raisedFor u = some n ∧ s'.StaysAwake addr u n) ∧
        (broadcast = true → ∀ u n, (s.place t).calledFor u = some n → s'.StaysAwake addr u n) := by
  have inv : Inv addr s := @foldlM_invariant _ _ (step addr) (Inv addr) Few
    (fun s e s' inv few stepped => by
      obtain ⟨t, steps⟩ := inv.step few stepped
      exact steps.inv) events _ s Inv.init few run
  refine ⟨fun t timedOut back => ?_, fun t broadcast s' waking stepped => ?_⟩
  · have knows := inv.knows t
    rw [back] at knows
    exact knows (by simp)
  cases here : s.place t with
  | wake broadcast' called raised k =>
    rw [here] at waking
    cases waking
    have steps : Steps _ s s' t := inv.access (by simp [Few, here, Place.raising]) stepped
    simp only [step, access, here, Option.some.injEq] at stepped
    constructor
    · rintro rfl ⟨u, n, target⟩
      obtain ⟨v, m, target', past⟩ := inv.signal here target
      refine ⟨v, m, target', steps.inv.staysAwake ?_⟩
      rw [← stepped]
      exact past
    · rintro rfl u n target
      apply steps.inv.staysAwake
      rw [← stepped]
      exact inv.broadcast many here target
  | _ =>
    rw [here] at waking
    cases waking

end Runs

/-- A thread sleeps when another one signals. -/
def signalSleeper (t u : Fin 2) : List (Event 2) :=
  [.lock t, .wait t 0, .go t, .go t, .go t, .pulse u false, .go u]

theorem condVar_runs_signal : ∃ s s' : State 2,
    (signalSleeper 0 1).foldlM (step 0x20000) State.init = some s ∧ s.asleep 0 ∧
      step 0x20000 s (.go 1) = some s' ∧ s'.StaysAwake 0x20000 0 1 := by
  have seen : ((signalSleeper 0 1).foldlM (step 0x20000) State.init).map (fun s =>
      ((s.place 1).waking, (s.place 1).raisedFor 0, (s.place 1).raisedFor 1,
        decide ((s.place 0).sleeping.isSome ∧ 0 ∉ s.futex.woken), (step 0x20000 s (.go 1)).isSome)) =
      some (some false, some 1, none, true, true) := by decide
  obtain ⟨s, run, here⟩ := Option.map_eq_some_iff.mp seen
  simp only [Prod.mk.injEq, decide_eq_true_eq] at here
  obtain ⟨waking, first, second, asleep, goes⟩ := here
  obtain ⟨s', stepped⟩ := Option.isSome_iff_exists.mp goes
  have met : meets (step 0x20000) Few State.init (signalSleeper 0 1) = true := by decide
  obtain ⟨u, n, target, awake⟩ :=
    ((condVar_runs (by decide) (cond_of_meets met) run).2 1 false s' waking stepped).1 rfl ⟨0, 1, first⟩
  fin_cases u
  · have one : n = 1 := Option.some.inj (target.symm.trans first)
    rw [one] at awake
    exact ⟨s, s', run, asleep, stepped, awake⟩
  · cases target.symm.trans second

/-- Between the call of a signal and its raise of the number, another wait passes the one that it is for. -/
def overtaken (t u v : Fin 3) : List (Event 3) :=
  [.lock u, .wait u 0, .go u, .go u, .pulse t false, .lock v, .wait v 0, .go v, .go v, .go v, .go u, .go t]

/-- Of those that had released the mutex when the signal was called, the signal wakes none. -/
theorem condVar_overtaken : ∃ s s' : State 3,
    (overtaken 0 1 2).foldlM (step 0x20000) State.init = some s ∧ (s.place 0).waking = some false ∧
      (s.place 0).calledFor 1 = some 1 ∧ step 0x20000 s (.go 0) = some s' ∧
      ∀ u n, (s.place 0).calledFor u = some n → s'.calls u = n ∧ s'.asleep u := by
  have seen : ((overtaken 0 1 2).foldlM (step 0x20000) State.init).map (fun s => ((s.place 0).waking,
      [(s.place 0).calledFor 0, (s.place 0).calledFor 1, (s.place 0).calledFor 2],
      (step 0x20000 s (.go 0)).map fun s' =>
        (s'.calls 1, decide ((s'.place 1).sleeping.isSome ∧ 1 ∉ s'.futex.woken)))) =
      some (some false, [none, some 1, none], some (1, true)) := by decide
  obtain ⟨s, run, here⟩ := Option.map_eq_some_iff.mp seen
  simp only [Prod.mk.injEq, List.cons.injEq] at here
  obtain ⟨waking, ⟨zero, one, two, -⟩, after⟩ := here
  obtain ⟨s', stepped, left⟩ := Option.map_eq_some_iff.mp after
  simp only [Prod.mk.injEq, decide_eq_true_eq] at left
  refine ⟨s, s', run, waking, one, stepped, fun u n called => ?_⟩
  fin_cases u
  · cases called.symm.trans zero
  · have same : n = 1 := Option.some.inj (called.symm.trans one)
    exact ⟨left.1.trans same.symm, left.2⟩
  · cases called.symm.trans two

end SandboxTEE.Pthread.CondVar
