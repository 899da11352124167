import Mathlib.Tactic.FinCases
import SandboxTEE.Lib.Handover
import SandboxTEE.Lib.LockWord
import SandboxTEE.Lib.Run

/-! # Mutexes of the pthread library (`nc_mutex.c`)

One mutex and any number of threads.  Each access to one of its fields is one step, and
`futex_wait_abs` and `futex_wake` are one step each.

Who holds the mutex is read off the threads, not off its fields: `depth` counts the locks that a thread has
not yet undone.  The invariant of a thread (`Local`) says what the fields tell about it, and another thread's
step leaves it alone (`Local.frame`).
-/

namespace SandboxTEE.Pthread.Mutex

open SandboxTEE.Lib

inductive Kind where
  | fast
  | recursive
  | errorcheck
deriving DecidableEq

inductive Errno where
  | eperm
  | ebusy
  | einval
  | edeadlk
  | etimedout
deriving DecidableEq

def unlocked : BitVec 32 := 0
def lockedWithoutWaiters : BitVec 32 := 1
def lockedWithWaiters : BitVec 32 := 2

theorem lockedWithWaiters_sub_one : lockedWithWaiters - 1 = lockedWithoutWaiters := by decide

theorem lockedWithoutWaiters_sub_one : lockedWithoutWaiters - 1 = unlocked := by decide

/-- The arguments `try_only` and `abstime`, the latter with the test of its `tv_nsec`. -/
inductive Mode where
  | lock
  | trylock
  | timedlock (valid : Bool)
deriving DecidableEq

/-- What a lock returns at once when another thread holds the mutex. -/
def Mode.refused : Mode → Option Errno
  | .lock => none
  | .trylock => some .ebusy
  | .timedlock valid => if valid then none else some .einval

theorem Mode.refused_ne (mode : Mode) {errno : Errno} (refused : mode.refused = some errno) :
    errno ≠ .eperm := by
  cases mode with
  | lock => cases refused
  | trylock =>
    cases refused
    simp
  | timedlock valid =>
    cases valid with
    | false =>
      cases refused
      simp
    | true => cases refused

/-- Where a thread is: at the access that is next, or outside with what its last call returned. -/
inductive Place where
  | out (errno : Option Errno)
  /-- `mutex->owner_thread_id == self` -/
  | readOwner (mode : Mode)
  /-- `++mutex->recursion_counter` -/
  | recount
  /-- The first exchange, for `LOCKED_WITHOUT_WAITERS`. -/
  | claim (mode : Mode)
  /-- The exchange of `LOCKED_WITHOUT_WAITERS` for `LOCKED_WITH_WAITERS`. -/
  | contend (mode : Mode)
  | futexWait (mode : Mode)
  | asleep (mode : Mode)
  /-- The exchange of `UNLOCKED` for `LOCKED_WITH_WAITERS`. -/
  | reclaim (mode : Mode)
  | setOwner
  | setCount
  /-- `--mutex->recursion_counter` -/
  | uncount
  /-- `pthread_self() != mutex->owner_thread_id` -/
  | checkOwner
  | clearOwner
  | clearCount
  | subtract
  | store
  | wake
deriving DecidableEq

structure PthreadMutex (ι : Type) where
  mutexState : LockWord ι
  ownerThreadId : Option ι
  recursionCounter : BitVec 32
  /-- How often each thread has locked the mutex without having unlocked it. -/
  depth : ι → Nat

/-- After `pthread_mutex_init`. -/
def PthreadMutex.init {ι : Type} : PthreadMutex ι := ⟨LockWord.free, none, 0, fun _ => 0⟩

def mutexLock : Kind → Mode → Place
  | .fast, mode => .claim mode
  | .recursive, mode => .readOwner mode
  | .errorcheck, mode => .readOwner mode

def mutexUnlock : Kind → Place
  | .fast => .subtract
  | .recursive => .uncount
  | .errorcheck => .checkOwner

/-- The top of the loop, with what the exchange has found. -/
def again (mode : Mode) (oldState : BitVec 32) : Place :=
  if oldState = lockedWithWaiters then .futexWait mode else .contend mode

variable {ι : Type} [DecidableEq ι]

def PthreadMutex.recount (m : PthreadMutex ι) (t : ι) (depth : Nat) : PthreadMutex ι :=
  { m with depth := Function.update m.depth t depth }

/-- `mutex_lock_nonrecursive` returns 0 after it has exchanged `UNLOCKED` for `state`. -/
def PthreadMutex.claim (m : PthreadMutex ι) (kind : Kind) (t : ι) (state : BitVec 32) : PthreadMutex ι × Place :=
  let m := { m with mutexState := m.mutexState.store t state }
  if kind = .fast then (m.recount t (m.depth t + 1), .out none) else (m, .setOwner)

def access (kind : Kind) (m : PthreadMutex ι) (t : ι) : Place → PthreadMutex ι × Place
  | .readOwner mode =>
    (m,
      if m.ownerThreadId = some t then
        if kind = .errorcheck then .out (some .edeadlk) else .recount
      else .claim mode)
  | .recount =>
    ({ m with recursionCounter := m.recursionCounter + 1 }.recount t (m.depth t + 1), .out none)
  | .claim mode =>
    if m.mutexState.value = unlocked then m.claim kind t lockedWithoutWaiters
    else (m, mode.refused.elim (again mode m.mutexState.value) fun errno => .out (some errno))
  | .contend mode =>
    ({ m with mutexState := m.mutexState.cmpxchg t lockedWithoutWaiters lockedWithWaiters },
      if m.mutexState.value = unlocked then .reclaim mode else .futexWait mode)
  | .futexWait mode => (m, if m.mutexState.value = lockedWithWaiters then .asleep mode else .reclaim mode)
  | .reclaim mode =>
    if m.mutexState.value = unlocked then m.claim kind t lockedWithWaiters
    else (m, again mode m.mutexState.value)
  | .setOwner => ({ m with ownerThreadId := some t }, .setCount)
  | .setCount => ({ m with recursionCounter := 1 }.recount t (m.depth t + 1), .out none)
  | .uncount =>
    let m := { m with recursionCounter := m.recursionCounter - 1 }
    if m.recursionCounter ≠ 0 then (m.recount t (m.depth t - 1), .out none) else (m, .clearOwner)
  | .checkOwner => (m, if m.ownerThreadId ≠ some t then .out (some .eperm) else .clearOwner)
  | .clearOwner => ({ m with ownerThreadId := none }, .clearCount)
  | .clearCount => ({ m with recursionCounter := 0 }, .subtract)
  | .subtract =>
    let oldState := m.mutexState.value
    let m := { m with mutexState := m.mutexState.store t (oldState - 1) }
    if oldState ≠ lockedWithoutWaiters then
      if oldState = unlocked then (m, .out (some .eperm)) else (m, .store)
    else (m.recount t (m.depth t - 1), .out none)
  | .store =>
    ({ m with mutexState := m.mutexState.store t unlocked }.recount t (m.depth t - 1), .wake)
  | .out errno => (m, .out errno)
  | .asleep mode => (m, .asleep mode)
  | .wake => (m, .wake)

/-! ## Runs -/

structure State (ι : Type) where
  mutex : PthreadMutex ι
  place : ι → Place
  /-- The call that the thread is in, or was in last, has changed who holds the mutex, how often, or what
      the mutex says about it. -/
  changed : ι → Bool

def State.init {ι : Type} : State ι := ⟨PthreadMutex.init, fun _ => .out none, fun _ => false⟩

inductive Event (ι : Type) where
  | lock (t : ι) (mode : Mode)
  /-- By a thread that holds the mutex. -/
  | unlock (t : ι)
  /-- The next access of the call that `t` is in. -/
  | go (t : ι)
  /-- `futex_wake` by `t`: the thread it wakes. -/
  | wake (t : ι) (woken : Option ι)
  /-- `futex_wait_abs` returns without a wake. -/
  | interrupt (t : ι)
  /-- `futex_wait_abs` returns `ETIMEDOUT`. -/
  | timeout (t : ι)

namespace Place

def sleeps : Place → Bool
  | .asleep _ => true
  | _ => false

/-- `futex_wait_abs` returns, and not for the time. -/
def awake : Place → Place
  | .asleep mode => .reclaim mode
  | place => place

end Place

/-- What a lock must leave as it is when it fails. -/
def PthreadMutex.ownership (m : PthreadMutex ι) (t : ι) : Option ι × Option ι × BitVec 32 × Nat :=
  (m.mutexState.holder, m.ownerThreadId, m.recursionCounter, m.depth t)

def State.go (kind : Kind) (s : State ι) (t : ι) (place : Place) : State ι :=
  let after := access kind s.mutex t place
  ⟨after.1, Function.update s.place t after.2, Function.update s.changed t
    (s.changed t || decide (after.1.ownership t ≠ s.mutex.ownership t))⟩

def State.enter (s : State ι) (t : ι) (place : Place) : State ι :=
  { s with place := Function.update s.place t place, changed := Function.update s.changed t false }

/-- The thread that `futex_wake` reaches goes on. -/
def awaken (place : ι → Place) (woken : Option ι) : ι → Place :=
  woken.elim place fun u => Function.update place u (place u).awake

def step [Fintype ι] (kind : Kind) (s : State ι) : Event ι → Option (State ι)
  | .lock t mode =>
    match s.place t with
    | .out _ => some (s.enter t (mutexLock kind mode))
    | _ => none
  | .unlock t =>
    match s.place t with
    | .out _ => if 0 < s.mutex.depth t then some (s.enter t (mutexUnlock kind)) else none
    | _ => none
  | .go t =>
    match s.place t with
    | .out _ | .asleep _ | .wake => none
    | place => some (s.go kind t place)
  | .wake t woken =>
    if s.place t = .wake ∧ Wakes Place.sleeps s.place woken then
      some { s with place := Function.update (awaken s.place woken) t (.out none) }
    else none
  | .interrupt t =>
    match s.place t with
    | .asleep mode => some { s with place := Function.update s.place t (.reclaim mode) }
    | _ => none
  | .timeout t =>
    match s.place t with
    | .asleep (.timedlock _) =>
      some { s with place := Function.update s.place t (.out (some .etimedout)) }
    | _ => none

/-! ## What the fields say about a thread -/

namespace Place

/-- The mutex is exchanged, and the lock is still to return. -/
def claimed : Place → Bool
  | .setOwner => true
  | .setCount => true
  | _ => false

/-- Behind the write of the owner in an unlock. -/
def disowned : Place → Bool
  | .clearCount => true
  | .subtract => true
  | .store => true
  | _ => false

/-- In a lock that has not got the mutex. -/
def locking : Place → Bool
  | .readOwner _ => true
  | .recount => true
  | .claim _ => true
  | .contend _ => true
  | .futexWait _ => true
  | .asleep _ => true
  | .reclaim _ => true
  | _ => false

/-- Another thread may rely on this one: it will issue a wake, or set `LOCKED_WITH_WAITERS`. -/
def minds : Place → Bool
  | .store => true
  | .wake => true
  | .contend _ => true
  | .reclaim _ => true
  | _ => false

/-- What a thread knows at its place, as it is the one thread that changes its own depth. -/
def Knows (kind : Kind) (depth : Nat) : Place → Prop
  | .out errno => errno ≠ some .eperm
  | .readOwner _ => kind ≠ .fast
  | .recount => kind = .recursive ∧ 0 < depth
  | .claim _ | .contend _ | .futexWait _ | .asleep _ | .reclaim _ => kind ≠ .fast → depth = 0
  | .setOwner | .setCount => kind ≠ .fast ∧ depth = 0
  | .uncount => kind = .recursive ∧ 0 < depth
  | .checkOwner => kind = .errorcheck ∧ 0 < depth
  | .clearOwner | .clearCount => kind ≠ .fast ∧ depth = 1
  | .subtract | .store => depth = 1
  | .wake => True

end Place

/-- A recursive mutex counts to here. -/
def Kind.limit : Kind → Nat
  | .recursive => 2 ^ 32
  | _ => 1

structure Local (kind : Kind) (m : PthreadMutex ι) (t : ι) (place : Place) : Prop where
  holder : m.mutexState.holder = some t ↔ 0 < m.depth t ∨ place.claimed = true
  owner : m.ownerThreadId = some t ↔
    (kind ≠ .fast ∧ 0 < m.depth t ∧ place.disowned = false) ∨ place = .setCount
  counter : kind = .recursive → 0 < m.depth t → place.disowned = false → place ≠ .clearOwner →
    m.recursionCounter = BitVec.ofNat 32 (m.depth t)
  nested : m.depth t ≤ kind.limit
  knows : place.Knows kind (m.depth t)

/-- A step of `t` from `m` to `m'`. -/
structure Moved (m m' : PthreadMutex ι) (t : ι) : Prop where
  holder : ∀ u, u ≠ t → (m'.mutexState.holder = some u ↔ m.mutexState.holder = some u)
  owner : ∀ u, u ≠ t → (m'.ownerThreadId = some u ↔ m.ownerThreadId = some u)
  counter : m'.recursionCounter = m.recursionCounter ∨ m.mutexState.holder = some t
  depth : ∀ u, u ≠ t → m'.depth u = m.depth u

omit [DecidableEq ι] in
/-- What `m` says about another thread than the one that moves. -/
theorem Local.frame {kind : Kind} {m m' : PthreadMutex ι} {t u : ι} {place : Place}
    (here : Local kind m u place) (moved : Moved m m' t) (other : u ≠ t) : Local kind m' u place where
  holder := by
    rw [moved.holder u other, moved.depth u other]
    exact here.holder
  owner := by
    rw [moved.owner u other, moved.depth u other]
    exact here.owner
  counter := by
    rw [moved.depth u other]
    intro recursive holds shown before
    cases moved.counter with
    | inl same =>
      rw [same]
      exact here.counter recursive holds shown before
    | inr taken =>
      have mine := here.holder.mpr (.inl holds)
      rw [mine] at taken
      exact absurd (Option.some.inj taken) other
  nested := by
    rw [moved.depth u other]
    exact here.nested
  knows := by
    rw [moved.depth u other]
    exact here.knows

/-- `mutex_state` is of `enum MutexState`. -/
def PthreadMutex.Valid (m : PthreadMutex ι) : Prop :=
  m.mutexState.value = unlocked ∨ m.mutexState.value = lockedWithoutWaiters ∨
    m.mutexState.value = lockedWithWaiters

structure Inv (kind : Kind) (s : State ι) : Prop where
  value : s.mutex.Valid
  thread : ∀ t, Local kind s.mutex t (s.place t)
  minded : Minded Place.sleeps Place.minds (s.mutex.mutexState.value = lockedWithWaiters) s.place
  unchanged : ∀ t, ((s.place t).locking = true ∨ ∃ errno, s.place t = .out (some errno)) →
    s.changed t = false

/-! ## One access -/

/-- What an access of `t` at `place` leaves. -/
structure Sound (kind : Kind) (m : PthreadMutex ι) (t : ι) (place : Place)
    (after : PthreadMutex ι × Place) : Prop where
  value : after.1.Valid
  thread : Local kind after.1 t after.2
  moved : Moved m after.1 t
  minded : after.1.mutexState.value = lockedWithWaiters ∨ after.2.minds = true ∨
    (after.2.sleeps = false ∧ place.minds = false ∧
      (m.mutexState.value = lockedWithWaiters → after.1.mutexState.value = lockedWithWaiters))
  fails : (after.2.locking = true ∨ ∃ errno, after.2 = .out (some errno)) →
    place.locking = true ∧ after.1.ownership t = m.ownership t

variable {kind : Kind} {m : PthreadMutex ι} {t : ι} {place : Place}

omit [DecidableEq ι] in
theorem Moved.refl : Moved m m t :=
  ⟨fun _ _ => Iff.rfl, fun _ _ => Iff.rfl, .inl rfl, fun _ _ => rfl⟩

omit [DecidableEq ι] in
/-- `t` goes on and leaves the mutex as it is. -/
theorem Sound.stay {next : Place} (value : m.Valid) (thread : Local kind m t next)
    (minded : m.mutexState.value = lockedWithWaiters ∨ next.minds = true ∨
      (next.sleeps = false ∧ place.minds = false))
    (fails : (next.locking = true ∨ ∃ errno, next = .out (some errno)) → place.locking = true) :
    Sound kind m t place (m, next) where
  value := value
  thread := thread
  moved := Moved.refl
  minded := by
    rcases minded with contended | minds | ⟨awake, free⟩
    · exact .inl contended
    · exact .inr (.inl minds)
    · exact .inr (.inr ⟨awake, free, id⟩)
  fails := fun failing => ⟨fails failing, rfl⟩

omit [DecidableEq ι] in
theorem Local.idle (here : Local kind m t place) (free : m.mutexState.value = unlocked) :
    m.depth t = 0 ∧ place.claimed = false := by
  have none : m.mutexState.holder = none := m.mutexState.free_iff.mp free
  have outside := here.holder
  rw [none] at outside
  simp at outside
  exact ⟨outside.1, outside.2⟩

/-- A place at which the fields say of `t` whether it holds the mutex, and how often. -/
def Place.plain : Place → Bool
  | .setOwner | .setCount | .clearOwner | .clearCount | .subtract | .store => false
  | _ => true

omit [DecidableEq ι] in
theorem Local.goes {next : Place} (here : Local kind m t place) (plain : place.plain = true)
    (after : next.plain = true ∨ next = .clearOwner) (knows : next.Knows kind (m.depth t)) :
    Local kind m t next := by
  have claimed : next.claimed = place.claimed := by
    cases place <;> cases next <;> simp_all [Place.plain, Place.claimed]
  have disowned : next.disowned = place.disowned := by
    cases place <;> cases next <;> simp_all [Place.plain, Place.disowned]
  have setCount : next = .setCount ↔ place = .setCount := by
    cases place <;> cases next <;> simp_all [Place.plain]
  have clearOwner : place ≠ .clearOwner := by
    rintro rfl
    cases plain
  refine ⟨?_, ?_, fun recursive holds shown _ => ?_, here.nested, knows⟩
  · rw [claimed]
    exact here.holder
  · rw [disowned, setCount]
    exact here.owner
  · rw [disowned] at shown
    exact here.counter recursive holds shown clearOwner

theorem claim_sound (here : Local kind m t place) {state : BitVec 32} {mode : Mode}
    (free : m.mutexState.value = unlocked) (trying : place = .claim mode ∨ place = .reclaim mode)
    (used : state = lockedWithoutWaiters ∨ state = lockedWithWaiters)
    (minded : state = lockedWithWaiters ∨ place.minds = false) :
    Sound kind m t place (m.claim kind t state) := by
  have idle := (here.idle free).1
  have notZero : state ≠ 0 := by
    rintro rfl
    rcases used with zero | zero <;> cases zero
  have notOwner : m.ownerThreadId ≠ some t := by
    rw [Ne, here.owner, idle]
    rcases trying with rfl | rfl <;> simp
  have take := LockWord.Move.take (t := t) (v := state) free notZero
  have holds := take.self.mpr rfl
  have low : ¬ m.mutexState.value = lockedWithWaiters := by
    rw [free]
    decide
  unfold PthreadMutex.claim
  split
  · next fast =>
    refine ⟨.inr used, ?_, ⟨take.other, fun u _ => Iff.rfl, .inl rfl, ?_⟩, ?_, ?_⟩
    · subst fast
      constructor <;> simp [PthreadMutex.recount, idle, notOwner, holds, Place.Knows, Kind.limit]
    · intro u other
      simp [PthreadMutex.recount, Function.update_of_ne other]
    · cases minded with
      | inl contended => exact .inl contended
      | inr free => exact .inr (.inr ⟨rfl, free, fun contended => absurd contended low⟩)
    · simp [Place.locking]
  · next slow =>
    refine ⟨.inr used, ?_, ⟨take.other, fun u _ => Iff.rfl, .inl rfl, fun u _ => rfl⟩, ?_, ?_⟩
    · constructor <;> simp [idle, notOwner, holds, Place.claimed, Place.Knows, slow]
    · cases minded with
      | inl contended => exact .inl contended
      | inr free => exact .inr (.inr ⟨rfl, free, fun contended => absurd contended low⟩)
    · simp [Place.locking]

theorem recount_sound (value : m.Valid)
    (here : Local kind m t .recount) (below : m.depth t < 2 ^ 32) :
    Sound kind m t .recount (access kind m t .recount) := by
  obtain ⟨holder, owner, counter, nested, rfl, held⟩ := here
  have holds := holder.mpr (.inl held)
  have count := counter rfl held rfl (by simp)
  refine ⟨value, ?_, ⟨?_, ?_, .inr holds, ?_⟩, ?_, ?_⟩
  · refine ⟨?_, ?_, ?_, ?_, ?_⟩
    · simpa [access, PthreadMutex.recount] using holds
    · simpa [access, PthreadMutex.recount, Place.disowned] using owner.mpr (by simp [held, Place.disowned])
    · simp [access, PthreadMutex.recount, count, BitVec.ofNat_add]
    · simp only [access, PthreadMutex.recount, Function.update_self, Kind.limit]
      omega
    · simp [access, Place.Knows]
  · exact fun u _ => Iff.rfl
  · exact fun u _ => Iff.rfl
  · intro u other
    simp [access, PthreadMutex.recount, Function.update_of_ne other]
  · simp [access, Place.minds, Place.sleeps, PthreadMutex.recount]
  · simp [access, Place.locking]

theorem uncount_sound (value : m.Valid)
    (here : Local kind m t .uncount) : Sound kind m t .uncount (access kind m t .uncount) := by
  obtain ⟨holder, owner, counter, nested, rfl, held⟩ := here
  have holds := holder.mpr (.inl held)
  have mine := owner.mpr (by simp [held, Place.disowned])
  have count := counter rfl held rfl (by simp)
  simp only [Kind.limit] at nested
  have less : m.recursionCounter - 1 = BitVec.ofNat 32 (m.depth t - 1) := by
    rw [count]
    apply BitVec.eq_of_toNat_eq
    simp
    omega
  have last : m.recursionCounter - 1 = 0 ↔ m.depth t = 1 := by
    rw [less, ← BitVec.toNat_inj]
    simp
    omega
  simp only [access]
  split
  · next more =>
    have above : 0 < m.depth t - 1 := by
      rw [Ne, last] at more
      omega
    refine ⟨value, ⟨?_, ?_, ?_, ?_, ?_⟩, ⟨?_, ?_, .inr holds, ?_⟩, ?_, ?_⟩
    · simp [PthreadMutex.recount, holds, above]
    · simp [PthreadMutex.recount, mine, above, Place.disowned]
    · simpa [PthreadMutex.recount] using fun _ _ => less
    · simp [PthreadMutex.recount, Kind.limit]
      omega
    · simp [Place.Knows]
    · exact fun u _ => Iff.rfl
    · exact fun u _ => Iff.rfl
    · intro u other
      simp [PthreadMutex.recount, Function.update_of_ne other]
    · simp [Place.minds, Place.sleeps, PthreadMutex.recount]
    · simp [Place.locking]
  · next zero =>
    have one := last.mp (not_not.mp zero)
    refine ⟨value, ⟨holder, ?_, ?_, ?_, ?_⟩, ⟨?_, ?_, .inr holds, fun u _ => rfl⟩, ?_, ?_⟩
    · simp [mine, one, Place.disowned]
    · simp
    · simp [one, Kind.limit]
    · simp [one, Place.Knows]
    · exact fun u _ => Iff.rfl
    · exact fun u _ => Iff.rfl
    · simp [Place.minds, Place.sleeps]
    · simp [Place.locking]

theorem subtract_sound (value : m.Valid)
    (here : Local kind m t .subtract) : Sound kind m t .subtract (access kind m t .subtract) := by
  obtain ⟨holder, owner, counter, nested, knows⟩ := here
  have one : m.depth t = 1 := knows
  have holds := holder.mpr (.inl (by rw [one]; exact Nat.one_pos))
  have taken := LockWord.value_ne_zero holds
  have notOwner : m.ownerThreadId ≠ some t := by
    rw [Ne, owner]
    simp [Place.disowned]
  have notFree : m.mutexState.value ≠ unlocked := taken
  simp only [access, if_neg notFree]
  split
  · next shared =>
    have two : m.mutexState.value = lockedWithWaiters := (value.resolve_left notFree).resolve_left shared
    rw [two, lockedWithWaiters_sub_one]
    have kept := @LockWord.Move.contend _ m.mutexState t lockedWithoutWaiters true taken (by decide)
      (by simp [holds])
    refine ⟨.inr (.inl rfl), ⟨?_, ?_, ?_, nested, one⟩, ⟨kept.other, fun u _ => Iff.rfl, .inl rfl,
      fun u _ => rfl⟩, ?_, ?_⟩
    · simp [kept.self.mpr rfl, one]
    · simp [notOwner, Place.disowned]
    · simp [Place.disowned]
    · simp [Place.minds]
    · simp [Place.locking]
  · next alone =>
    have alone := not_not.mp alone
    have shared : m.mutexState.value ≠ lockedWithWaiters := by
      rw [alone]
      decide
    have free := LockWord.Move.release holds
    have gone : (m.mutexState.store t unlocked).holder ≠ some t := by
      rw [Ne, show unlocked = 0 from rfl, free.self]
      simp
    rw [alone, lockedWithoutWaiters_sub_one]
    refine ⟨.inl rfl, ⟨?_, ?_, ?_, ?_, ?_⟩, ⟨free.other, fun u _ => Iff.rfl, .inl rfl, ?_⟩, ?_, ?_⟩
    · simp [PthreadMutex.recount, one, gone, Place.claimed]
    · simp [PthreadMutex.recount, one, notOwner]
    · simp [PthreadMutex.recount, one]
    · simp [PthreadMutex.recount, one]
    · simp [Place.Knows]
    · intro u other
      simp [PthreadMutex.recount, Function.update_of_ne other]
    · exact .inr (.inr ⟨rfl, rfl, fun contended => absurd contended shared⟩)
    · simp [Place.locking]

theorem store_sound (here : Local kind m t .store) :
    Sound kind m t .store (access kind m t .store) := by
  obtain ⟨holder, owner, counter, nested, knows⟩ := here
  have one : m.depth t = 1 := knows
  have holds := holder.mpr (.inl (by rw [one]; exact Nat.one_pos))
  have free := LockWord.Move.release holds
  have notOwner : m.ownerThreadId ≠ some t := by
    rw [Ne, owner]
    simp [Place.disowned]
  have gone : (m.mutexState.store t unlocked).holder ≠ some t := by
    rw [Ne, show unlocked = 0 from rfl, free.self]
    simp
  refine ⟨.inl rfl, ⟨?_, ?_, ?_, ?_, trivial⟩, ⟨free.other, fun u _ => Iff.rfl, .inl rfl, ?_⟩, ?_, ?_⟩
  · simp [access, PthreadMutex.recount, one, gone, Place.claimed]
  · simp [access, PthreadMutex.recount, one, notOwner]
  · simp [access, PthreadMutex.recount, one]
  · simp [access, PthreadMutex.recount, one]
  · intro u other
    simp [access, PthreadMutex.recount, Function.update_of_ne other]
  · simp [access, Place.minds]
  · simp [access, Place.locking]

omit [DecidableEq ι] in
theorem again_sound (value : m.Valid)
    (here : Local kind m t place) {mode : Mode} (trying : place = .claim mode ∨ place = .reclaim mode) :
    Sound kind m t place (m, again mode m.mutexState.value) := by
  have plain : place.plain = true := by rcases trying with rfl | rfl <;> rfl
  have locking : place.locking = true := by rcases trying with rfl | rfl <;> rfl
  have knows : kind ≠ .fast → m.depth t = 0 := by
    have knows := here.knows
    rcases trying with rfl | rfl <;> exact knows
  unfold again
  split
  · next contended =>
    apply Sound.stay value
    · exact here.goes plain (.inl rfl) knows
    · exact .inl contended
    · exact fun _ => locking
  · next low =>
    apply Sound.stay value
    · exact here.goes plain (.inl rfl) knows
    · exact .inr (.inl rfl)
    · exact fun _ => locking

theorem contend_sound (value : m.Valid) {mode : Mode} (here : Local kind m t (.contend mode)) :
    Sound kind m t (.contend mode) (access kind m t (.contend mode)) := by
  have knows := here.knows
  have holder : (m.mutexState.cmpxchg t lockedWithoutWaiters lockedWithWaiters).holder =
      m.mutexState.holder := LockWord.holder_cmpxchg (by decide) (by decide)
  have moved : Moved m (access kind m t (.contend mode)).1 t := by
    refine ⟨fun u _ => ?_, fun u _ => Iff.rfl, .inl rfl, fun u _ => rfl⟩
    simp only [access, holder]
  have stays : ∀ next : Place, next.plain = true → next.Knows kind (m.depth t) →
      Local kind (access kind m t (.contend mode)).1 t next := by
    intro next plain knows
    obtain ⟨holds, owner, counter, nested, knows⟩ := here.goes rfl (.inl plain) knows
    exact ⟨by simpa only [access, holder] using holds, owner, counter, nested, knows⟩
  have same : (access kind m t (.contend mode)).1.ownership t = m.ownership t := by
    simp only [access, PthreadMutex.ownership, holder]
  by_cases free : m.mutexState.value = unlocked
  · have next : (access kind m t (.contend mode)).2 = .reclaim mode := if_pos free
    refine ⟨?_, ?_, moved, ?_, fun _ => ⟨rfl, same⟩⟩
    · left
      rw [access, LockWord.cmpxchg, if_neg]
      · exact free
      · rw [free]
        decide
    · rw [next]
      exact stays _ rfl knows
    · rw [next]
      exact .inr (.inl rfl)
  · have next : (access kind m t (.contend mode)).2 = .futexWait mode := if_neg free
    have contended : (access kind m t (.contend mode)).1.mutexState.value = lockedWithWaiters := by
      simp only [access, LockWord.cmpxchg]
      split
      · rfl
      · next shared => exact (value.resolve_left free).resolve_left shared
    refine ⟨.inr (.inr contended), ?_, moved, .inl contended, fun _ => ⟨rfl, same⟩⟩
    rw [next]
    exact stays _ rfl knows

omit [DecidableEq ι] in
/-- The holder writes the owner, and no other thread is one before or after. -/
theorem owner_other {m' : PthreadMutex ι}
    (owned : ∀ u, m.ownerThreadId = some u → m.mutexState.holder = some u)
    (holds : m.mutexState.holder = some t)
    (after : m'.ownerThreadId = none ∨ m'.ownerThreadId = some t) (u : ι) (other : u ≠ t) :
    m'.ownerThreadId = some u ↔ m.ownerThreadId = some u := by
  apply iff_of_false
  · rcases after with none | mine
    · simp [none]
    · simpa [mine] using other.symm
  · intro owner
    have holder := owned u owner
    rw [holds] at holder
    exact other (Option.some.inj holder).symm

theorem access_sound (value : m.Valid)
    (here : Local kind m t place) (owned : ∀ u, m.ownerThreadId = some u → m.mutexState.holder = some u)
    (below : place = .recount → m.depth t < 2 ^ 32)
    (inside : ∀ errno, place ≠ .out errno) (running : place.sleeps = false) (working : place ≠ .wake) :
    Sound kind m t place (access kind m t place) := by
  have knows := here.knows
  cases place with
  | out errno => exact absurd rfl (inside errno)
  | asleep mode => cases running
  | wake => exact absurd rfl working
  | readOwner mode =>
    simp only [Place.Knows] at knows
    have owner := here.owner
    simp only [Place.disowned, reduceCtorEq, or_false, and_true] at owner
    simp only [access]
    split
    · next mine =>
      have held := (owner.mp mine).2
      split
      · apply Sound.stay value
        · apply here.goes rfl (.inl rfl)
          simp [Place.Knows]
        · exact .inr (.inr ⟨rfl, rfl⟩)
        · simp [Place.locking]
      · next other =>
        apply Sound.stay value
        · apply here.goes rfl (.inl rfl)
          cases kind <;> simp_all [Place.Knows]
        · exact .inr (.inr ⟨rfl, rfl⟩)
        · simp [Place.locking]
    · next others =>
      apply Sound.stay value
      · apply here.goes rfl (.inl rfl)
        intro _
        by_contra holds
        exact others (owner.mpr ⟨knows, Nat.pos_of_ne_zero holds⟩)
      · exact .inr (.inr ⟨rfl, rfl⟩)
      · simp [Place.locking]
  | recount => exact recount_sound value here (below rfl)
  | claim mode =>
    simp only [access]
    split
    · next free => exact claim_sound here free (.inl rfl) (.inl rfl) (.inr rfl)
    · next taken =>
      cases refused : mode.refused with
      | none => exact again_sound value here (.inl rfl)
      | some errno =>
        apply Sound.stay value
        · apply here.goes rfl (.inl rfl)
          simpa [Place.Knows] using mode.refused_ne refused
        · exact .inr (.inr ⟨rfl, rfl⟩)
        · simp [Place.locking]
  | contend mode => exact contend_sound value here
  | futexWait mode =>
    simp only [access]
    split
    · next contended =>
      apply Sound.stay value
      · exact here.goes rfl (.inl rfl) knows
      · exact .inl contended
      · simp [Place.locking]
    · next low =>
      apply Sound.stay value
      · exact here.goes rfl (.inl rfl) knows
      · exact .inr (.inl rfl)
      · simp [Place.locking]
  | reclaim mode =>
    simp only [access]
    split
    · next free => exact claim_sound here free (.inr rfl) (.inr rfl) (.inl rfl)
    · next taken => exact again_sound value here (.inr rfl)
  | setOwner =>
    obtain ⟨holder, owner, counter, nested, slow, zero⟩ := here
    have holds := holder.mpr (.inr rfl)
    refine ⟨value, ⟨?_, ?_, ?_, nested, ⟨slow, zero⟩⟩, ⟨fun u _ => Iff.rfl, ?_, .inl rfl, fun u _ => rfl⟩,
      ?_, ?_⟩
    · simp [access, holds, Place.claimed]
    · simp [access]
    · simp [access, zero]
    · exact owner_other owned holds (by simp [access])
    · simp [access, Place.minds, Place.sleeps]
    · simp [access, Place.locking]
  | setCount =>
    obtain ⟨holder, owner, counter, nested, slow, zero⟩ := here
    have holds := holder.mpr (.inr rfl)
    have mine := owner.mpr (.inr rfl)
    refine ⟨value, ⟨?_, ?_, ?_, ?_, ?_⟩, ⟨fun u _ => Iff.rfl, fun u _ => Iff.rfl, .inr holds, ?_⟩, ?_, ?_⟩
    · simp [access, PthreadMutex.recount, holds]
    · simp [access, PthreadMutex.recount, mine, slow, Place.disowned]
    · simp [access, PthreadMutex.recount, zero]
    · cases kind <;> simp [access, PthreadMutex.recount, zero, Kind.limit]
    · simp [access, Place.Knows]
    · intro u other
      simp [access, PthreadMutex.recount, Function.update_of_ne other]
    · simp [access, Place.minds, Place.sleeps, PthreadMutex.recount]
    · simp [access, Place.locking]
  | uncount => exact uncount_sound value here
  | checkOwner =>
    obtain ⟨rfl, held⟩ := knows
    have mine : m.ownerThreadId = some t := here.owner.mpr (.inl ⟨by simp, held, rfl⟩)
    simp only [access, mine, ne_eq, not_true_eq_false, if_false]
    apply Sound.stay value
    · apply here.goes rfl (.inr rfl)
      refine ⟨by simp, ?_⟩
      have nested := here.nested
      simp only [Kind.limit] at nested
      omega
    · exact .inr (.inr ⟨rfl, rfl⟩)
    · simp [Place.locking]
  | clearOwner =>
    obtain ⟨holder, owner, counter, nested, slow, one⟩ := here
    have holds := holder.mpr (.inl (by rw [one]; exact Nat.one_pos))
    refine ⟨value, ⟨?_, ?_, ?_, nested, ⟨slow, one⟩⟩, ⟨fun u _ => Iff.rfl, ?_, .inl rfl, fun u _ => rfl⟩,
      ?_, ?_⟩
    · simp [access, holds, one]
    · simp [access, Place.disowned]
    · simp [access, Place.disowned]
    · exact owner_other owned holds (by simp [access])
    · simp [access, Place.minds, Place.sleeps]
    · simp [access, Place.locking]
  | clearCount =>
    obtain ⟨holder, owner, counter, nested, slow, one⟩ := here
    have holds := holder.mpr (.inl (by rw [one]; exact Nat.one_pos))
    have notOwner : m.ownerThreadId ≠ some t := by
      rw [Ne, owner]
      simp [Place.disowned]
    refine ⟨value, ⟨?_, ?_, ?_, nested, one⟩, ⟨fun u _ => Iff.rfl, fun u _ => Iff.rfl, .inr holds,
      fun u _ => rfl⟩, ?_, ?_⟩
    · simp [access, holds, one]
    · simp [access, notOwner, Place.disowned]
    · simp [access, Place.disowned]
    · simp [access, Place.minds, Place.sleeps]
    · simp [access, Place.locking]
  | subtract => exact subtract_sound value here
  | store => exact store_sound here

/-! ## Runs keep the invariant -/

variable {s : State ι}

omit [DecidableEq ι] in
theorem Inv.init : Inv kind (State.init : State ι) where
  value := .inl rfl
  thread := fun t => by
    constructor <;> simp [State.init, PthreadMutex.init, LockWord.free, Place.claimed, Place.Knows]
  minded := fun ⟨t, asleep⟩ => by cases asleep
  unchanged := fun t _ => rfl

omit [DecidableEq ι] in
theorem Inv.owned (inv : Inv kind s) (u : ι) (owner : s.mutex.ownerThreadId = some u) :
    s.mutex.mutexState.holder = some u := by
  apply (inv.thread u).holder.mpr
  rcases (inv.thread u).owner.mp owner with held | set
  · exact .inl held.2.1
  · rw [set]
    exact .inr rfl

theorem Inv.go (inv : Inv kind s) (below : s.place t = .recount → s.mutex.depth t < 2 ^ 32)
    (inside : ∀ errno, s.place t ≠ .out errno) (running : (s.place t).sleeps = false)
    (working : s.place t ≠ .wake) : Inv kind (s.go kind t (s.place t)) := by
  have sound := access_sound inv.value (inv.thread t) inv.owned below inside running working
  refine ⟨sound.value, fun u => ?_, inv.minded.move sound.minded, fun u failing => ?_⟩
  · simp only [State.go, Function.update_apply]
    split
    · next same =>
      subst same
      exact sound.thread
    · next other => exact (inv.thread u).frame sound.moved other
  · simp only [State.go, Function.update_apply] at failing ⊢
    split at failing
    · next here =>
      obtain ⟨locking, same⟩ := sound.fails failing
      rw [if_pos here, inv.unchanged t (.inl locking)]
      simp [same]
    · next other =>
      rw [if_neg other]
      exact inv.unchanged u failing

/-- `t` goes to another place, and the mutex stays as it is. -/
theorem Inv.arrive (inv : Inv kind s) {next : Place} {changed : ι → Bool}
    (thread : Local kind s.mutex t next) (awake : next.sleeps = false)
    (free : (s.place t).minds = false ∨ next.minds = true) (others : ∀ u, u ≠ t → changed u = s.changed u)
    (fresh : (next.locking = true ∨ ∃ errno, next = .out (some errno)) → changed t = false) :
    Inv kind ⟨s.mutex, Function.update s.place t next, changed⟩ where
  value := inv.value
  thread := fun u => by
    dsimp only
    rw [Function.update_apply]
    split
    · next same =>
      rw [same]
      exact thread
    · exact inv.thread u
  minded := by
    apply inv.minded.move
    cases free with
    | inl free => exact .inr (.inr ⟨awake, free, id⟩)
    | inr minds => exact .inr (.inl minds)
  unchanged := fun u failing => by
    dsimp only at failing ⊢
    rw [Function.update_apply] at failing
    split at failing
    · next same =>
      rw [same]
      exact fresh failing
    · next other =>
      rw [others u other]
      exact inv.unchanged u failing

theorem Inv.lock (inv : Inv kind s) {errno : Option Errno} (here : s.place t = .out errno) (mode : Mode) :
    Inv kind (s.enter t (mutexLock kind mode)) := by
  have thread := inv.thread t
  rw [here] at thread
  apply inv.arrive
  · apply thread.goes rfl
    · cases kind <;> exact .inl rfl
    · cases kind <;> simp [mutexLock, Place.Knows]
  · cases kind <;> rfl
  · left
    rw [here]
    rfl
  · exact fun u other => Function.update_of_ne other _ _
  · exact fun _ => Function.update_self ..

theorem Inv.unlock (inv : Inv kind s) {errno : Option Errno} (here : s.place t = .out errno)
    (held : 0 < s.mutex.depth t) : Inv kind (s.enter t (mutexUnlock kind)) := by
  have thread := inv.thread t
  rw [here] at thread
  apply inv.arrive
  · cases kind with
    | fast =>
      have one : s.mutex.depth t = 1 := Nat.le_antisymm thread.nested held
      have owner := thread.owner
      refine ⟨thread.holder, ?_, ?_, thread.nested, one⟩
      · simpa [mutexUnlock] using owner
      · simp
    | recursive =>
      apply thread.goes rfl (.inl rfl)
      exact ⟨rfl, held⟩
    | errorcheck =>
      apply thread.goes rfl (.inl rfl)
      exact ⟨rfl, held⟩
  · cases kind <;> rfl
  · left
    rw [here]
    rfl
  · exact fun u other => Function.update_of_ne other _ _
  · exact fun _ => Function.update_self ..

/-- `futex_wait_abs` returns, with or without a wake. -/
theorem Inv.return (inv : Inv kind s) {mode : Mode} (here : s.place t = .asleep mode) :
    Inv kind { s with place := Function.update s.place t (.reclaim mode) } := by
  have thread := inv.thread t
  rw [here] at thread
  apply inv.arrive
  · exact thread.goes rfl (.inl rfl) thread.knows
  · rfl
  · exact .inr rfl
  · exact fun u _ => rfl
  · intro _
    apply inv.unchanged t
    left
    rw [here]
    rfl

theorem Inv.timeout (inv : Inv kind s) {mode : Mode} (here : s.place t = .asleep mode) :
    Inv kind { s with place := Function.update s.place t (.out (some .etimedout)) } := by
  have thread := inv.thread t
  rw [here] at thread
  apply inv.arrive
  · apply thread.goes rfl (.inl rfl)
    simp [Place.Knows]
  · rfl
  · left
    rw [here]
    rfl
  · exact fun u _ => rfl
  · intro _
    apply inv.unchanged t
    left
    rw [here]
    rfl

theorem Inv.wake (inv : Inv kind s) (here : s.place t = .wake) {woken : Option ι}
    (wakes : Wakes Place.sleeps s.place woken) :
    Inv kind { s with place := Function.update (awaken s.place woken) t (.out none) } := by
  have minded : Minded Place.sleeps Place.minds (s.mutex.mutexState.value = lockedWithWaiters)
      (Function.update (awaken s.place woken) t (.out none)) := by
    apply Minded.wake wakes
    · intro place asleep
      cases place <;> first | rfl | cases asleep
    · rw [here]
      rfl
    · rfl
  -- the thread that is woken first, then the one that wakes it
  have woke : Inv kind { s with place := awaken s.place woken } := by
    cases woken with
    | none => exact inv
    | some u =>
      cases at_u : s.place u with
      | asleep mode =>
        have back := inv.return at_u
        simpa [awaken, at_u, Place.awake] using back
      | _ =>
        have asleep : Place.sleeps (s.place u) = true := wakes
        rw [at_u] at asleep
        cases asleep
  have still : awaken s.place woken t = .wake := by
    cases woken with
    | none => exact here
    | some u =>
      simp only [awaken, Option.elim_some, Function.update_apply]
      split
      · next same =>
        rw [← same, here]
        rfl
      · exact here
  have thread := woke.thread t
  dsimp only at thread
  rw [still] at thread
  have left : Local kind s.mutex t (.out none) := by
    apply thread.goes rfl (.inl rfl)
    simp [Place.Knows]
  refine ⟨inv.value, fun v => ?_, minded, fun v failing => ?_⟩
  · dsimp only
    rw [Function.update_apply]
    split
    · next same =>
      rw [same]
      exact left
    · exact woke.thread v
  · dsimp only at failing
    rw [Function.update_apply] at failing
    split at failing
    · simp [Place.locking] at failing
    · exact woke.unchanged v failing

variable [Fintype ι]

/-- No thread locks a recursive mutex again that it holds 2^32 times. -/
def Counts (s : State ι) : Event ι → Prop
  | .go t => s.place t = .recount → s.mutex.depth t < 2 ^ 32
  | _ => True

instance (s : State ι) : (e : Event ι) → Decidable (Counts s e)
  | .go _ => inferInstanceAs (Decidable (_ → _))
  | .lock .. | .unlock _ | .wake .. | .interrupt _ | .timeout _ => .isTrue trivial

theorem Inv.step (inv : Inv kind s) {e : Event ι} {s' : State ι} (counts : Counts s e)
    (stepped : step kind s e = some s') : Inv kind s' := by
  cases e with
  | lock t mode =>
    simp only [Mutex.step] at stepped
    split at stepped
    · next errno here =>
      cases stepped
      exact inv.lock here mode
    · cases stepped
  | unlock t =>
    simp only [Mutex.step] at stepped
    split at stepped
    · next errno here =>
      split at stepped
      · next held =>
        cases stepped
        exact inv.unlock here held
      · cases stepped
    · cases stepped
  | go t =>
    simp only [Mutex.step] at stepped
    split at stepped
    · cases stepped
    · cases stepped
    · cases stepped
    · next inside running working =>
      cases stepped
      apply inv.go counts inside
      · cases place : s.place t <;> first | rfl | exact absurd place (running _)
      · exact working
  | wake t woken =>
    simp only [Mutex.step] at stepped
    split at stepped
    · next issued =>
      cases stepped
      exact inv.wake issued.1 issued.2
    · cases stepped
  | interrupt t =>
    simp only [Mutex.step] at stepped
    split at stepped
    · next mode here =>
      cases stepped
      exact inv.return here
    · cases stepped
  | timeout t =>
    simp only [Mutex.step] at stepped
    split at stepped
    · next valid here =>
      cases stepped
      exact inv.timeout here
    · cases stepped

/-- `t` has locked the mutex and not unlocked it, or is about to return from a lock that has got it. -/
def State.holds (s : State ι) (t : ι) : Prop := 0 < s.mutex.depth t ∨ (s.place t).claimed = true

/-- A thread that sleeps may rely on the state, or on another thread. -/
def State.relies (s : State ι) : Prop :=
  s.mutex.mutexState.value = lockedWithWaiters ∨ ∃ t, (s.place t).minds = true

/-- In every state of every run in which no thread nests 2^32 + 1 locks, for any number of threads. -/
theorem mutex_runs {events : List (Event ι)} {s : State ι}
    (run : events.foldlM (step kind) State.init = some s)
    (counts : ∀ pre e, pre ++ [e] <+: events → ∀ u, pre.foldlM (step kind) State.init = some u →
      Counts u e) :
    (∀ t u, s.holds t → s.holds u → t = u) ∧
      (s.mutex.mutexState.value = unlocked ↔ ∀ t, ¬ s.holds t) ∧
      (∀ t, s.mutex.ownerThreadId = some t → s.holds t) ∧
      (∀ t, s.place t ≠ .out (some .eperm)) ∧
      (∀ t errno, s.place t = .out (some errno) → s.changed t = false) ∧
      ((∃ t, (s.place t).sleeps = true) → s.relies) := by
  have inv : Inv kind s := @foldlM_invariant _ _ (step kind) (Inv kind) Counts
    (fun s e s' inv counts stepped => inv.step counts stepped) events _ s Inv.init counts run
  have holds : ∀ t, s.mutex.mutexState.holder = some t ↔ s.holds t := fun t => (inv.thread t).holder
  refine ⟨fun t u first second => ?_, ?_, fun t owner => ?_, fun t => ?_, fun t errno failed => ?_, inv.minded⟩
  · have both := ((holds t).mpr first).symm.trans ((holds u).mpr second)
    exact Option.some.inj both
  · rw [show s.mutex.mutexState.value = unlocked ↔ s.mutex.mutexState.holder = none from
      s.mutex.mutexState.free_iff, Option.eq_none_iff_forall_ne_some]
    simp [holds]
  · exact (holds t).mp (inv.owned t owner)
  · intro refused
    have knows := (inv.thread t).knows
    rw [refused] at knows
    exact knows rfl
  · exact inv.unchanged t (.inr ⟨errno, failed⟩)

/-- The holder gives the mutex up while two threads sleep, and its wake reaches one of them. -/
def oneWakeForTwo (t u v : Fin 3) : List (Event (Fin 3)) :=
  [.lock t .lock, .go t, .lock u .lock, .go u, .go u, .go u, .lock v .lock, .go v, .go v,
    .unlock t, .go t, .go t, .wake t (some u)]

theorem mutex_runs_oneWake : ∃ s : State (Fin 3),
    (oneWakeForTwo 0 1 2).foldlM (step .fast) State.init = some s ∧ (s.place 2).sleeps = true ∧ s.relies := by
  have places : ((oneWakeForTwo 0 1 2).foldlM (step .fast) State.init).map (fun s => (s.place 2).sleeps) =
      some true := by decide
  obtain ⟨s, run, here⟩ := Option.map_eq_some_iff.mp places
  have met : meets (step .fast) Counts State.init (oneWakeForTwo 0 1 2) = true := by decide
  exact ⟨s, run, here, (mutex_runs run (cond_of_meets met)).2.2.2.2.2 ⟨2, here⟩⟩

/-- One more lock by a thread that holds the mutex. -/
def relock (t : Fin 1) : List (Event (Fin 1)) := [.lock t .lock, .go t, .go t]

theorem relock_once (s : State (Fin 1)) (out : s.place 0 = .out none)
    (owner : s.mutex.ownerThreadId = some 0) :
    ∃ s', (relock 0).foldlM (step .recursive) s = some s' ∧ s'.place 0 = .out none ∧
      s'.mutex = { s.mutex with recursionCounter := s.mutex.recursionCounter + 1 }.recount 0
        (s.mutex.depth 0 + 1) := by
  simp [relock, step, out, State.enter, State.go, mutexLock, access, owner]

theorem relock_run (n : Nat) : ∀ s : State (Fin 1), s.place 0 = .out none → s.mutex.ownerThreadId = some 0 →
    ∃ s', (List.replicate n (relock 0)).flatten.foldlM (step .recursive) s = some s' ∧
      s'.place 0 = .out none ∧ s'.mutex.ownerThreadId = some 0 ∧
      s'.mutex.depth 0 = s.mutex.depth 0 + n ∧
      s'.mutex.recursionCounter = s.mutex.recursionCounter + BitVec.ofNat 32 n ∧
      s'.mutex.mutexState = s.mutex.mutexState := by
  induction n with
  | zero =>
    intro s out owner
    exact ⟨s, rfl, out, owner, rfl, by simp, rfl⟩
  | succ n ih =>
    intro s out owner
    obtain ⟨u, once, out', mutex⟩ := relock_once s out owner
    obtain ⟨s', rest, out'', owner', depth, counter, state⟩ := ih u out' (by rw [mutex]; exact owner)
    rw [mutex] at depth counter state
    refine ⟨s', ?_, out'', owner', ?_, ?_, state⟩
    · rw [List.replicate_succ, List.flatten_cons, List.foldlM_append, once]
      exact rest
    · simp only [PthreadMutex.recount, Function.update_self] at depth
      omega
    · rw [counter, BitVec.ofNat_add, BitVec.add_comm (BitVec.ofNat 32 n), ← BitVec.add_assoc]
      rfl

def unlockOnce (t : Fin 1) : List (Event (Fin 1)) := [.unlock t, .go t, .go t, .go t, .go t]

theorem unlock_once (s : State (Fin 1)) (out : s.place 0 = .out none)
    (held : 0 < s.mutex.depth 0) (counter : s.mutex.recursionCounter = 1)
    (alone : s.mutex.mutexState.value = lockedWithoutWaiters) :
    ∃ s', (unlockOnce 0).foldlM (step .recursive) s = some s' ∧
      s'.mutex.depth 0 = s.mutex.depth 0 - 1 ∧ s'.mutex.mutexState.value = unlocked := by
  simp [unlockOnce, step, out, held, State.enter, State.go, mutexUnlock, access, counter, alone,
    PthreadMutex.recount]
  exact lockedWithoutWaiters_sub_one

def lockFirst (t : Fin 1) : List (Event (Fin 1)) := [.lock t .lock, .go t, .go t, .go t, .go t]

/-- A thread sleeps while the state is `UNLOCKED` and no wake is to be issued; and the first unlock after
    2^32 + 1 locks by one thread releases a recursive mutex. -/
theorem mutex_sleeps_unwoken :
    (∃ s : State (Fin 3), (oneWakeForTwo 0 1 2).foldlM (step .fast) State.init = some s ∧
      (s.place 2).sleeps = true ∧ s.mutex.mutexState.value = unlocked ∧
      ∀ t, s.place t ≠ .store ∧ s.place t ≠ .wake) ∧
    ∃ s : State (Fin 1),
      (lockFirst 0 ++ (List.replicate (2 ^ 32) (relock 0)).flatten ++ unlockOnce 0).foldlM (step .recursive)
        State.init = some s ∧
      s.mutex.depth 0 = 2 ^ 32 ∧ s.mutex.mutexState.value = unlocked := by
  constructor
  · have seen : ((oneWakeForTwo 0 1 2).foldlM (step .fast) State.init).map (fun s =>
        ((s.place 2).sleeps, s.mutex.mutexState.value, decide (∀ t, s.place t ≠ .store ∧ s.place t ≠ .wake))) =
        some (true, unlocked, true) := by decide
    obtain ⟨s, run, here⟩ := Option.map_eq_some_iff.mp seen
    simp only [Prod.mk.injEq, decide_eq_true_eq] at here
    exact ⟨s, run, here⟩
  · have first : ((lockFirst 0).foldlM (step .recursive) State.init).map (fun s => (s.place 0,
        s.mutex.ownerThreadId, s.mutex.depth 0, s.mutex.recursionCounter, s.mutex.mutexState.value)) =
        some (.out none, some 0, 1, 1, lockedWithoutWaiters) := by decide
    obtain ⟨s, locked, here⟩ := Option.map_eq_some_iff.mp first
    simp only [Prod.mk.injEq] at here
    obtain ⟨out, owner, depth, counter, value⟩ := here
    obtain ⟨u, nested, out', _, depth', counter', state⟩ := relock_run (2 ^ 32) s out owner
    have wrapped : u.mutex.recursionCounter = 1 := by
      rw [counter', counter]
      decide
    obtain ⟨s', unlocks, left, free⟩ := unlock_once u out' (by omega) wrapped (by rw [state, value])
    refine ⟨s', ?_, ?_, free⟩
    · rw [List.foldlM_append, List.foldlM_append, locked, Option.bind_eq_bind, Option.bind_some, nested]
      exact unlocks
    · omega

end SandboxTEE.Pthread.Mutex
