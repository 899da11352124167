import Mathlib.Tactic.FinCases
import SandboxTEE.Lib.Tally
import SandboxTEE.Sync.CondVarWait

/-! # Waits for the mutex (`sgx/lock.c`)

One mutex and any number of threads.  The host puts a thread to sleep only while the word is
`MUTEX_CONTENDED`, and wakes a sleeping thread when it is asked to, if there is one, or at any other time.

A thread that sleeps is safe while the word is `MUTEX_CONTENDED`, as whoever gives the mutex up will issue a
wake then; while a wake is still to be issued; and while a thread that a wake has reached is still to
exchange the word for `MUTEX_CONTENDED`.
-/

namespace SandboxTEE.Sync

open SandboxTEE.Lib

/-- Where a thread is: between two calls, in one of them, or asleep in the host. -/
inductive Place where
  | out (holds : Bool)
  | lock (pc : LockPc)
  | asleep
  | unlock (pc : UnlockPc)
deriving DecidableEq

namespace Place

/-- The thread has come back from `NaClMutexLock`, and has not stored `MUTEX_UNLOCKED` since. -/
def holds : Place → Bool
  | .out holds => holds
  | .lock _ => false
  | .asleep => false
  | .unlock pc => pc.holds

def sleeping : Place → Bool
  | .asleep => true
  | _ => false

/-- A wake is still to be issued. -/
def waking : Place → Bool
  | .unlock (.spin _) => true
  | .unlock (.raise _) => true
  | .unlock .wake => true
  | _ => false

/-- About to exchange the word for `MUTEX_CONTENDED`. -/
def exchanging : Place → Bool
  | .lock .exchange => true
  | _ => false

theorem sleeping_iff {place : Place} : place.sleeping = true ↔ place = .asleep := by
  cases place <;> simp [sleeping]

end Place

structure MutexState (ι : Type) where
  mu : LockWord ι
  place : ι → Place

/-- After `NaClMutexCtor`. -/
def MutexState.init {ι : Type} : MutexState ι := ⟨LockWord.free, fun _ => .out false⟩

inductive MutexEvent (ι : Type) where
  | naClMutexLock (t : ι)
  /-- By the holder. -/
  | naClMutexUnlock (t : ι)
  /-- The next access of the call that `t` is in, or that `FUTEX_WAIT` comes back at once. -/
  | go (t : ι)
  /-- The host lets `t` sleep. -/
  | sleep (t : ι)
  /-- `FUTEX_WAKE` by `t`: the thread it wakes. -/
  | wake (t : ι) (woken : Option ι)
  /-- `FUTEX_WAIT` comes back without a wake. -/
  | interrupt (t : ι)

variable {ι : Type} [DecidableEq ι]

def MutexState.move (s : MutexState ι) (t : ι) (mu : LockWord ι) (place : Place) : MutexState ι :=
  ⟨mu, Function.update s.place t place⟩

/-- An access of `NaClMutexLock`, or of `NaClMutexUnlock` in front of its wake. -/
def mutexAccess (mu : LockWord ι) (t : ι) : Place → LockWord ι × Place
  | .lock pc =>
    let after := naClMutexLock mu t pc
    (after.1, after.2.elim .lock fun _ => .out true)
  | .unlock pc =>
    let after := naClMutexUnlock mu t pc
    (after.1, after.2.elim .unlock fun _ => .out false)
  | .out holds => (mu, .out holds)
  | .asleep => (mu, .asleep)

def mutexStep [Fintype ι] (s : MutexState ι) : MutexEvent ι → Option (MutexState ι)
  | .naClMutexLock t => if s.place t = .out false then some (s.move t s.mu (.lock (.spin 0))) else none
  | .naClMutexUnlock t => if s.place t = .out true then some (s.move t s.mu (.unlock .read)) else none
  | .go t =>
    match s.place t with
    | .out _ | .asleep | .unlock .wake => none
    | place =>
      let after := mutexAccess s.mu t place
      some (s.move t after.1 after.2)
  | .sleep t =>
    if s.place t = .lock .wait ∧ s.mu.value = mutexContended then some (s.move t s.mu .asleep) else none
  | .wake t woken =>
    if s.place t = .unlock .wake ∧ Wakes Place.sleeping s.place woken then
      let s := woken.elim s fun u => s.move u s.mu (.lock .exchange)
      some (s.move t s.mu (.out false))
    else none
  | .interrupt t =>
    if s.place t = .asleep then some (s.move t s.mu (.lock .exchange)) else none

/-! ## The invariant -/

structure MutexInv (s : MutexState ι) : Prop where
  value : s.mu.value = mutexUnlocked ∨ s.mu.value = mutexLocked ∨ s.mu.value = mutexContended
  holder : ∀ t, s.mu.holder = some t ↔ (s.place t).holds = true
  waits : (∃ t, s.place t = .asleep) → s.mu.value = mutexContended ∨
    ∃ t, (s.place t).waking = true ∨ (s.place t).exchanging = true

variable {s : MutexState ι}

omit [DecidableEq ι] in
theorem MutexInv.init : MutexInv (MutexState.init : MutexState ι) where
  value := .inl rfl
  holder := fun t => by simp [MutexState.init, LockWord.free, Place.holds]
  waits := fun ⟨t, asleep⟩ => by cases asleep

/-- Another thread than `t` will see to those that sleep. -/
def MutexState.Served (s : MutexState ι) (t : ι) : Prop :=
  (∃ u, s.place u = .asleep) → ∃ v, v ≠ t ∧ ((s.place v).waking = true ∨ (s.place v).exchanging = true)

variable {t : ι}

omit [DecidableEq ι] in
theorem MutexInv.served (inv : MutexInv s) (low : s.mu.value ≠ mutexContended)
    (notWaking : (s.place t).waking = false) (notExchanging : (s.place t).exchanging = false) :
    s.Served t := by
  intro asleep
  obtain ⟨v, sees⟩ := (inv.waits asleep).resolve_left low
  refine ⟨v, ?_, sees⟩
  rintro rfl
  simp [notWaking, notExchanging] at sees

variable {place : Place}

/-- A thread moves.  It may go to sleep only at a contended word, and must leave the word so, or be one who
    will see to the others, unless another does. -/
theorem MutexInv.move (inv : MutexInv s) {mu : LockWord ι}
    (value : mu.value = mutexUnlocked ∨ mu.value = mutexLocked ∨ mu.value = mutexContended)
    (moved : s.mu.Move mu t place.holds)
    (waits : mu.value = mutexContended ∨ place.waking = true ∨ place.exchanging = true ∨
      (place ≠ .asleep ∧ s.Served t)) : MutexInv (s.move t mu place) where
  value := value
  holder := fun u => by
    simp only [MutexState.move, Function.update_apply]
    split
    · next same =>
      rw [same]
      exact moved.self
    · next other => exact (moved.other u other).trans (inv.holder u)
  waits := by
    rintro ⟨u, asleep⟩
    simp only [MutexState.move] at asleep ⊢
    rcases waits with contended | waking | exchanging | ⟨stays, served⟩
    · exact .inl contended
    · exact .inr ⟨t, .inl (by rwa [Function.update_self])⟩
    · exact .inr ⟨t, .inr (by rwa [Function.update_self])⟩
    · rw [Function.update_apply] at asleep
      split at asleep
      · exact absurd asleep stays
      · obtain ⟨v, other, sees⟩ := served ⟨u, asleep⟩
        exact .inr ⟨v, by rwa [Function.update_of_ne other]⟩

/-- A thread that nobody relies on leaves the word as it is. -/
theorem MutexInv.stay (inv : MutexInv s) (holds : place.holds = (s.place t).holds)
    (awake : place ≠ .asleep) (notWaking : (s.place t).waking = false)
    (notExchanging : (s.place t).exchanging = false) : MutexInv (s.move t s.mu place) := by
  apply inv.move inv.value
  · apply LockWord.Move.stay
    rw [holds]
    exact inv.holder t
  · by_cases contended : s.mu.value = mutexContended
    · exact .inl contended
    · exact .inr (.inr (.inr ⟨awake, inv.served contended notWaking notExchanging⟩))

theorem MutexInv.lock (inv : MutexInv s) {t : ι} {pc : LockPc} (here : s.place t = .lock pc) :
    MutexInv (s.move t (mutexAccess s.mu t (.lock pc)).1 (mutexAccess s.mu t (.lock pc)).2) := by
  have outside : s.mu.holder ≠ some t := by
    rw [Ne, inv.holder, here]
    simp [Place.holds]
  have moved := naClMutexLock_move pc outside
  cases pc with
  | spin i =>
    simp only [mutexAccess, naClMutexLock] at moved ⊢
    split
    · next free =>
      rw [if_pos free] at moved
      apply inv.move
      · exact .inr (.inl rfl)
      · exact moved
      · refine .inr (.inr (.inr ⟨by simp, inv.served ?_ ?_ ?_⟩))
        · rw [free]
          decide
        · rw [here]
          rfl
        · rw [here]
          rfl
    · split
      · apply inv.stay <;> simp [here, Place.holds, Place.waking, Place.exchanging]
      · split
        · apply inv.stay <;> simp [here, Place.holds, Place.waking, Place.exchanging]
        · apply inv.stay <;> simp [here, Place.holds, Place.waking, Place.exchanging]
  | exchange =>
    apply inv.move
    · exact .inr (.inr rfl)
    · cases next : (naClMutexLock s.mu t .exchange).2 with
      | inl pc =>
        rw [next] at moved
        simpa [mutexAccess, next, Place.holds] using moved
      | inr status =>
        rw [next] at moved
        simpa [mutexAccess, next, Place.holds] using moved
    · exact .inl rfl
  | wait =>
    apply inv.move
    · exact inv.value
    · exact moved
    · exact .inr (.inr (.inl rfl))

theorem MutexInv.unlock (inv : MutexInv s) {t : ι} {pc : UnlockPc} (here : s.place t = .unlock pc)
    (inside : pc ≠ .wake) :
    MutexInv (s.move t (mutexAccess s.mu t (.unlock pc)).1 (mutexAccess s.mu t (.unlock pc)).2) := by
  have holds : s.mu.holder = some t ↔ pc.holds = true := by
    rw [inv.holder, here]
    rfl
  have moved := naClMutexUnlock_move pc holds
  cases pc with
  | read =>
    simp only [mutexAccess, naClMutexUnlock]
    apply inv.stay
    · rw [here]
      split <;> rfl
    · split <;> simp
    · rw [here]
      rfl
    · rw [here]
      rfl
  | write =>
    apply inv.move
    · exact .inl rfl
    · exact moved
    · exact .inr (.inl rfl)
  | exchange =>
    simp only [mutexAccess, naClMutexUnlock] at moved ⊢
    split
    · next locked =>
      rw [if_pos locked] at moved
      apply inv.move
      · exact .inl rfl
      · exact moved
      · refine .inr (.inr (.inr ⟨by simp, inv.served ?_ ?_ ?_⟩))
        · rw [locked]
          decide
        · rw [here]
          rfl
        · rw [here]
          rfl
    · next contended =>
      rw [if_neg contended] at moved
      apply inv.move
      · exact .inl rfl
      · exact moved
      · exact .inr (.inl rfl)
  | spin i =>
    simp only [mutexAccess, naClMutexUnlock] at moved ⊢
    split
    · next more =>
      rw [if_pos more] at moved
      apply inv.move inv.value
      · split <;> exact .stay holds
      · right; left
        split <;> rfl
    · apply inv.move inv.value
      · exact .stay holds
      · exact .inr (.inl rfl)
  | raise i =>
    simp only [mutexAccess, naClMutexUnlock] at moved ⊢
    rcases inv.value with free | locked | contended
    · rw [LockWord.cmpxchg, free, if_neg (by decide), if_neg (by decide)] at moved ⊢
      apply inv.move inv.value
      · exact moved
      · exact .inr (.inl rfl)
    · rw [LockWord.cmpxchg, locked, if_pos rfl, if_pos (by decide)] at moved ⊢
      apply inv.move
      · exact .inr (.inr rfl)
      · exact moved
      · exact .inl rfl
    · rw [LockWord.cmpxchg, contended, if_neg (by decide), if_pos (by decide)] at moved ⊢
      apply inv.move inv.value
      · exact moved
      · exact .inl contended
  | wake => exact absurd rfl inside

theorem MutexInv.wakeUp (inv : MutexInv s) {u : ι} (asleep : s.place u = .asleep) :
    MutexInv (s.move u s.mu (.lock .exchange)) := by
  apply inv.move inv.value
  · apply LockWord.Move.stay
    rw [inv.holder, asleep]
    rfl
  · exact .inr (.inr (.inl rfl))

/-- A wake has been issued, and others will see to those that still sleep. -/
theorem MutexInv.leave (inv : MutexInv s) (here : s.place t = .unlock .wake) (served : s.Served t) :
    MutexInv (s.move t s.mu (.out false)) := by
  apply inv.move inv.value
  · apply LockWord.Move.stay
    rw [inv.holder, here]
    rfl
  · exact .inr (.inr (.inr ⟨by simp, served⟩))

variable [Fintype ι]

theorem MutexInv.step (inv : MutexInv s) {e : MutexEvent ι} {s' : MutexState ι}
    (stepped : mutexStep s e = some s') : MutexInv s' := by
  cases e with
  | naClMutexLock t =>
    simp only [mutexStep] at stepped
    split at stepped
    · next here =>
      cases stepped
      apply inv.stay <;> simp [here, Place.holds, Place.waking, Place.exchanging]
    · cases stepped
  | naClMutexUnlock t =>
    simp only [mutexStep] at stepped
    split at stepped
    · next here =>
      cases stepped
      apply inv.stay <;> simp [here, Place.holds, UnlockPc.holds, Place.waking, Place.exchanging]
    · cases stepped
  | go t =>
    simp only [mutexStep] at stepped
    split at stepped
    · cases stepped
    · cases stepped
    · cases stepped
    · next outside awake waking =>
      cases stepped
      cases here : s.place t with
      | out holds => exact absurd here (outside holds)
      | asleep => exact absurd here awake
      | lock pc => exact inv.lock here
      | unlock pc =>
        apply inv.unlock here
        rintro rfl
        exact waking here
  | sleep t =>
    simp only [mutexStep] at stepped
    split at stepped
    · next allowed =>
      cases stepped
      apply inv.move inv.value
      · apply LockWord.Move.stay
        rw [inv.holder, allowed.1]
        rfl
      · exact .inl allowed.2
    · cases stepped
  | wake t woken =>
    simp only [mutexStep] at stepped
    split at stepped
    · next issued =>
      cases stepped
      obtain ⟨here, wakes⟩ := issued
      cases woken with
      | none =>
        apply inv.leave here
        rintro ⟨u, asleep⟩
        have awake := wakes u
        rw [asleep] at awake
        cases awake
      | some u =>
        have asleep : s.place u = .asleep := Place.sleeping_iff.mp wakes
        have other : t ≠ u := by
          rintro rfl
          rw [here] at asleep
          cases asleep
        apply (inv.wakeUp asleep).leave
        · simpa [MutexState.move, Function.update_of_ne other] using here
        · intro _
          refine ⟨u, other.symm, .inr ?_⟩
          simp [MutexState.move, Place.exchanging]
    · cases stepped
  | interrupt t =>
    simp only [mutexStep] at stepped
    split at stepped
    · next here =>
      cases stepped
      exact inv.wakeUp here
    · cases stepped

/-- Over all runs of any number of threads: one thread at most holds the mutex, the word is 0 exactly when
    nobody does, and no wake-up is lost. -/
theorem naClMutex_runs {events : List (MutexEvent ι)} {s : MutexState ι}
    (run : events.foldlM mutexStep MutexState.init = some s) :
    (∀ t u, (s.place t).holds = true → (s.place u).holds = true → t = u) ∧
      (s.mu.value = mutexUnlocked ↔ ∀ t, (s.place t).holds = false) ∧
      ((∃ t, s.place t = .asleep) → s.mu.value = mutexContended ∨
        ∃ t, (s.place t).waking = true ∨ (s.place t).exchanging = true) := by
  have inv := @foldlM_invariant _ _ mutexStep MutexInv (fun _ _ => True)
    (fun s e s' inv _ stepped => inv.step stepped) events _ s MutexInv.init (fun _ _ _ _ _ => trivial) run
  refine ⟨fun t u first second => ?_, ?_, inv.waits⟩
  · have both := ((inv.holder t).mpr first).symm.trans ((inv.holder u).mpr second)
    exact Option.some.inj both
  · rw [show s.mu.value = mutexUnlocked ↔ s.mu.holder = none from s.mu.free_iff, Option.eq_none_iff_forall_ne_some]
    simp [inv.holder]

/-- Two threads sleep when the holder gives the mutex up, and its wake reaches one of them. -/
def oneWakeForTwo (t u v : Fin 3) : List (MutexEvent (Fin 3)) :=
  [.naClMutexLock t, .go t] ++
  .naClMutexLock u :: List.replicate (mutexSpinlockTimes + 1) (.go u) ++
  .sleep u :: .naClMutexLock v :: List.replicate mutexSpinlockTimes (.go v) ++
  .sleep v :: .naClMutexUnlock t :: List.replicate (mutexSpinlockTimes * 2 + 3) (.go t) ++
  [.wake t (some u)]

theorem oneWakeForTwo_places : ((oneWakeForTwo 0 1 2).foldlM mutexStep MutexState.init).map
    (fun s => (s.place 0, s.place 1, s.place 2, s.mu.value)) =
      some (.out false, .lock .exchange, .asleep, mutexUnlocked) := by
  decide +kernel

theorem naClMutex_runs_oneWake : ∃ s : MutexState (Fin 3),
    (oneWakeForTwo 0 1 2).foldlM mutexStep MutexState.init = some s ∧ s.place 2 = .asleep ∧
      (s.mu.value = mutexContended ∨
        ∃ t, (s.place t).waking = true ∨ (s.place t).exchanging = true) := by
  obtain ⟨s, run, here⟩ := Option.map_eq_some_iff.mp oneWakeForTwo_places
  simp only [Prod.mk.injEq] at here
  exact ⟨s, run, here.2.2.1, (naClMutex_runs run).2.2 ⟨2, here.2.2.1⟩⟩

/-- The other one sleeps at a word of 0, and no wake is still to be issued. -/
theorem naClMutex_sleeps_unwoken : ¬ ∀ (events : List (MutexEvent (Fin 3))) (s : MutexState (Fin 3)),
    events.foldlM mutexStep MutexState.init = some s → (∃ t, s.place t = .asleep) →
      s.mu.value = mutexContended ∨ ∃ t, (s.place t).waking = true := by
  intro claim
  obtain ⟨s, run, here⟩ := Option.map_eq_some_iff.mp oneWakeForTwo_places
  simp only [Prod.mk.injEq] at here
  obtain ⟨zero, one, two, value⟩ := here
  rcases claim (oneWakeForTwo 0 1 2) s run ⟨2, two⟩ with contended | ⟨t, waking⟩
  · rw [value] at contended
    exact absurd contended (by decide)
  · fin_cases t <;> simp [zero, one, two, Place.waking] at waking

end SandboxTEE.Sync
