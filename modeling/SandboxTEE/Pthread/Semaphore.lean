import SandboxTEE.Lib.Run
import SandboxTEE.Lib.Tally

/-! # Semaphores (`nc_semaphore.c`)

`sem_wait`, `sem_trywait` and `sem_post` by any number of threads, at the granularity of single
accesses to `count` and `nwaiters`.  The futex sleeps only if `count` is still 0, wakes one of those
that sleep if there are any, and may wake a thread at any other time.

`nwaiters` counts threads, of which a sandbox of 4 GiB has fewer than 2^31.

* `Inv.awake`: while a thread sleeps, each unit of `count` has somebody who will see to it: a poster
  that is still to wake a thread, or a waiter that is still to try again.
-/

namespace SandboxTEE.Pthread.Semaphore

open SandboxTEE.Lib

/-- `SEM_VALUE_MAX`, `INT_MAX`. -/
def semValueMax : Int := 2 ^ 31 - 1

inductive Errno where
  | eagain
  | einval
  | enosys
  | eoverflow
deriving DecidableEq

/-- `sem_t`, with the numbers of posts and of waits that have changed `count`. -/
structure Sem where
  count : Int
  nwaiters : Int
  posts : Nat
  waits : Nat

def semInit (pshared : Bool) (value : Int) : Except Errno Sem :=
  if pshared then .error .enosys
  else if value > semValueMax then .error .einval
  else .ok ⟨value, 0, 0, 0⟩

/-- The accesses of the three functions. -/
inductive Pc where
  /-- Not inside: what the last call has set `errno` to if it failed. -/
  | out (errno : Option Errno)
  /-- `old_value = *ptr` of the first `decrement_if_positive`. -/
  | read (tryOnly : Bool)
  | swap (tryOnly : Bool) (oldValue : Int)
  /-- `nwaiters` is counted up. -/
  | enter
  /-- `futex_wait_abs` compares. -/
  | futexWait
  | asleep
  /-- `old_value = *ptr` of the `decrement_if_positive` in the loop. -/
  | retry
  | retrySwap (oldValue : Int)
  /-- `nwaiters` is counted down. -/
  | leave
  | postRead
  | postSwap (oldValue : Int)
  /-- `sem->nwaiters != 0`. -/
  | check
  /-- `futex_wake`. -/
  | wake
deriving DecidableEq

inductive Call where
  | semWait
  | semTrywait
  | semPost

def Call.entry : Call → Pc
  | .semWait => .read false
  | .semTrywait => .read true
  | .semPost => .postRead

/-- One access; a thread that is asleep makes none, and that of `wake` is to the futex. -/
def access (m : Sem) : Pc → Sem × Pc
  | .read tryOnly =>
    if m.count = 0 then (m, if tryOnly then .out (some .eagain) else .enter)
    else (m, .swap tryOnly m.count)
  | .swap tryOnly oldValue =>
    if m.count = oldValue then
      ({ m with count := oldValue - 1, waits := m.waits + 1 }, .out none)
    else (m, .read tryOnly)
  | .enter => ({ m with nwaiters := m.nwaiters + 1 }, .futexWait)
  | .futexWait => (m, if m.count = 0 then .asleep else .retry)
  | .retry => (m, if m.count = 0 then .futexWait else .retrySwap m.count)
  | .retrySwap oldValue =>
    if m.count = oldValue then ({ m with count := oldValue - 1, waits := m.waits + 1 }, .leave)
    else (m, .retry)
  | .leave => ({ m with nwaiters := m.nwaiters - 1 }, .out none)
  | .postRead =>
    (m, if m.count = semValueMax then .out (some .eoverflow) else .postSwap m.count)
  | .postSwap oldValue =>
    if m.count = oldValue then
      ({ m with count := oldValue + 1, posts := m.posts + 1 }, .check)
    else (m, .postRead)
  | .check => (m, if m.nwaiters ≠ 0 then .wake else .out none)
  | .out errno => (m, .out errno)
  | .asleep => (m, .asleep)
  | .wake => (m, .wake)

/-! ## Runs -/

structure State (ι : Type) where
  sem : Sem
  pc : ι → Pc

inductive Event (ι : Type) where
  | call (t : ι) (call : Call)
  /-- The next access of the call that `t` is in. -/
  | go (t : ι)
  /-- `futex_wake` by `t`: the thread it wakes. -/
  | wake (t : ι) (woken : Option ι)
  /-- `futex_wait_abs` returns without a wake. -/
  | interrupt (t : ι)

variable {ι : Type} [Fintype ι]

def Pc.sleeping : Pc → Bool
  | .asleep => true
  | _ => false

def step [DecidableEq ι] (s : State ι) : Event ι → Option (State ι)
  | .call t call =>
    match s.pc t with
    | .out _ => some { s with pc := Function.update s.pc t call.entry }
    | _ => none
  | .go t =>
    match s.pc t with
    | .out _ | .asleep | .wake => none
    | pc =>
      let after := access s.sem pc
      some ⟨after.1, Function.update s.pc t after.2⟩
  | .wake t woken =>
    -- one thread at most
    if s.pc t = .wake ∧ Wakes Pc.sleeping s.pc woken then
      let pc := woken.elim s.pc fun u => Function.update s.pc u .retry
      some { s with pc := Function.update pc t (.out none) }
    else none
  | .interrupt t =>
    if s.pc t = .asleep then some { s with pc := Function.update s.pc t .retry } else none

/-- No thread is inside. -/
def State.start (sem : Sem) : State ι := ⟨sem, fun _ => .out none⟩

/-! ## Where threads are -/

/-- What `nwaiters` counts. -/
def Pc.waiting : Pc → Bool
  | .futexWait | .asleep | .retry | .retrySwap _ | .leave => true
  | _ => false

/-- A waiter that is awake and still to try again. -/
def Pc.retrying : Pc → Bool
  | .retry | .retrySwap _ => true
  | _ => false

/-- A poster that is still to issue its wake. -/
def Pc.posting : Pc → Bool
  | .check | .wake => true
  | _ => false

/-- What has been read allows the change that is to come. -/
def Pc.Sound : Pc → Prop
  | .swap _ oldValue | .retrySwap oldValue => oldValue ≠ 0
  | .postSwap oldValue => oldValue ≠ semValueMax
  | _ => True

structure Inv (value : Int) (s : State ι) : Prop where
  nonneg : 0 ≤ s.sem.count
  bounded : s.sem.count ≤ semValueMax
  ledger : s.sem.count = value + s.sem.posts - s.sem.waits
  waiters : s.sem.nwaiters = tally Pc.waiting s.pc
  awake : (∃ t, s.pc t = .asleep) →
    s.sem.count ≤ tally Pc.posting s.pc + tally Pc.retrying s.pc
  sound : ∀ t, (s.pc t).Sound

theorem Pc.sleeping_iff {pc : Pc} : pc.sleeping = true ↔ pc = .asleep := by
  cases pc <;> simp [Pc.sleeping]

section Step

variable {value : Int} {s : State ι}

theorem Inv.start (nonneg : 0 ≤ value) (bounded : value ≤ semValueMax) :
    Inv value (State.start ⟨value, 0, 0, 0⟩ : State ι) where
  nonneg := nonneg
  bounded := bounded
  ledger := by simp [State.start]
  waiters := by
    have none : tally Pc.waiting (State.start ⟨value, 0, 0, 0⟩ : State ι).pc = 0 :=
      tally_eq_zero.mpr fun _ => rfl
    rw [none]
    rfl
  awake := fun ⟨t, asleep⟩ => by cases asleep
  sound := fun t => trivial

/-- While a thread sleeps, `nwaiters` is not 0. -/
theorem Inv.nwaiters_pos (inv : Inv value s) {t : ι} (asleep : s.pc t = .asleep) :
    0 < s.sem.nwaiters := by
  have counted : 0 < tally Pc.waiting s.pc := tally_pos (t := t) (by rw [asleep]; rfl)
  have waiters := inv.waiters
  omega

variable [DecidableEq ι]

/-- A thread moves to another place.  It goes to sleep only at a count of 0; otherwise it must not leave
    more of the count to the others. -/
theorem Inv.move (inv : Inv value s) (t : ι) {m : Sem} {place : Pc} (nonneg : 0 ≤ m.count)
    (bounded : m.count ≤ semValueMax) (ledger : m.count = value + m.posts - m.waits)
    (waiters : m.nwaiters + (s.pc t).waiting.toNat = s.sem.nwaiters + place.waiting.toNat)
    (sound : place.Sound) (awake : m.count = 0 ∨ place ≠ .asleep ∧ ((∃ u, s.pc u = .asleep) →
      m.count + (s.pc t).posting.toNat + (s.pc t).retrying.toNat ≤
        s.sem.count + place.posting.toNat + place.retrying.toNat)) :
    Inv value ⟨m, Function.update s.pc t place⟩ where
  nonneg := nonneg
  bounded := bounded
  ledger := ledger
  waiters := by
    have counted := tally_update Pc.waiting s.pc t place
    have before := inv.waiters
    dsimp only
    omega
  awake := by
    rintro ⟨u, asleep⟩
    have posters := tally_update Pc.posting s.pc t place
    have retries := tally_update Pc.retrying s.pc t place
    dsimp only at asleep ⊢
    cases awake with
    | inl zero => omega
    | inr stays =>
      obtain ⟨notAsleep, bound⟩ := stays
      rw [Function.update_apply] at asleep
      split at asleep
      · exact absurd asleep notAsleep
      · have before := inv.awake ⟨u, asleep⟩
        have after := bound ⟨u, asleep⟩
        omega
  sound := by
    intro u
    dsimp only
    rw [Function.update_apply]
    split
    · exact sound
    · exact inv.sound u

theorem Inv.access (inv : Inv value s) (t : ι) :
    Inv value ⟨(access s.sem (s.pc t)).1, Function.update s.pc t (access s.sem (s.pc t)).2⟩ := by
  have nonneg := inv.nonneg
  have bounded := inv.bounded
  have ledger := inv.ledger
  have sound := inv.sound t
  cases here : s.pc t with
  | out errno => rwa [Semaphore.access, ← here, Function.update_eq_self]
  | asleep => rwa [Semaphore.access, ← here, Function.update_eq_self]
  | wake => rwa [Semaphore.access, ← here, Function.update_eq_self]
  | read tryOnly =>
    simp only [Semaphore.access]
    split
    · next zero =>
      apply inv.move t nonneg bounded ledger
      · cases tryOnly <;> simp [here, Pc.waiting]
      · cases tryOnly <;> trivial
      · exact .inl zero
    · next some =>
      apply inv.move t nonneg bounded ledger
      · simp [here, Pc.waiting]
      · exact some
      · simp [here, Pc.posting, Pc.retrying]
  | swap tryOnly oldValue =>
    simp only [Semaphore.access]
    rw [here] at sound
    simp only [Pc.Sound] at sound
    split
    · apply inv.move t
      · dsimp only
        omega
      · dsimp only
        omega
      · dsimp only
        omega
      · simp [here, Pc.waiting]
      · trivial
      · refine .inr ⟨by simp, fun _ => ?_⟩
        simp [here, Pc.posting, Pc.retrying]
        omega
    · apply inv.move t nonneg bounded ledger
      · simp [here, Pc.waiting]
      · trivial
      · simp [here, Pc.posting, Pc.retrying]
  | enter =>
    apply inv.move t
    · exact nonneg
    · exact bounded
    · exact ledger
    · simp [Semaphore.access, here, Pc.waiting]
    · trivial
    · simp [Semaphore.access, here, Pc.posting, Pc.retrying]
  | futexWait =>
    simp only [Semaphore.access]
    split
    · next zero =>
      apply inv.move t nonneg bounded ledger
      · simp [here, Pc.waiting]
      · trivial
      · exact .inl zero
    · apply inv.move t nonneg bounded ledger
      · simp [here, Pc.waiting]
      · trivial
      · simp [here, Pc.posting, Pc.retrying]
  | retry =>
    simp only [Semaphore.access]
    split
    · next zero =>
      apply inv.move t nonneg bounded ledger
      · simp [here, Pc.waiting]
      · trivial
      · exact .inl zero
    · next some =>
      apply inv.move t nonneg bounded ledger
      · simp [here, Pc.waiting]
      · exact some
      · simp [here, Pc.posting, Pc.retrying]
  | retrySwap oldValue =>
    simp only [Semaphore.access]
    rw [here] at sound
    simp only [Pc.Sound] at sound
    split
    · apply inv.move t
      · dsimp only
        omega
      · dsimp only
        omega
      · dsimp only
        omega
      · simp [here, Pc.waiting]
      · trivial
      · refine .inr ⟨by simp, fun _ => ?_⟩
        simp [here, Pc.posting, Pc.retrying]
        omega
    · apply inv.move t nonneg bounded ledger
      · simp [here, Pc.waiting]
      · trivial
      · simp [here, Pc.posting, Pc.retrying]
  | leave =>
    apply inv.move t
    · exact nonneg
    · exact bounded
    · exact ledger
    · simp [Semaphore.access, here, Pc.waiting]
    · trivial
    · simp [Semaphore.access, here, Pc.posting, Pc.retrying]
  | postRead =>
    simp only [Semaphore.access]
    split
    · apply inv.move t nonneg bounded ledger
      · simp [here, Pc.waiting]
      · trivial
      · simp [here, Pc.posting, Pc.retrying]
    · next below =>
      apply inv.move t nonneg bounded ledger
      · simp [here, Pc.waiting]
      · exact below
      · simp [here, Pc.posting, Pc.retrying]
  | postSwap oldValue =>
    simp only [Semaphore.access]
    rw [here] at sound
    simp only [Pc.Sound] at sound
    split
    · apply inv.move t
      · dsimp only
        omega
      · dsimp only
        omega
      · dsimp only
        omega
      · simp [here, Pc.waiting]
      · trivial
      · refine .inr ⟨by simp, fun _ => ?_⟩
        simp [here, Pc.posting, Pc.retrying]
        omega
    · apply inv.move t nonneg bounded ledger
      · simp [here, Pc.waiting]
      · trivial
      · simp [here, Pc.posting, Pc.retrying]
  | check =>
    simp only [Semaphore.access]
    split
    · apply inv.move t nonneg bounded ledger
      · simp [here, Pc.waiting]
      · trivial
      · simp [here, Pc.posting, Pc.retrying]
    · next none =>
      -- nobody sleeps, as a sleeping thread is counted
      apply inv.move t nonneg bounded ledger
      · simp [here, Pc.waiting]
      · trivial
      · refine .inr ⟨by simp, fun ⟨u, asleep⟩ => ?_⟩
        have counted := inv.nwaiters_pos asleep
        omega

/-- A poster issues its wake: it hands what it owes to the thread that it wakes. -/
theorem Inv.wake (inv : Inv value s) {t : ι} (here : s.pc t = .wake) {woken : Option ι}
    (wakes : Wakes Pc.sleeping s.pc woken) :
    Inv value ⟨s.sem, Function.update (woken.elim s.pc fun u => Function.update s.pc u .retry) t
      (.out none)⟩ := by
  cases woken with
  | none =>
    apply inv.move t inv.nonneg inv.bounded inv.ledger
    · simp [here, Pc.waiting]
    · trivial
    · refine .inr ⟨by simp, fun ⟨u, asleep⟩ => ?_⟩
      have awake := wakes u
      rw [asleep] at awake
      cases awake
  | some u =>
    have asleep : s.pc u = .asleep := Pc.sleeping_iff.mp wakes
    have other : t ≠ u := by
      rintro rfl
      rw [here] at asleep
      cases asleep
    have counted := fun p => tally_update p s.pc u .retry
    have counted' := fun p => tally_update p (Function.update s.pc u .retry) t (.out none)
    simp only [Function.update_of_ne other, here] at counted'
    simp only [asleep] at counted
    have before := inv.awake ⟨u, asleep⟩
    have waiters := inv.waiters
    refine ⟨inv.nonneg, inv.bounded, inv.ledger, ?_, fun _ => ?_, fun v => ?_⟩
    · have first := counted Pc.waiting
      have second := counted' Pc.waiting
      simp only [Pc.waiting, Bool.toNat_true, Bool.toNat_false] at first second
      simp only [Option.elim_some]
      omega
    · have first := counted Pc.posting
      have second := counted' Pc.posting
      have first' := counted Pc.retrying
      have second' := counted' Pc.retrying
      simp only [Pc.posting, Pc.retrying, Bool.toNat_true, Bool.toNat_false] at first second first' second'
      simp only [Option.elim_some]
      omega
    · simp only [Option.elim_some, Function.update_apply]
      split
      · trivial
      · split
        · trivial
        · exact inv.sound v

theorem Inv.step (inv : Inv value s) {e : Event ι} {s' : State ι} (stepped : step s e = some s') :
    Inv value s' := by
  cases e with
  | call t call =>
    simp only [Semaphore.step] at stepped
    split at stepped
    · next here =>
      cases stepped
      apply inv.move t inv.nonneg inv.bounded inv.ledger
      · cases call <;> simp [here, Call.entry, Pc.waiting]
      · cases call <;> trivial
      · cases call <;> simp [here, Call.entry, Pc.posting, Pc.retrying]
    · cases stepped
  | go t =>
    simp only [Semaphore.step] at stepped
    split at stepped
    · cases stepped
    · cases stepped
    · cases stepped
    · cases stepped
      exact inv.access t
  | wake t woken =>
    simp only [Semaphore.step] at stepped
    split at stepped
    · next issued =>
      cases stepped
      exact inv.wake issued.1 issued.2
    · cases stepped
  | interrupt t =>
    simp only [Semaphore.step] at stepped
    split at stepped
    · next here =>
      cases stepped
      apply inv.move t inv.nonneg inv.bounded inv.ledger
      · simp [here, Pc.waiting]
      · trivial
      · simp [here, Pc.posting, Pc.retrying]
    · cases stepped

/-- In every state of every run, for any number of threads: the count is what the posts and waits have
    made of the initial value, and no wake-up is lost. -/
theorem semaphore_runs {sem : Sem} {initial : Int} (nonneg : 0 ≤ initial)
    (init : semInit false initial = .ok sem) {events : List (Event ι)} {s : State ι}
    (run : events.foldlM step (State.start sem) = some s) :
    0 ≤ s.sem.count ∧ s.sem.count ≤ semValueMax ∧
      s.sem.count = initial + s.sem.posts - s.sem.waits ∧
      ((∃ t, s.pc t = .asleep) →
        s.sem.count ≤ tally Pc.posting s.pc + tally Pc.retrying s.pc) := by
  simp only [semInit, Bool.false_eq_true, if_false] at init
  split at init
  · cases init
  next bounded =>
  cases init
  have inv := @foldlM_invariant _ _ step (Inv initial) (fun _ _ => True)
    (fun s e s' inv _ stepped => inv.step stepped) events _ s (Inv.start nonneg (Int.not_lt.mp bounded))
    (fun _ _ _ _ _ => trivial) run
  exact ⟨inv.nonneg, inv.bounded, inv.ledger, inv.awake⟩

end Step

/-- Thread `t` sleeps, and thread `u` has counted up but not yet looked at `nwaiters`. -/
def postToSleeper (t u : Fin 2) : List (Event (Fin 2)) :=
  [.call t .semWait, .go t, .go t, .go t, .call u .semPost, .go u, .go u]

theorem semaphore_runs_sleeper : ∃ s : State (Fin 2),
    (postToSleeper 0 1).foldlM step (State.start ⟨0, 0, 0, 0⟩) = some s ∧ s.sem.count = 1 ∧
      s.sem.count ≤ tally Pc.posting s.pc + tally Pc.retrying s.pc := by
  have places : ((postToSleeper 0 1).foldlM step (State.start ⟨0, 0, 0, 0⟩)).map
      (fun s => (s.pc 0, s.sem.count)) = some (.asleep, 1) := by decide
  obtain ⟨s, run, here⟩ := Option.map_eq_some_iff.mp places
  obtain ⟨asleep, count⟩ := Prod.mk.inj here
  exact ⟨s, run, count, (semaphore_runs (Int.le_refl 0) rfl run).2.2.2 ⟨0, asleep⟩⟩

end SandboxTEE.Pthread.Semaphore
