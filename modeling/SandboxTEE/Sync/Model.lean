import SandboxTEE.Futex.Model
import SandboxTEE.Lib.LockWord

/-! # Mutexes and condition variables on host futexes (`sgx/lock.c`, `sgx/condition_variable.c`)

One condition variable and the mutex that its callers hold, at the granularity of single accesses
to the two words.  The futex calls go to the host, which may come back from them at any time and
whose answer nobody reads; `seq` is only handed to it, so neither `seq` nor `NaClCondVarSignal` and
`NaClCondVarBroadcast`, which count it up, are kept.
-/

namespace SandboxTEE.Sync

open SandboxTEE.Lib
open SandboxTEE.Futex (NaClSyncStatus)

def mutexSpinlockTimes : Nat := 100
def mutexUnlocked : BitVec 32 := 0
def mutexLocked : BitVec 32 := 1
def mutexContended : BitVec 32 := 2

/-- The accesses of `NaClMutexLock`. -/
inductive LockPc where
  /-- `icmpxchg` in round `i`. -/
  | spin (i : Nat)
  /-- `ixchg(&mp->mu, MUTEX_CONTENDED)`. -/
  | exchange
  /-- In the host. -/
  | wait
deriving DecidableEq

/-- The accesses of `NaClMutexUnlock`. -/
inductive UnlockPc where
  /-- `mp->mu == MUTEX_CONTENDED`. -/
  | read
  /-- `mp->mu = MUTEX_UNLOCKED`. -/
  | write
  /-- `ixchg(&mp->mu, MUTEX_UNLOCKED)`. -/
  | exchange
  /-- `if (mp->mu)` in round `i`. -/
  | spin (i : Nat)
  /-- `icmpxchg` in round `i`. -/
  | raise (i : Nat)
  /-- In the host. -/
  | wake
deriving DecidableEq

/-- The accesses of `NaClCondVarWait`. -/
inductive WaitPc where
  /-- `int seq = cvp->seq`. -/
  | seq
  /-- `if (cvp->mu.mu)`. -/
  | check
  /-- `mp->mu` as an argument of `iatomic_cmpxchg`. -/
  | argument
  /-- `iatomic_cmpxchg(&cvp->mu.mu, 0, value)`. -/
  | copy (value : BitVec 32)
  /-- The left side of `cvp->mu.mu != mp->mu`. -/
  | readCopy
  /-- The right side. -/
  | compare (copied : BitVec 32)
  | unlock (pc : UnlockPc)
  /-- In the host, on `seq`. -/
  | park
  /-- `iatomic_xchg(&mp->mu, 2)`. -/
  | exchange
  /-- In the host, on the mutex. -/
  | wait
deriving DecidableEq

inductive Call where
  | lock
  | unlock
  | wait
deriving DecidableEq

inductive Pc where
  | idle
  | lock (pc : LockPc)
  | unlock (pc : UnlockPc)
  | wait (pc : WaitPc)
deriving DecidableEq

/-- Where a call goes on, or what it returns. -/
abbrev Next (pc : Type) := pc ⊕ NaClSyncStatus

variable {ι : Type}

/-- One access of `NaClMutexLock` by `natp`. -/
def naClMutexLock (mu : LockWord ι) (natp : ι) : LockPc → LockWord ι × Next LockPc
  | .spin i =>
    if mu.value = mutexUnlocked then (mu.store natp mutexLocked, .inr .ok)
    else if i + 1 < mutexSpinlockTimes then (mu, .inl (.spin (i + 1)))
    else if mu.value = mutexLocked then (mu, .inl .exchange)
    else (mu, .inl .wait)
  | .exchange =>
    (mu.store natp mutexContended, if mu.value = mutexUnlocked then .inr .ok else .inl .wait)
  | .wait => (mu, .inl .exchange)

/-- One access of `NaClMutexUnlock` by `natp`. -/
def naClMutexUnlock (mu : LockWord ι) (natp : ι) : UnlockPc → LockWord ι × Next UnlockPc
  | .read => (mu, .inl (if mu.value = mutexContended then .write else .exchange))
  | .write => (mu.store natp mutexUnlocked, .inl (.spin 0))
  | .exchange =>
    (mu.store natp mutexUnlocked, if mu.value = mutexLocked then .inr .ok else .inl (.spin 0))
  | .spin i =>
    if i < mutexSpinlockTimes * 2 then
      (mu, .inl (if mu.value ≠ mutexUnlocked then .raise i else .spin (i + 1)))
    else (mu, .inl .wake)
  | .raise i =>
    (mu.cmpxchg natp mutexLocked mutexContended,
      if mu.value ≠ mutexUnlocked then .inr .ok else .inl (.spin (i + 1)))
  | .wake => (mu, .inr .ok)

/-- The words: `cvp->mu.mu` and `mp->mu`. -/
structure Words (ι : Type) where
  cvMu : BitVec 32
  mu : LockWord ι

/-- One access of `NaClCondVarWait` by `natp`.  With `own`, `mp` is `&cvp->mu`; then there is only
    one word and `cvMu` is not looked at. -/
def naClCondVarWait (own : Bool) (m : Words ι) (natp : ι) : WaitPc → Words ι × Next WaitPc
  | .seq => (m, .inl (if own then .unlock .read else .check))
  | .check => (m, if m.cvMu ≠ 0 then .inr .mutexInvalid else .inl .argument)
  | .argument => (m, .inl (.copy m.mu.value))
  | .copy value => (⟨if m.cvMu = 0 then value else m.cvMu, m.mu⟩, .inl .readCopy)
  | .readCopy => (m, .inl (.compare m.cvMu))
  | .compare copied =>
    (m, if copied ≠ m.mu.value then .inr .internalError else .inl (.unlock .read))
  | .unlock pc =>
    let (mu, next) := naClMutexUnlock m.mu natp pc
    (⟨m.cvMu, mu⟩,
      match next with
      | .inl pc => .inl (.unlock pc)
      | .inr ret => if ret ≠ .ok then .inr .internalError else .inl .park)
  | .park => (m, .inl .exchange)
  | .exchange =>
    (⟨m.cvMu, m.mu.store natp mutexContended⟩,
      if m.mu.value ≠ mutexUnlocked then .inl .wait else .inr .ok)
  | .wait => (m, .inl .exchange)

/-! ## Runs -/

/-- A call that came back. -/
structure Return (ι : Type) where
  natp : ι
  call : Call
  status : NaClSyncStatus
  /-- The caller holds the mutex now. -/
  held : Bool
  /-- The call gave the mutex up on its way. -/
  released : Bool
deriving DecidableEq

structure State (ι : Type) where
  words : Words ι
  pc : ι → Pc
  /-- The call that the thread is in has given the mutex up. -/
  released : ι → Bool
  returns : List (Return ι)

/-- After `NaClMutexCtor` and `NaClCondVarCtor`. -/
def State.init : State ι where
  words := ⟨0, LockWord.free⟩
  pc := fun _ => .idle
  released := fun _ => false
  returns := []

inductive Event (ι : Type) where
  | call (natp : ι) (call : Call)
  /-- The next access of the call that `natp` is in. -/
  | go (natp : ι)

def Call.entry : Call → Pc
  | .lock => .lock (.spin 0)
  | .unlock => .unlock .read
  | .wait => .wait .seq

variable [DecidableEq ι]

/-- A mutex is locked by who does not hold it, and unlocked and waited with by who does. -/
def Entitled (mu : LockWord ι) (natp : ι) : Call → Prop
  | .lock => mu.holder ≠ some natp
  | .unlock | .wait => mu.holder = some natp

instance (mu : LockWord ι) (natp : ι) : (call : Call) → Decidable (Entitled mu natp call)
  | .lock => inferInstanceAs (Decidable (_ ≠ _))
  | .unlock | .wait => inferInstanceAs (Decidable (_ = _))

/-- What becomes of `natp` when an access of its call leaves `words` and `next`. -/
def State.advance (s : State ι) (natp : ι) (call : Call) (words : Words ι) (next : Next Pc) :
    State ι :=
  let released := s.released natp || decide (s.words.mu.holder = some natp ∧ words.mu.holder = none)
  { words
    pc := Function.update s.pc natp (next.elim id fun _ => .idle)
    released := Function.update s.released natp released
    returns := next.elim (fun _ => s.returns) fun status =>
      s.returns ++ [⟨natp, call, status, decide (words.mu.holder = some natp), released⟩] }

def step (own : Bool) (s : State ι) : Event ι → Option (State ι)
  | .call natp call =>
    if s.pc natp = .idle ∧ Entitled s.words.mu natp call then
      some { s with
        pc := Function.update s.pc natp call.entry
        released := Function.update s.released natp false }
    else none
  | .go natp =>
    match s.pc natp with
    | .idle => none
    | .lock pc =>
      let (mu, next) := naClMutexLock s.words.mu natp pc
      some (s.advance natp .lock ⟨s.words.cvMu, mu⟩ (next.map .lock id))
    | .unlock pc =>
      let (mu, next) := naClMutexUnlock s.words.mu natp pc
      some (s.advance natp .unlock ⟨s.words.cvMu, mu⟩ (next.map .unlock id))
    | .wait pc =>
      let (words, next) := naClCondVarWait own s.words natp pc
      some (s.advance natp .wait words (next.map .wait id))

end SandboxTEE.Sync
