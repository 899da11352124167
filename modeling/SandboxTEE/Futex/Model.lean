import SandboxTEE.Lib.Ring
import SandboxTEE.Runtime.App

/-! # Futexes without the kernel (`sys_futex.c`, the part that is not for Linux)

Every call runs under `futex_wait_list_mu`, which a waiting thread gives up inside
`NaClCondVarWait`.  So a run is a sequence of critical sections: the first part of
`NaClSysFutexWaitAbs`, its second part behind the wait, and `NaClSysFutexWake`.  A wait may come
back at any time and with any status.
-/

namespace SandboxTEE.Futex

open SandboxTEE.Lib
open SandboxTEE.Runtime

inductive NaClSyncStatus where
  | ok
  | internalError
  | busy
  | mutexInvalid
  | mutexDeadlock
  | mutexPermission
  | mutexInterrupted
  | condvarTimedout
  | condvarIntr
  | semInterrupted
  | semRangeError
deriving DecidableEq

/-- `none` where the process is stopped. -/
def naClXlateNaClSyncStatus : NaClSyncStatus → Option Nat
  | .ok => some 0
  | .internalError => none
  | .busy => some 16
  | .mutexInvalid => some naClAbiEINVAL
  | .mutexDeadlock => some 35
  | .mutexPermission => some 1
  | .mutexInterrupted => some 4
  | .condvarTimedout => some 110
  | .condvarIntr => some 4
  | .semInterrupted => some 4
  | .semRangeError => some 34

/-- `nap->futex_wait_list_head`, or `futex_wait_list_node` of a thread. -/
inductive Node (threads : Nat) where
  | head
  | thread (natp : Fin threads)
deriving DecidableEq

variable {threads : Nat}

structure State (threads : Nat) where
  links : Links (Node threads)
  /-- `futex_wait_addr` of each thread. -/
  waitAddr : Fin threads → BitVec 32
  /-- The thread is inside `NaClCondVarWait`. -/
  blocked : Fin threads → Bool

/-- The head points to itself.  The fields of the threads are not set. -/
def State.init (junk : Links (Node threads)) (waitAddr : Fin threads → BitVec 32) :
    State threads where
  links := (junk.setNext .head (some .head)).setPrev .head (some .head)
  waitAddr := waitAddr
  blocked := fun _ => false

/-- What `NaClCopyInFromUser` does for the time and for the value. -/
structure CopyIn where
  abstime : Bool
  readValue : Option (BitVec 32)

/-- `NaClSysFutexWaitAbs` up to the wait.  It comes with the result when it does not wait, and is
    `none` where a null pointer is followed. -/
def naClSysFutexWaitAbs (s : State threads) (natp : Fin threads) (addr value abstimePtr : BitVec 32)
    (copyIn : CopyIn) : Option (State threads × Option Int) :=
  if abstimePtr ≠ 0 ∧ copyIn.abstime = false then some (s, some (-naClAbiEFAULT))
  else
    match copyIn.readValue with
    | none => some (s, some (-naClAbiEFAULT))
    | some readValue =>
      if readValue ≠ value then some (s, some (-naClAbiEAGAIN))
      else do
        let links ← s.links.addNodeAtEnd (.thread natp) .head
        some (⟨links, Function.update s.waitAddr natp addr, Function.update s.blocked natp true⟩,
          none)

/-- `NaClSysFutexWaitAbs` behind the wait. -/
def naClSysFutexWaitAbsEnd (s : State threads) (natp : Fin threads) (syncStatus : NaClSyncStatus) :
    Option (State threads × Int) := do
  let error ← naClXlateNaClSyncStatus syncStatus
  let (links, result) ←
    if s.links.next (.thread natp) = none then some (s.links, 0)
    else (s.links.removeNode (.thread natp)).map (·, -(error : Int))
  let links := (links.setNext (.thread natp) none).setPrev (.thread natp) none
  some (⟨links, Function.update s.waitAddr natp 0, Function.update s.blocked natp false⟩, result)

/-- What the loop of `NaClSysFutexWake` has done; `signalled` are the threads whose condition
    variable was signalled. -/
structure Woken (threads : Nat) where
  state : State threads
  wokenCount : BitVec 32
  signalled : List (Fin threads)

/-- The loop of `NaClSysFutexWake`, with a bound for the nodes it looks at. -/
def wakeLoop (addr : BitVec 32) : Nat → Option (Node threads) → BitVec 32 → Woken threads →
    Option (Woken threads)
  | 0, _, _, _ => none
  | fuel + 1, entry, nwake, w =>
    if nwake = 0 then some w
    else
      match entry with
      | none => none
      | some .head => some w
      | some (.thread waitingThread) =>
        let next := w.state.links.next (.thread waitingThread)
        if w.state.waitAddr waitingThread = addr then do
          let links ← w.state.links.removeNode (.thread waitingThread)
          let links := (links.setNext (.thread waitingThread) none).setPrev
            (.thread waitingThread) none
          wakeLoop addr fuel next (nwake - 1)
            ⟨⟨links, Function.update w.state.waitAddr waitingThread 0, w.state.blocked⟩,
              w.wokenCount + 1, w.signalled ++ [waitingThread]⟩
        else wakeLoop addr fuel next nwake w

/-- No more nodes are in the list than there are threads. -/
def naClSysFutexWake (s : State threads) (addr nwake : BitVec 32) : Option (Woken threads) :=
  wakeLoop addr (threads + 1) (s.links.next .head) nwake ⟨s, 0, []⟩

/-! ## Runs -/

inductive Event (threads : Nat) where
  | wait (natp : Fin threads) (addr value abstimePtr : BitVec 32) (copyIn : CopyIn)
  | wake (natp : Fin threads) (addr nwake : BitVec 32)
  /-- The wait of a thread comes back. -/
  | resume (natp : Fin threads) (syncStatus : NaClSyncStatus)

inductive Outcome (threads : Nat) where
  | blocks
  | returns (result : Int)
  | wakes (result : Int) (signalled : List (Fin threads))
deriving DecidableEq

/-- A thread that waits makes no call, and only such a thread comes back from a wait. -/
def Enabled (s : State threads) : Event threads → Prop
  | .wait natp .. | .wake natp .. => s.blocked natp = false
  | .resume natp syncStatus => s.blocked natp = true ∧ naClXlateNaClSyncStatus syncStatus ≠ none

instance (s : State threads) : (e : Event threads) → Decidable (Enabled s e)
  | .wait .. | .wake .. => inferInstanceAs (Decidable (_ = _))
  | .resume .. => inferInstanceAs (Decidable (_ ∧ _))

/-- The critical section of an event. -/
def run (s : State threads) : Event threads → Option (State threads × Outcome threads)
  | .wait natp addr value abstimePtr copyIn =>
    (naClSysFutexWaitAbs s natp addr value abstimePtr copyIn).map fun done =>
      (done.1, done.2.elim .blocks .returns)
  | .wake _ addr nwake =>
    (naClSysFutexWake s addr nwake).map fun done =>
      (done.state, .wakes done.wokenCount.toInt done.signalled)
  | .resume natp syncStatus =>
    (naClSysFutexWaitAbsEnd s natp syncStatus).map fun done => (done.1, .returns done.2)

def step (s : State threads) (e : Event threads) : Option (State threads) :=
  if Enabled s e then (run s e).map (·.1) else none

end SandboxTEE.Futex
