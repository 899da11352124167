import SandboxTEE.Memory.Calls
import SandboxTEE.IntervalMultiset.Multisets

/-! # I/O calls beside memory calls

Every I/O system call locks the user ranges it reads or writes, does its work, and
unlocks them (`NaClVmIoWillStart`, `NaClVmIoHasEnded`); another thread may change the
memory map at any point between.  Each lock and unlock, and each memory call, runs under
`nap->mu` and is one action; the threads take their actions in any order.
-/

namespace SandboxTEE.Memory

open SandboxTEE.Runtime SandboxTEE.Vmmap
open SandboxTEE.IntervalMultiset

/-- A range of user addresses that an I/O call locks. -/
structure Buffer where
  addr : Nat
  length : Nat

/-- The two arguments of `NaClVmIoWillStart` and `NaClVmIoHasEnded`. -/
def Buffer.interval (b : Buffer) : Interval := ⟨b.addr, lastByte b.addr b.length⟩

def naClAbiImcIovecMax : Nat := 256
def naClAbiImcUserDescMax : Nat := 8
def int32Max : Nat := 2 ^ 31 - 1

/-! ## The calls up to the locks -/

/-- `NaClSysRead` and `NaClSysWrite`: an error number, or the ranges to lock.  `ndp` says
    whether the descriptor exists. -/
def sequentialIo (nap : NaClApp) (ndp : Bool) (buf count : BitVec 32) :
    Except Nat (List Buffer) :=
  if ndp = false then .error naClAbiEBADF
  else if naClUserToSysAddrRange nap.space buf.toNat count.toNat = none then .error naClAbiEFAULT
  else .ok [⟨buf.toNat, min count.toNat int32Max⟩]

def naClSysRead := sequentialIo
def naClSysWrite := sequentialIo

/-- `NaClSysPRead` and `NaClSysPWrite`, which copy in an offset of eight bytes. -/
def positionalIo (nap : NaClApp) (ndp : Bool) (usrAddr bufferBytes offsetAddr : BitVec 32) :
    Except Nat (List Buffer) :=
  if ndp = false then .error naClAbiEBADF
  else if naClUserToSysAddrRange nap.space offsetAddr.toNat 8 = none then .error naClAbiEFAULT
  else if naClUserToSysAddrRange nap.space usrAddr.toNat bufferBytes.toNat = none then
    .error naClAbiEFAULT
  else .ok [⟨usrAddr.toNat, bufferBytes.toNat⟩]

def naClSysPRead := positionalIo
def naClSysPWrite := positionalIo

/-- `struct NaClAbiNaClImcMsgHdr`, as it is copied in. -/
structure MsgHdr where
  iov : BitVec 32
  iovLength : BitVec 32
  descv : BitVec 32
  descLength : BitVec 32

/-- The checks of a message header and its I/O vector.  `naiov` is the vector as it is
    copied in, a base and a length for each index. -/
def messageIov (nap : NaClApp) (nanimhp : BitVec 32) (hdr : MsgHdr)
    (naiov : Nat → BitVec 32 × BitVec 32) : Except Nat (List Buffer) :=
  if naClUserToSysAddrRange nap.space nanimhp.toNat 20 = none then .error naClAbiEFAULT
  else if naClAbiImcIovecMax < hdr.iovLength.toNat then .error naClAbiEINVAL
  else if naClAbiImcUserDescMax < hdr.descLength.toNat then .error naClAbiEINVAL
  else if 0 < hdr.iovLength.toNat ∧
      naClUserToSysAddrRange nap.space hdr.iov.toNat (hdr.iovLength.toNat * 8) = none then
    .error naClAbiEFAULT
  else
    let buffers := (List.range hdr.iovLength.toNat).map fun i =>
      Buffer.mk (naiov i).1.toNat (naiov i).2.toNat
    if buffers.any fun b => (naClUserToSysAddrRange nap.space b.addr b.length).isNone then
      .error naClAbiEFAULT
    else .ok buffers

/-- The descriptors of the message are looked up after the socket; `descs` is the outcome
    of the lookups. -/
def naClSysImcSendmsg (nap : NaClApp) (ndp : Bool) (nanimhp : BitVec 32) (hdr : MsgHdr)
    (naiov : Nat → BitVec 32 × BitVec 32) (descs : Except Nat Unit) :
    Except Nat (List Buffer) := do
  let buffers ← messageIov nap nanimhp hdr naiov
  if ndp = false then .error naClAbiEBADF
  else if hdr.descLength = 0 then .ok buffers
  else if naClUserToSysAddrRange nap.space hdr.descv.toNat (hdr.descLength.toNat * 4) = none then
    .error naClAbiEFAULT
  else do
    descs
    .ok buffers

/-- The range for the received descriptors is checked before the socket is looked up. -/
def naClSysImcRecvmsg (nap : NaClApp) (ndp : Bool) (nanimhp : BitVec 32) (hdr : MsgHdr)
    (naiov : Nat → BitVec 32 × BitVec 32) : Except Nat (List Buffer) := do
  let buffers ← messageIov nap nanimhp hdr naiov
  if 0 < hdr.descLength.toNat ∧
      naClUserToSysAddrRange nap.space hdr.descv.toNat (hdr.descLength.toNat * 4) = none then
    .error naClAbiEFAULT
  else if ndp = false then .error naClAbiEBADF
  else .ok buffers

inductive IoCall where
  | read (ndp : Bool) (buf count : BitVec 32)
  | write (ndp : Bool) (buf count : BitVec 32)
  | pread (ndp : Bool) (usrAddr bufferBytes offsetAddr : BitVec 32)
  | pwrite (ndp : Bool) (usrAddr bufferBytes offsetAddr : BitVec 32)
  | sendmsg (ndp : Bool) (nanimhp : BitVec 32) (hdr : MsgHdr)
      (naiov : Nat → BitVec 32 × BitVec 32) (descs : Except Nat Unit)
  | recvmsg (ndp : Bool) (nanimhp : BitVec 32) (hdr : MsgHdr)
      (naiov : Nat → BitVec 32 × BitVec 32)

def IoCall.buffers (nap : NaClApp) : IoCall → Except Nat (List Buffer)
  | .read ndp buf count => naClSysRead nap ndp buf count
  | .write ndp buf count => naClSysWrite nap ndp buf count
  | .pread ndp usrAddr bufferBytes offsetAddr =>
    naClSysPRead nap ndp usrAddr bufferBytes offsetAddr
  | .pwrite ndp usrAddr bufferBytes offsetAddr =>
    naClSysPWrite nap ndp usrAddr bufferBytes offsetAddr
  | .sendmsg ndp nanimhp hdr naiov descs => naClSysImcSendmsg nap ndp nanimhp hdr naiov descs
  | .recvmsg ndp nanimhp hdr naiov => naClSysImcRecvmsg nap ndp nanimhp hdr naiov

/-! ## Locks -/

def ofMultiset {α : Type} (result : Except Failure α) : Except Fatal α :=
  match result with
  | .ok a => .ok a
  | .error failure => .error (.intervalMultiset failure)

def naClVmIoWillStart (nap : NaClApp) (addrFirstUsr addrLastUsr : Nat) :
    Except Fatal NaClApp := do
  let regions ← ofMultiset
    (naClIntervalRangeTreeAddInterval nap.memIoRegions addrFirstUsr addrLastUsr)
  .ok { nap with memIoRegions := regions }

def naClVmIoHasEnded (nap : NaClApp) (addrFirstUsr addrLastUsr : Nat) :
    Except Fatal NaClApp := do
  let regions ← ofMultiset
    (naClIntervalRangeTreeRemoveInterval nap.memIoRegions addrFirstUsr addrLastUsr)
  .ok { nap with memIoRegions := regions }

/-! ## Threads and their actions -/

/-- Where a thread is in an I/O call: it has still to lock the ranges `todo` and holds
    `locked`, or has still to unlock `todo`. -/
inductive Phase where
  | idle
  | starting (todo locked : List Buffer)
  | ending (todo : List Buffer)

/-- The ranges the thread holds. -/
def Phase.held : Phase → List Buffer
  | .idle => []
  | .starting _ locked => locked
  | .ending todo => todo

structure State where
  nap : NaClApp
  threads : List Phase

/-- The thread indices of an application are below `NACL_THREAD_MAX` (`LDT_ENTRIES`). -/
def naClThreadMax : Nat := 8192

inductive MemCall where
  | brk (newBreak : BitVec 32)
  | mmap (call : MmapCall)
  | munmap (start length : BitVec 32)
  | mprotect (getFlags : DescId → BitVec 32) (start length prot : BitVec 32)

def MemCall.run (nap : NaClApp) : MemCall → CallResult
  | .brk newBreak => naClSysBrk nap newBreak.toNat
  | .mmap call => naClSysMmapIntern nap call
  | .munmap start length => naClSysMunmap nap start length
  | .mprotect getFlags start length prot =>
    naClSysMprotectInternal getFlags nap start length.toNat prot

inductive Action where
  /-- An idle thread makes an I/O call. -/
  | ioCall (thread : Nat) (call : IoCall)
  /-- A thread locks or unlocks its next range. -/
  | advance (thread : Nat)
  /-- Some thread makes a memory call. -/
  | memCall (call : MemCall)

def State.setPhase (s : State) (thread : Nat) (phase : Phase) : State :=
  { s with threads := s.threads.set thread phase }

/-- An action of a thread that is not at it changes nothing. -/
def step (s : State) : Action → Except Fatal State
  | .ioCall thread call =>
    match s.threads[thread]?, call.buffers s.nap with
    | some .idle, .ok buffers => .ok (s.setPhase thread (.starting buffers []))
    | _, _ => .ok s
  | .advance thread =>
    match s.threads[thread]? with
    | some (.starting (b :: todo) locked) => do
      let nap ← naClVmIoWillStart s.nap b.interval.left b.interval.right
      .ok ({ s with nap := nap }.setPhase thread (.starting todo (locked ++ [b])))
    | some (.starting [] locked) => .ok (s.setPhase thread (.ending locked))
    | some (.ending (b :: todo)) => do
      let nap ← naClVmIoHasEnded s.nap b.interval.left b.interval.right
      .ok ({ s with nap := nap }.setPhase thread (.ending todo))
    | some (.ending []) => .ok (s.setPhase thread .idle)
    | _ => .ok s
  | .memCall call => do
    let (_, nap, _) ← call.run s.nap
    .ok { s with nap := nap }

end SandboxTEE.Memory
