import SandboxTEE.DescTable.References
import SandboxTEE.Xcall.AddressOutputs

/-! # Socket descriptors (`nacl_desc_socket.c`, `sys_socket.c`)

A socket descriptor is made before there is a host socket, and keeps the host's descriptor in
`hd->d`.  The five socket calls, and reading, writing and closing, run one after another here; a
call leaves the trace of the wrappers it has entered.
-/

namespace SandboxTEE.Socket

open SandboxTEE.DescTable
open SandboxTEE.Lib (Traced Outcome)
open SandboxTEE.Runtime
open SandboxTEE.Xcall (Enclave TransferReply)
open SandboxTEE.Xcall.Frames (Call PeerReads UintParam WriteReply addrlenAfter)

def naClAbiEBADR : Int := 53
def naClAbiESOCKTNOSUPPORT : Int := 94
def afInet : Int := 2
def sockStream : Int := 1
def ipprotoTcp : Int := 6

/-- `(uintptr_t) -1` -/
def kNaClBadAddress : Nat := 2 ^ 64 - 1

/-- `struct NaClDescSocketDesc` with its `hd->d`. -/
structure SocketDesc where
  d : Int
  myaddr : Nat
  myaddrlen : BitVec 32

/-- Descriptors of other types have no socket calls. -/
inductive Desc where
  | socket (self : SocketDesc)
  | other

structure State where
  table : DescTable.State
  /-- Of each object. -/
  descs : Nat → Desc

inductive Stop where
  | table (stop : DescTable.Stop)
  /-- A NULL pointer is dereferenced. -/
  | null

/-- What a call finds around it: the stack pointers, what `malloc` returns, whether `realloc`
    succeeds, and the replies of the host. -/
structure Context where
  e : Enclave
  nap : AddressSpace
  ustack : Nat
  /-- The place of a length that a wrapper updates. -/
  lenPtr : Nat
  lenPtrGiven : lenPtr ≠ 0
  junk : SocketDesc
  allocated : Bool
  peer : PeerReads
  transfer : TransferReply
  sent : WriteReply
  closed : Int
  /-- The result of a descriptor of another type. -/
  other : Int

abbrev Sys := ExceptT Stop (Traced State Call)

variable (ctx : Context)

def Context.ran (c : Call) : Outcome Nat Xcall.Frames.Access Int := (c.run ctx.e).run ctx.ustack

def Context.lenParam (value : BitVec 32) : UintParam :=
  ⟨⟨ctx.lenPtr, value.toNat, ctx.lenPtrGiven⟩, value.isLt⟩

namespace Sys

def stop {α : Type} (why : Stop) : Sys α := fun s => ⟨.error why, s, []⟩

def get : Sys State := fun s => ⟨.ok s, s, []⟩

def set (s : State) : Sys Unit := fun _ => ⟨.ok (), s, []⟩

/-- A wrapper is entered. -/
def ocall (c : Call) : Sys Int := fun s => ⟨.ok (ctx.ran c).result, s, [c]⟩

/-- What the descriptor table does. -/
def onTable {α : Type} (f : DescTable.State → Except DescTable.Stop (α × DescTable.State)) :
    Sys α := fun s =>
  match f s.table with
  | .error why => ⟨.error (.table why), s, []⟩
  | .ok (a, table) => ⟨.ok a, { s with table := table }, []⟩

def setDesc (ndp : Nat) (desc : Desc) : Sys Unit := fun s =>
  ⟨.ok (), { s with descs := Function.update s.descs ndp desc }, []⟩

end Sys

open Sys

/-! ## Descriptors -/

def naClAppGetDesc (d : Int) : Sys (Option Nat) := onTable fun t =>
  (naClAppGetDescMu t d).map fun r => (r.1, { t with objects := r.2 })

def naClAppSetDescAvail (ndp : Nat) : Sys Int := onTable fun t =>
  (naClAppSetDescAvailMu ctx.allocated t ndp).map fun r => (r.1, r.2)

/-- `NaClDescSocketDescDtor`, which for a socket closes whatever number `hd->d` holds. -/
def destroy (ndp : Nat) : Sys Unit := do
  match (← get).descs ndp with
  | .socket self =>
    let retval ← ocall ctx (.close self.d ctx.closed)
    if retval ≠ 0 then stop (.table .fatal) else pure ()
  | .other => pure ()

def naClDescUnref : Option Nat → Sys Unit
  | none => stop .null
  | some ndp => do
    onTable fun t => (naClRefCountUnref t.objects ndp).map fun objects =>
      ((), { t with objects := objects })
    if (← get).table.objects[ndp]? = some none then destroy ctx ndp else pure ()

/-! ## Sockets -/

/-- `NaClDescSocketDescMake`: only `hd->d` is set. -/
def naClDescSocketDescMake : Sys Nat := do
  let s ← get
  let ndp := s.table.objects.length
  set ⟨{ s.table with objects := s.table.objects ++ [some 1] },
    Function.update s.descs ndp (.socket { ctx.junk with d := 0 })⟩
  pure ndp

def naClDescSocketDescRead (self : SocketDesc) (buf : Nat) (len : UInt32) : Sys Int :=
  ocall ctx (.read self.d buf len ctx.transfer)

def naClDescSocketDescWrite (self : SocketDesc) (buf : Nat) (len : UInt32) : Sys Int :=
  ocall ctx (.write self.d buf len ctx.sent)

def naClDescSocketBind (ndp : Nat) (self : SocketDesc) (addr : Nat) (addrlen : BitVec 64) :
    Sys Int := do
  setDesc ndp (.socket { self with myaddr := addr, myaddrlen := addrlen.setWidth 32 })
  pure 0

/-! The wrappers that the three operations on host sockets call. -/

def listenCall (self : SocketDesc) : Call :=
  .sockListen afInet sockStream ipprotoTcp self.myaddr (ctx.lenParam self.myaddrlen)
    ctx.peer.toPeerReply

def acceptCall (self : SocketDesc) (addr : Nat) (addrlen : BitVec 64) : Call :=
  .sockAccept self.d addr (some (ctx.lenParam (addrlen.setWidth 32))) ctx.peer.toPeerReply

def connectCall (addr : Nat) (addrlen : BitVec 64) : Call :=
  .sockConnect afInet sockStream ipprotoTcp addr (UInt32.ofBitVec (addrlen.setWidth 32)) 0 none
    ctx.peer.toPeerReply

/-- The error for an address that was never bound is overwritten by the result of the wrapper,
    so that nothing is left of the check. -/
def naClDescSocketListen (ndp : Nat) (self : SocketDesc) : Sys Int := do
  let retval ← ocall ctx (listenCall ctx self)
  let addrlen := addrlenAfter (ctx.lenParam self.myaddrlen).toOutParam ctx.peer.published
    (ctx.ran (listenCall ctx self)).events
  setDesc ndp (.socket { self with
    myaddrlen := BitVec.ofNat 32 addrlen
    d := if retval > 0 then retval else self.d })
  pure retval

/-- The new descriptor, or an error. -/
def naClDescSocketAccept (self : SocketDesc) (addr : Nat) (addrlen : BitVec 64) :
    Sys (Except Int Nat) := do
  let retval ← ocall ctx (acceptCall ctx self addr addrlen)
  if retval < 0 then pure (.error (-naClAbiEINVAL))
  else
    let peer ← naClDescSocketDescMake ctx
    setDesc peer (.socket { ctx.junk with d := retval })
    pure (.ok peer)

def naClDescSocketConnect (ndp : Nat) (self : SocketDesc) (addr : Nat) (addrlen : BitVec 64) :
    Sys Int := do
  let retval ← ocall ctx (connectCall ctx addr addrlen)
  if retval < 0 then pure (-naClAbiEINVAL)
  else
    setDesc ndp (.socket { self with d := retval })
    pure 0

/-! ## System calls -/

/-- `NaClUserToSysAddrRange` -/
def sysAddr (uaddr : BitVec 32) (count : BitVec 64) : Nat :=
  (naClUserToSysAddrRange ctx.nap uaddr.toNat count.toNat).getD kNaClBadAddress

def naClSysSocketOpen (domain type protocol : Int) : Sys Int :=
  if domain ≠ afInet ∨ type ≠ sockStream ∨ protocol ≠ ipprotoTcp then pure (-naClAbiESOCKTNOSUPPORT)
  else do
    let desc ← naClDescSocketDescMake ctx
    naClAppSetDescAvail ctx desc

def naClSysSocketBind (sockfd : Int) (myaddr : BitVec 32) (addrlen : BitVec 64) : Sys Int := do
  match ← naClAppGetDesc sockfd with
  | none => pure (-naClAbiEBADR)
  | some ndp =>
    let retval ← match (← get).descs ndp with
      | .socket self => naClDescSocketBind ndp self (sysAddr ctx myaddr addrlen) addrlen
      | .other => pure (-naClAbiEINVAL)
    if retval ≠ 0 then pure (-naClAbiEINVAL) else pure retval

/-- The host has a backlog of its own. -/
def naClSysSocketListen (sockfd _backlog : Int) : Sys Int := do
  match ← naClAppGetDesc sockfd with
  | none => pure (-naClAbiEBADR)
  | some ndp =>
    match (← get).descs ndp with
    | .socket self => naClDescSocketListen ctx ndp self
    | .other => pure (-naClAbiEINVAL)

def naClSysSocketAccept (sockfd : Int) (addr : BitVec 32) (addrlen : BitVec 64) : Sys Int := do
  match ← naClAppGetDesc sockfd with
  | none => pure (-naClAbiEBADR)
  | some ndp =>
    let accepted ← match (← get).descs ndp with
      | .socket self => naClDescSocketAccept ctx self (sysAddr ctx addr addrlen) addrlen
      | .other => pure (.error (-naClAbiEINVAL))
    match accepted with
    | .ok peer =>
      let retval ← naClAppSetDescAvail ctx peer
      naClDescUnref ctx (some ndp)
      pure retval
    | .error _ =>
      naClDescUnref ctx (some ndp)
      pure (-naClAbiEINVAL)

/-- The exit through `cleanup` releases a descriptor that was not found as well. -/
def naClSysSocketConnect (sockfd : Int) (servaddr : BitVec 32) (addrlen : BitVec 64) :
    Sys Int := do
  match ← naClAppGetDesc sockfd with
  | none =>
    naClDescUnref ctx none
    pure (-naClAbiEBADR)
  | some ndp =>
    let retval ← match (← get).descs ndp with
      | .socket self => naClDescSocketConnect ctx ndp self (sysAddr ctx servaddr addrlen) addrlen
      | .other => pure (-naClAbiEINVAL)
    naClDescUnref ctx (some ndp)
    pure retval

/-- `NaClSysRead` and `NaClSysWrite`, but for the method they call. -/
def naClSysTransfer (method : SocketDesc → Nat → UInt32 → Sys Int) (d : Int)
    (buf count : BitVec 32) : Sys Int := do
  match ← naClAppGetDesc d with
  | none => pure (-naClAbiEBADF)
  | some ndp =>
    match naClUserToSysAddrRange ctx.nap buf.toNat count.toNat with
    | none =>
      naClDescUnref ctx (some ndp)
      pure (-naClAbiEFAULT)
    | some sysaddr =>
      let count := if count.toNat > int32Max then BitVec.ofNat 32 int32Max else count
      let result ← match (← get).descs ndp with
        | .socket self => method self sysaddr (UInt32.ofBitVec count)
        | .other => pure ctx.other
      naClDescUnref ctx (some ndp)
      pure result

def naClSysRead (d : Int) (buf count : BitVec 32) : Sys Int :=
  naClSysTransfer ctx (naClDescSocketDescRead ctx) d buf count

def naClSysWrite (d : Int) (buf count : BitVec 32) : Sys Int :=
  naClSysTransfer ctx (naClDescSocketDescWrite ctx) d buf count

def naClSysClose (d : Int) : Sys Int := do
  match ← naClAppGetDesc d with
  | none => pure (-naClAbiEBADF)
  | some ndp =>
    onTable fun t => (naClAppSetDescMu false t (index d) none).map fun t => ((), t)
    naClDescUnref ctx (some ndp)
    pure 0

end SandboxTEE.Socket
