import SandboxTEE.DebugStub.Packet
import SandboxTEE.Lib.ByteMemory
import SandboxTEE.Lib.Extent
import SandboxTEE.Lib.SortedAssoc
import SandboxTEE.Runtime.App

/-! # Memory and breakpoints of the debugged module

`Target::ProcessPacket` for the packets that read and write memory and that set and remove
breakpoints (`debug_stub/target.cc`, x86-64), with the memory access of
`debug_stub/posix/platform_impl.cc`.
-/

namespace SandboxTEE.DebugStub

open SandboxTEE.Lib (bytesAt store find insertWith updateAt writeAt)
open SandboxTEE.Runtime

/-- The fields of `struct NaClApp` that the target reads.  Untrusted addresses have 32 bits, and
    the dynamic text lies in the sandbox. -/
structure Nap extends AddressSpace where
  dynamicTextEnd : Nat
  /-- `validator->IsOnInstBoundary`: the bundle address, the address and the code. -/
  isOnInstBoundary : Nat → Nat → List Char8 → Bool
  addrBits_le : addrBits ≤ 32
  dynamicTextEnd_le : dynamicTextEnd ≤ 2 ^ addrBits

/-- What the system does while one packet is processed. -/
structure Os where
  /-- A pipe can be made and filled from this range. -/
  readable : Nat → Nat → Bool
  /-- How many bytes are read from a pipe into the memory of the module at most; `none` when the
      pipe cannot be made or filled. -/
  stored : Option Nat
  /-- The `mprotect` before and behind a copy into the code succeeds. -/
  protect : Bool
  restore : Bool
  /-- What a new block of the heap holds. -/
  fresh : Nat → Char8

/-! ## `IPlatform` -/

/-- `SafeMemoryCopy` refuses more than a pipe holds. -/
def kPipeBufferBound : Nat := 0x1000

def getMemory (os : Os) (mem : Nat → Char8) (virt len : Nat) : Option (List Char8) :=
  if kPipeBufferBound < len then none
  else if os.readable virt len then some (bytesAt mem virt len) else none

/-- `SafeMemoryCopy` into the module: the result, and the memory. -/
def safeMemoryStore (os : Os) (mem : Nat → Char8) (virt : Nat) (src : List Char8) :
    Bool × (Nat → Char8) :=
  if kPipeBufferBound < src.length then (false, mem)
  else
    match os.stored with
    | none => (false, mem)
    | some got => (decide (src.length ≤ got), store mem virt (src.take got))

def isCode (nap : Nap) (virt len : Nat) : Bool :=
  decide (virt + len ≤ nap.memStart + nap.dynamicTextEnd)

def setMemory (nap : Nap) (os : Os) (mem : Nat → Char8) (virt : Nat) (src : List Char8) :
    Bool × (Nat → Char8) :=
  if isCode nap virt src.length ∧ os.protect = false then (false, mem)
  else
    let (succeeded, mem) := safeMemoryStore os mem virt src
    if isCode nap virt src.length ∧ os.restore = false then (false, mem) else (succeeded, mem)

/-! ## Breakpoints -/

/-- `bp->code_` for x86: HLT.  Its length is `bp->size_`. -/
def breakpointCode : List Char8 := [0xf4]

structure Target where
  mem : Nat → Char8
  /-- The bytes behind each breakpoint, by user address. -/
  breakpointMap : List (Nat × List Char8)
  initialBreakpointAddr : Nat

namespace Target

/-- The body of the loop of `EraseBreakpointsFromCopyOfMemory`, on 32-bit addresses.  The two
    `CHECK`s hold where the ranges overlap. -/
def eraseBreakpoint (userAddress userEnd : Nat) (data : List Char8) (bp : Nat × List Char8) :
    List Char8 :=
  let breakpointEnd := (bp.1 + breakpointCode.length) % 2 ^ 32
  let overlapStart := max userAddress bp.1
  let overlapEnd := min userEnd breakpointEnd
  if overlapStart < overlapEnd then
    writeAt Ch.nul data (overlapStart - userAddress)
      ((bp.2.drop (overlapStart - bp.1)).take (overlapEnd - overlapStart))
  else data

def eraseBreakpointsFromCopyOfMemory (t : Target) (userAddress : Nat) (data : List Char8) :
    List Char8 :=
  t.breakpointMap.foldl (eraseBreakpoint userAddress ((userAddress + data.length) % 2 ^ 32)) data

def isOnValidInstBoundary (nap : Nap) (os : Os) (t : Target) (addr : Nat) : Bool :=
  let bundleAddr := addr - addr % 32
  match naClUserToSysAddrRange nap.toAddressSpace bundleAddr 32 with
  | none => false
  | some codeAddr =>
    match getMemory os t.mem codeAddr 32 with
    | none => false
    | some code =>
      nap.isOnInstBoundary bundleAddr addr (t.eraseBreakpointsFromCopyOfMemory bundleAddr code)

/-- `AddBreakpoint`; `userAddress + bp->size_` is a sum of 32 bits. -/
def addBreakpoint (nap : Nap) (os : Os) (t : Target) (userAddress : Nat) : Bool × Target :=
  if t.isOnValidInstBoundary nap os userAddress = false then (false, t)
  else if (find userAddress t.breakpointMap).isSome then (false, t)
  else
    match naClUserToSysAddrRange nap.toAddressSpace userAddress breakpointCode.length with
    | none => (false, t)
    | some sysaddr =>
      if nap.dynamicTextEnd < (userAddress + breakpointCode.length) % 2 ^ 32 then (false, t)
      else
        match getMemory os t.mem sysaddr breakpointCode.length with
        | none => (false, t)
        | some data =>
          let (succeeded, mem) := setMemory nap os t.mem sysaddr breakpointCode
          if succeeded = false then (false, { t with mem := mem })
          else (true, { t with
            mem := mem
            breakpointMap := insertWith (fun _ new => new) userAddress data t.breakpointMap })

/-- `RemoveBreakpoint`; `none` where `NaClUserToSys` does not go on. -/
def removeBreakpoint (nap : Nap) (os : Os) (t : Target) (userAddress : Nat) :
    Option (Bool × Target) :=
  match find userAddress t.breakpointMap with
  | none => some (false, t)
  | some data => do
    let sysaddr ← naClUserToSysAddr nap.toAddressSpace userAddress
    let (succeeded, mem) := setMemory nap os t.mem sysaddr data
    if succeeded = false then some (false, { t with mem := mem })
    else some (true, { t with
      mem := mem
      breakpointMap := updateAt (fun _ => none) userAddress t.breakpointMap })

/-! ## Packets -/

inductive ErrDef where
  | none
  | badFormat
  | badArgs
  | failed
deriving DecidableEq

def ErrDef.code : ErrDef → Char8
  | .none => 0
  | .badFormat => 1
  | .badArgs => 2
  | .failed => 3

/-- What a case of `ProcessPacket` leaves behind. -/
structure Processed where
  target : Target
  pktOut : Packet
  err : ErrDef

def okReply : List Char8 := [0x4f, 0x4b]

/-- `AdjustUserAddr` takes addresses with the base of the sandbox too. -/
def adjustUserAddr (nap : Nap) (addr : Nat) : Nat :=
  if nap.memStart ≤ addr ∧ addr < nap.memStart + 2 ^ nap.addrBits then addr - nap.memStart
  else addr

/-- The address and the length that `m` and `M` begin with. -/
def readRange (pktIn : Packet) : Option (Nat × Nat) × Packet :=
  match pktIn.getNumberSep with
  | (none, pktIn) => (none, pktIn)
  | (some (userAddr, _), pktIn) =>
    match pktIn.getNumberSep with
    | (none, pktIn) => (none, pktIn)
    | (some (wlen, _), pktIn) => (some (userAddr.toNat, wlen.toNat), pktIn)

/-- The type, which must be zero, the address and the kind of `Z` and `z`. -/
def readBreakpoint (pktIn : Packet) : Option Nat :=
  match pktIn.getNumberSep with
  | (none, _) => none
  | (some (breakpointType, _), pktIn) =>
    if breakpointType ≠ 0 then none
    else
      match pktIn.getNumberSep with
      | (none, _) => none
      | (some (breakpointAddress, _), pktIn) =>
        match pktIn.getNumberSep with
        | (none, _) => none
        | (some _, _) => some breakpointAddress.toNat

/-- `case 'm'`. -/
def readMemory (nap : Nap) (os : Os) (t : Target) (pktIn pktOut : Packet) : Processed :=
  match readRange pktIn with
  | (none, _) => ⟨t, pktOut, .badFormat⟩
  | (some (userAddr, wlen), _) =>
    let userAddr := adjustUserAddr nap userAddr
    match naClUserToSysAddrRange nap.toAddressSpace userAddr wlen with
    | none => ⟨t, pktOut, .failed⟩
    | some sysAddr =>
      match getMemory os t.mem sysAddr (wlen % 2 ^ 32) with
      | none => ⟨t, pktOut, .failed⟩
      | some block =>
        ⟨t, pktOut.addBlock (t.eraseBreakpointsFromCopyOfMemory (userAddr % 2 ^ 32) block), .none⟩

/-- `case 'M'`.  The result of `GetBlock` is not looked at. -/
def writeMemory (nap : Nap) (os : Os) (t : Target) (pktIn pktOut : Packet) : Processed :=
  match readRange pktIn with
  | (none, _) => ⟨t, pktOut, .badFormat⟩
  | (some (userAddr, wlen), pktIn) =>
    let userAddr := adjustUserAddr nap userAddr
    match naClUserToSysAddrRange nap.toAddressSpace userAddr wlen with
    | none => ⟨t, pktOut, .failed⟩
    | some sysAddr =>
      -- the debugger may not change code
      if userAddr < nap.dynamicTextEnd then ⟨t, pktOut, .failed⟩
      else
        let block := (pktIn.getBlock (bytesAt os.fresh 0 (wlen % 2 ^ 32))).2.1
        let (succeeded, mem) := setMemory nap os t.mem sysAddr block
        if succeeded = false then ⟨{ t with mem := mem }, pktOut, .failed⟩
        else ⟨{ t with mem := mem }, pktOut.addString okReply, .none⟩

/-- `case 'Z'`. -/
def insertBreakpoint (nap : Nap) (os : Os) (t : Target) (pktIn pktOut : Packet) : Processed :=
  match readBreakpoint pktIn with
  | none => ⟨t, pktOut, .badFormat⟩
  | some addr =>
    if addr ≠ addr % 2 ^ 32 then ⟨t, pktOut, .failed⟩
    else
      let (succeeded, t) := t.addBreakpoint nap os addr
      if succeeded = false then ⟨t, pktOut, .failed⟩ else ⟨t, pktOut.addString okReply, .none⟩

/-- `case 'z'`. -/
def deleteBreakpoint (nap : Nap) (os : Os) (t : Target) (pktIn pktOut : Packet) :
    Option Processed :=
  match readBreakpoint pktIn with
  | none => some ⟨t, pktOut, .badFormat⟩
  | some addr =>
    if addr ≠ addr % 2 ^ 32 then some ⟨t, pktOut, .failed⟩
    else do
      let (succeeded, t) ← t.removeBreakpoint nap os addr
      if succeeded = false then some ⟨t, pktOut, .failed⟩
      else some ⟨t, pktOut.addString okReply, .none⟩

/-- The commands about memory and breakpoints. -/
inductive Command where
  | read
  | write
  | insert
  | delete

def Command.ofChar (cmd : Char8) : Option Command :=
  if cmd = 0x6d then some .read
  else if cmd = 0x4d then some .write
  else if cmd = 0x5a then some .insert
  else if cmd = 0x7a then some .delete
  else none

def runCommand (nap : Nap) (os : Os) (t : Target) (pktIn pktOut : Packet) :
    Command → Option Processed
  | .read => some (t.readMemory nap os pktIn pktOut)
  | .write => some (t.writeMemory nap os pktIn pktOut)
  | .insert => some (t.insertBreakpoint nap os pktIn pktOut)
  | .delete => t.deleteBreakpoint nap os pktIn pktOut

/-- The command of a packet, if it is one about memory or breakpoints, and the rest. -/
def command (pktIn : Packet) : Option (Command × Packet) :=
  let cmd := pktIn.getRawChar Ch.nul
  (Command.ofChar cmd.ch).map (·, cmd.packet)

/-- The packet for the reply is cleared and gets the sequence number of the request. -/
def startReply (pktIn pktOut : Packet) : Packet :=
  pktIn.getSequence.elim pktOut.clear pktOut.clear.setSequence

/-- If there is an error, its code is returned instead of a payload. -/
def Processed.reply (done : Processed) : Processed :=
  if done.err = .none then done
  else { done with pktOut := (done.pktOut.clear.addRawChar 0x45).addWord8 done.err.code }

/-- `ProcessPacket` of a packet about memory or breakpoints; it returns false on all of them. -/
def processPacket (nap : Nap) (os : Os) (t : Target) (pktIn pktOut : Packet) :
    Option Processed := do
  let (cmd, rest) ← command pktIn
  let done ← runCommand nap os t rest (startReply pktIn pktOut) cmd
  some done.reply

/-- `Init`; a target that cannot be made is not used. -/
def init (nap : Nap) (os : Os) (t : Target) (initialEntryPt : Nat) : Option Target :=
  let addr := initialEntryPt % 2 ^ 32
  let (succeeded, t) := { t with initialBreakpointAddr := addr }.addBreakpoint nap os addr
  if succeeded then some t else none

/-- `RemoveInitialBreakpoint`; `none` where it does not go on. -/
def removeInitialBreakpoint (nap : Nap) (os : Os) (t : Target) : Option Target :=
  if t.initialBreakpointAddr ≠ 0 then do
    let (succeeded, t) ← t.removeBreakpoint nap os t.initialBreakpointAddr
    if succeeded then some { t with initialBreakpointAddr := 0 } else none
  else some t

end Target

end SandboxTEE.DebugStub
