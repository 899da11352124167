import SandboxTEE.Lib.LittleEndian
import SandboxTEE.Lib.Run

/-! # Receiving typed IMC messages (`nrd_xfer.c`, `nacl_desc_base.c`)

A message is an internal header, the records of the descriptors sent with it and user data, with
the handles of the descriptors beside it.  `naClImcRecvTypedMessage` takes one off a channel,
copies the user data out and makes a descriptor of each record.  All buffers are read at the
positions the source reads them at, and a read outside what was received is a fault.
-/

namespace SandboxTEE.Imc

open SandboxTEE.Lib (Word Word.ofBytes)

abbrev Bytes := List (BitVec 8)

/-- A valid handle.  A slot of the handle array without one holds `NACL_INVALID_HANDLE`. -/
abbrev Handle := Nat

/-! ## Limits (`imc_types.h`) and errors -/

def naclAbiImcIovecMax : Nat := 256
def naclAbiImcUserDescMax : Nat := 8
def naclAbiImcDescMax : Nat := 8
def naclPathMax : Nat := 28
def naclAbiImcUserBytesMax : Nat := 128 <<< 10
def naclAbiImcBytesMax : Nat :=
  naclAbiImcUserBytesMax + (1 + naclPathMax) * naclAbiImcUserDescMax + 16

def sizeTMax : Nat := 2 ^ 64 - 1

def naclAbiImcNonblock : Nat := 0x1
def naclAbiRecvmsgDescTruncated : Nat := 0x2

def eio : Int := 5
def enomem : Int := 12
def einval : Int := 22

/-- How a call ends without returning. -/
inductive Fault where
  /-- `LOG_FATAL`. -/
  | fatal (message : String)
  /-- An access outside the bytes or the handles. -/
  | outside
  /-- The value of a local variable nothing was stored in. -/
  | indeterminate
  | endless
deriving DecidableEq

/-! ## Descriptors -/

structure Metadata where
  type : Word 4
  bytes : Bytes
  fits : bytes.length < 2 ^ 32
deriving DecidableEq

def naclDescFlagsHasMetadata : Word 4 := 0x10000

def hasMetadata (flags : Word 4) : Bool := flags &&& naclDescFlagsHasMetadata ≠ 0

/-- `struct NaClDesc`: metadata is there when the flags announce it. -/
structure DescBase where
  flags : Word 4
  metadata : Option Metadata
  announced : metadata.isSome = hasMetadata flags
deriving DecidableEq

def naclAllowedOpenFlags : Word 4 := 0o3 ||| 0o100 ||| 0o1000 ||| 0o2000 ||| 0o200

def naclAbiOAccmode : Word 4 := 0o3

/-- `NaClHostDescPosixTake`. -/
def naClHostDescPosixTake (flags : Word 4) : Int :=
  if flags &&& ~~~naclAllowedOpenFlags ≠ 0 then -einval
  else if flags &&& naclAbiOAccmode = 0o3 then -einval
  else 0

/-- The flags a host descriptor can be made with. -/
abbrev OpenFlags := { flags : Word 4 // ¬ naClHostDescPosixTake flags < 0 }

/-- `NaClDescImcShmSubclassCtor`: whether a size is one of a shared-memory object. -/
def naClDescImcShmSubclassCtor (size : Word 8) : Bool :=
  ¬ (size.toInt < 0 ∨ sizeTMax < size.toNat)

abbrev ShmSize := { size : Word 8 // naClDescImcShmSubclassCtor size = true }

inductive NaClDesc where
  | invalid
  | io (base : DescBase) (d : Handle) (flags : OpenFlags)
  | connCapFd (base : DescBase) (connectFd : Handle)
  | imcShm (base : DescBase) (h : Handle) (size : ShmSize)
  | syncSocket (base : DescBase) (h : Handle)
  | xferableDataDesc (base : DescBase) (h : Handle)
  | null
deriving DecidableEq

/-- The handles a descriptor owns. -/
def NaClDesc.handles : NaClDesc → List Handle
  | .invalid | .null => []
  | .io _ h _ | .connCapFd _ h | .imcShm _ h _ | .syncSocket _ h | .xferableDataDesc _ h => [h]

/-- Dropping the only reference to a descriptor closes what it owns; the destructor of a host
    descriptor stops the program when the host does not close it (`closes`). -/
def naClDescUnref (closes : Handle → Bool) (closed : List Handle) :
    NaClDesc → Except Fault (List Handle)
  | .io _ h _ =>
    if closes h then .ok (closed ++ [h])
    else .error (.fatal "NaClDescIoDescDtor: NaClHostDescClose failed\n")
  | d => .ok (closed ++ d.handles)

/-! ## The state of a transfer (`struct NaClDescXferState`) -/

structure XferState where
  nextByte : Nat
  byteBufferEnd : Nat
  nextHandle : Nat
  handleBufferEnd : Nat
  /-- The handle array the positions are in. -/
  kernHandle : List (Option Handle)
  /-- The handles closed so far. -/
  closed : List Handle

def readBytes (buf : Bytes) (pos n : Nat) : Except Fault { bs : Bytes // bs.length = n } :=
  if h : pos + n ≤ buf.length then .ok ⟨(buf.drop pos).take n, by simp; omega⟩
  else .error .outside

def readWord (k : Nat) (buf : Bytes) (pos : Nat) : Except Fault (Word k) := do
  let bs ← readBytes buf pos k
  pure (Word.ofBytes k bs.1)

/-- `h = *xfer->next_handle; *xfer->next_handle++ = NACL_INVALID_HANDLE`. -/
def XferState.takeHandle (xfer : XferState) : Except Fault (Handle × XferState) :=
  match xfer.kernHandle[xfer.nextHandle]? with
  | some (some h) =>
    .ok (h, { xfer with
      kernHandle := xfer.kernHandle.set xfer.nextHandle none
      nextHandle := xfer.nextHandle + 1 })
  | _ => .error .outside

/-- `NaClDescInternalizeCtor`. -/
def naClDescInternalizeCtor (buf : Bytes) (xfer : XferState) :
    Except Fault (Option DescBase × XferState) :=
  let nxt := xfer.nextByte
  if nxt + 4 > xfer.byteBufferEnd then pure (none, xfer)
  else do
    let flags ← readWord 4 buf nxt
    if plain : hasMetadata flags = false then
      pure (some ⟨flags, none, plain.symm⟩, { xfer with nextByte := nxt + 4 })
    else if nxt + 12 > xfer.byteBufferEnd then pure (none, xfer)
    else do
      let type ← readWord 4 buf (nxt + 4)
      let numBytes ← readWord 4 buf (nxt + 8)
      if nxt + 12 + numBytes.toNat > xfer.byteBufferEnd then pure (none, xfer)
      else do
        let metadata ← readBytes buf (nxt + 12) numBytes.toNat
        pure (some ⟨flags, some ⟨type, metadata.1, by rw [metadata.2]; exact numBytes.isLt⟩,
            (Bool.of_not_eq_false plain).symm⟩,
          { xfer with nextByte := nxt + 12 + numBytes.toNat })

/-! ## Internalizing one descriptor -/

/-- What an internalizer leaves: its result, and the descriptor where it stored one. -/
structure Internalized where
  rv : Int
  out : Option NaClDesc
  xfer : XferState

def naClDescInvalidInternalize (_ : Bytes) (xfer : XferState) : Except Fault Internalized :=
  pure ⟨0, some .invalid, xfer⟩

def naClDescNullInternalize (_ : Bytes) (xfer : XferState) : Except Fault Internalized :=
  pure ⟨0, some .null, xfer⟩

def naClDescInternalizeNotImplemented (_ : Bytes) (xfer : XferState) :
    Except Fault Internalized :=
  pure ⟨-eio, none, xfer⟩

/-- A descriptor of a base and one handle.  `unread` is the result where there is no base. -/
def internalizeHandle (unread : Int) (make : DescBase → Handle → NaClDesc) (buf : Bytes)
    (xfer : XferState) : Except Fault Internalized := do
  let (base, xfer) ← naClDescInternalizeCtor buf xfer
  match base with
  | none => pure ⟨unread, none, xfer⟩
  | some base =>
    if xfer.nextHandle = xfer.handleBufferEnd then pure ⟨-eio, none, xfer⟩
    else do
      let (h, xfer) ← xfer.takeHandle
      pure ⟨0, some (make base h), xfer⟩

def naClDescConnCapFdInternalize := internalizeHandle (-enomem) .connCapFd

def naClDescSyncSocketInternalize := internalizeHandle (-enomem) .syncSocket

/-- The result where there is no base is the `0` that the constructor returned. -/
def naClDescXferableDataDescInternalize := internalizeHandle 0 .xferableDataDesc

def naClDescIoInternalize (buf : Bytes) (xfer : XferState) : Except Fault Internalized := do
  let (base, xfer) ← naClDescInternalizeCtor buf xfer
  match base with
  | none => pure ⟨-enomem, none, xfer⟩
  | some base =>
    if xfer.nextHandle = xfer.handleBufferEnd ∨ xfer.nextByte + 4 > xfer.byteBufferEnd then
      pure ⟨-eio, none, xfer⟩
    else do
      let flags ← readWord 4 buf xfer.nextByte
      let (h, xfer) ← { xfer with nextByte := xfer.nextByte + 4 }.takeHandle
      if refused : naClHostDescPosixTake flags < 0 then
        pure ⟨naClHostDescPosixTake flags, none, { xfer with closed := xfer.closed ++ [h] }⟩
      else pure ⟨0, some (.io base h ⟨flags, refused⟩), xfer⟩

def naClDescImcShmInternalize (buf : Bytes) (xfer : XferState) : Except Fault Internalized := do
  let (base, xfer) ← naClDescInternalizeCtor buf xfer
  match base with
  | none => pure ⟨-enomem, none, xfer⟩
  | some base =>
    if xfer.nextHandle = xfer.handleBufferEnd then pure ⟨-eio, none, xfer⟩
    else if xfer.nextByte + 8 > xfer.byteBufferEnd then pure ⟨-eio, none, xfer⟩
    else do
      let (h, xfer) ← xfer.takeHandle
      let size ← readWord 8 buf xfer.nextByte
      let xfer := { xfer with nextByte := xfer.nextByte + 8 }
      -- A handle taken for a size that is refused is in neither the array nor a descriptor.
      if made : naClDescImcShmSubclassCtor size = true then
        pure ⟨0, some (.imcShm base h ⟨size, made⟩), xfer⟩
      else pure ⟨-eio, none, xfer⟩

def naclDescTypeMax : Nat := 19

def naclDescTypeEndTag : Nat := 0xff

/-- The table `NaClDescInternalize`, which has one entry less than there are type tags. -/
def naClDescInternalize : Nat → Option (Bytes → XferState → Except Fault Internalized)
  | 0 => some naClDescInvalidInternalize
  | 2 => some naClDescIoInternalize
  | 4 => some naClDescConnCapFdInternalize
  | 7 => some naClDescImcShmInternalize
  | 12 => some naClDescSyncSocketInternalize
  | 13 => some naClDescXferableDataDescInternalize
  | 17 => some naClDescNullInternalize
  | tag => if tag < 17 then some naClDescInternalizeNotImplemented else none

/-- `NaClDescInternalizeFromXferBuffer`; the result is the number of descriptors made. -/
def naClDescInternalizeFromXferBuffer (buf : Bytes) (xfer : XferState) :
    Except Fault Internalized := do
  let typeTag := (← readWord 1 buf xfer.nextByte).toNat
  let xfer := { xfer with nextByte := xfer.nextByte + 1 }
  if typeTag = naclDescTypeEndTag then pure ⟨0, none, xfer⟩
  else if typeTag ≥ naclDescTypeMax then pure ⟨-eio, none, xfer⟩
  else match naClDescInternalize typeTag with
    | none => .error (.fatal "No internalization function for type\n")
    | some internalize => do
      let made ← internalize buf xfer
      -- A failure is reported as the end of the descriptors.
      pure { made with rv := if made.rv = 0 then 1 else 0 }

/-! ## Receiving a message -/

structure IoVec where
  base : Nat
  length : Word 8

/-- `struct NaClImcTypedMsgHdr` as the caller fills it in. -/
structure TypedMsgHdr where
  iov : List IoVec
  ndescLength : Nat
  flags : Nat

/-- What a channel delivers. -/
structure Message where
  bytes : Bytes
  handles : List Handle
  bytes_le : bytes.length ≤ naclAbiImcBytesMax
  handles_le : handles.length ≤ naclAbiImcDescMax

/-- What `LowLevelRecvMsg` comes back with when it may fill `handleCount` handles. -/
inductive Reply (handleCount : Nat) where
  | failed (errno : Int) (isNegErrno : -0x10000 ≤ errno ∧ errno < 0)
  | delivered (message : Message) (within : message.handles.length ≤ handleCount)

structure Channel where
  typeTag : Nat
  lowLevelRecvMsg : (handleCount flags : Nat) → Reply handleCount

def naclDescImcSocket : Nat := 14

def Channel.handleCount (channel : Channel) : Nat :=
  if channel.typeTag = naclDescImcSocket then naclAbiImcDescMax else 0

/-- What a call leaves behind when it returns. -/
structure Received where
  retval : Int
  /-- The message taken off the channel. -/
  taken : Option Message
  /-- The copies made to the vectors of the caller. -/
  copied : List (Nat × Bytes)
  ndescv : List NaClDesc
  ndescLength : Nat
  flags : Nat
  closed : List Handle

/-- The sum of the lengths, unless it overflows. -/
def userBytes : List IoVec → Nat → Option Nat
  | [], sum => some sum
  | v :: iov, sum =>
    if sum > sizeTMax - v.length.toNat then none else userBytes iov (sum + v.length.toNat)

/-- The copying of the user data at `userData` to the vectors. -/
def scatter (buf : Bytes) : List IoVec → (userData avail : Nat) →
    Except Fault (List (Nat × Bytes))
  | [], _, _ => .ok []
  | v :: iov, userData, avail =>
    if 0 < avail then do
      let iovCopySize := min v.length.toNat avail
      let bytes ← readBytes buf userData iovCopySize
      let rest ← scatter buf iov (userData + iovCopySize) (avail - iovCopySize)
      pure ((v.base, bytes.1) :: rest)
    else .ok []

/-- How the loop over the records ends. -/
structure Collected where
  /-- The loop has been left for `cleanup` with an error. -/
  failed : Bool
  newDesc : List NaClDesc
  xfer : XferState

/-- `while (xfer.next_byte < xfer.byte_buffer_end)`, in at most as many rounds as `fuel`. -/
def collect (buf : Bytes) : Nat → List NaClDesc → XferState → Except Fault Collected
  | 0, newDesc, xfer =>
    if xfer.nextByte < xfer.byteBufferEnd then .error .endless else pure ⟨false, newDesc, xfer⟩
  | fuel + 1, newDesc, xfer =>
    if xfer.nextByte < xfer.byteBufferEnd then do
      let made ← naClDescInternalizeFromXferBuffer buf xfer
      if made.rv = 0 then pure ⟨false, newDesc, made.xfer⟩
      else if newDesc.length ≥ naclAbiImcDescMax then
        .error (.fatal
          "NaClImcRecvTypedMsg: trusted peer tried to send too many descriptors!\n")
      else if made.rv ≠ 1 then pure ⟨true, newDesc, made.xfer⟩
      else match made.out with
        | none => .error .indeterminate
        | some out => collect buf fuel (newDesc ++ [out]) made.xfer
    else pure ⟨false, newDesc, xfer⟩

/-- `cleanup`: what is left in `new_desc` is dropped, and what is left in `kern_handle` closed. -/
def cleanup (closes : Handle → Bool) (newDesc : List NaClDesc) (xfer : XferState) :
    Except Fault (List Handle) := do
  let closed ← newDesc.foldlM (naClDescUnref closes) xfer.closed
  pure (closed ++ xfer.kernHandle.filterMap id)

def naclHandleTransferProtocol : Word 4 := 0xd3c0de01

/-- `sizeof(struct NaClInternalHeader)`. -/
def sizeofInternHdr : Nat := 16

/-- The slots of `kern_handle` once a message has been received. -/
def Message.kernHandle (m : Message) : List (Option Handle) :=
  m.handles.map some ++ List.replicate (naclAbiImcDescMax - m.handles.length) none

/-- `NaClImcRecvTypedMessage` from the return of `LowLevelRecvMsg` on. -/
def decodeMessage (closes : Handle → Bool) (nitmhp : TypedMsgHdr) (bytesWanted : Nat)
    (m : Message) : Except Fault Received := do
  let recvBuf := m.bytes
  let refuse : Except Fault Received := do
    let closed ← cleanup closes [] ⟨0, 0, 0, 0, m.kernHandle, []⟩
    pure ⟨-eio, some m, [], [], nitmhp.ndescLength, nitmhp.flags, closed⟩
  if recvBuf.length < sizeofInternHdr then refuse
  else
    let xferProtocolVersion ← readWord 4 recvBuf 0
    let descriptorDataBytes := (← readWord 4 recvBuf 4).toNat
    if naclHandleTransferProtocol ≠ xferProtocolVersion then refuse
    else if recvBuf.length < descriptorDataBytes + sizeofInternHdr then refuse
    else
      let avail := min (recvBuf.length - descriptorDataBytes - sizeofInternHdr) bytesWanted
      let copied ← scatter recvBuf nitmhp.iov (sizeofInternHdr + descriptorDataBytes) avail
      let c ← collect recvBuf descriptorDataBytes []
        ⟨sizeofInternHdr, sizeofInternHdr + descriptorDataBytes, 0, m.handles.length,
          m.kernHandle, []⟩
      if c.failed then
        let closed ← cleanup closes c.newDesc c.xfer
        pure ⟨-eio, some m, copied, [], nitmhp.ndescLength, nitmhp.flags, closed⟩
      else
        let closed ← cleanup closes (c.newDesc.drop nitmhp.ndescLength) c.xfer
        let truncated := nitmhp.ndescLength < c.newDesc.length
        pure ⟨avail, some m, copied, c.newDesc.take nitmhp.ndescLength,
          min nitmhp.ndescLength c.newDesc.length,
          if truncated then nitmhp.flags ||| naclAbiRecvmsgDescTruncated else nitmhp.flags,
          closed⟩

/-- A call that comes back without a message. -/
def TypedMsgHdr.unanswered (nitmhp : TypedMsgHdr) (retval : Int) : Received :=
  ⟨retval, none, [], [], nitmhp.ndescLength, nitmhp.flags, []⟩

def naClImcRecvTypedMessage (closes : Handle → Bool) (channel : Channel) (nitmhp : TypedMsgHdr)
    (flags : Nat) : Except Fault Received :=
  let flags := flags &&& naclAbiImcNonblock
  if nitmhp.iov.length > naclAbiImcIovecMax then .ok (nitmhp.unanswered (-einval))
  else if nitmhp.ndescLength > naclAbiImcUserDescMax then .ok (nitmhp.unanswered (-einval))
  else match userBytes nitmhp.iov 0 with
    | none => .ok (nitmhp.unanswered (-einval))
    | some bytesWanted =>
      match channel.lowLevelRecvMsg channel.handleCount flags with
      | .failed errno _ => .ok (nitmhp.unanswered errno)
      | .delivered m _ => decodeMessage closes nitmhp (min bytesWanted naclAbiImcUserBytesMax) m

end SandboxTEE.Imc
