import SandboxTEE.Lib.Pool
import SandboxTEE.Runtime.App

/-! # Quota descriptors (`trusted/desc/nacl_desc_quota.c`)

A quota descriptor wraps another one.  Its calls are programs over the calls of that descriptor,
the requests to the quota interface and the mutex of the quota descriptor.
-/

namespace SandboxTEE.Quota

open SandboxTEE.Lib
open SandboxTEE.Lib.CallTree (perform)

def naClAbiEDQUOT : Nat := 122

/-- The fields of `struct NaClDescQuota` that its calls read; the interface may be NULL. -/
structure NaClDescQuota where
  fileId : List (BitVec 8)
  quotaInterface : Bool

inductive Whence where
  | set
  | cur
  | fromEnd
deriving DecidableEq

/-- What a call of the quota descriptor does outside itself. -/
inductive Op where
  | lock
  | unlock
  | seek (offset : Int) (whence : Whence)
  | read (buf len : Nat)
  | write (buf len : Nat)
  | pread (buf len : Nat) (offset : Int)
  | pwrite (buf len : Nat) (offset : Int)
  | writeRequest (fileId : List (BitVec 8)) (offset length : Int)

/-- A call on the way to its result. -/
abbrev Call := CallTree Op Int Int

namespace NaClDescQuota

def naClDescQuotaRead (buf len : Nat) : Call := perform (.read buf len)

/-- `CapWriteLength`: INT64_MAX at most. -/
def capWriteLength (len : Nat) : Nat := min len (2 ^ 63 - 1)

/-- Without an interface no writes are allowed. -/
def writeAllowed (self : NaClDescQuota) (offset : Int) (len : Nat) : Call :=
  if self.quotaInterface then perform (.writeRequest self.fileId offset len) else pure 0

/-- An allowed quota that is larger than that requested is reduced. -/
def reduce (allowed : Int) (len : Nat) : Nat := if (len : Int) < allowed then len else allowed.toNat

/-- `NaClDescQuotaWrite` under the mutex. -/
def writeLocked (self : NaClDescQuota) (buf len : Nat) : Call :=
  if len = 0 then perform (.write buf 0)
  else do
    let fileOffset ← perform (.seek 0 .cur)
    if fileOffset < 0 then pure fileOffset
    else do
      let allowed ← self.writeAllowed fileOffset (capWriteLength len)
      if allowed ≤ 0 then pure (-naClAbiEDQUOT)
      else perform (.write buf (reduce allowed (capWriteLength len)))

def naClDescQuotaWrite (self : NaClDescQuota) (buf len : Nat) : Call := do
  let _ ← perform .lock
  let rv ← self.writeLocked buf len
  let _ ← perform .unlock
  pure rv

def naClDescQuotaPRead (buf len : Nat) (offset : Int) : Call := perform (.pread buf len offset)

def naClDescQuotaPWrite (self : NaClDescQuota) (buf len : Nat) (offset : Int) : Call :=
  if len = 0 then perform (.pwrite buf 0 offset)
  else do
    let allowed ← self.writeAllowed offset (capWriteLength len)
    if allowed ≤ 0 then pure (-naClAbiEDQUOT)
    else perform (.pwrite buf (reduce allowed (capWriteLength len)) offset)

def naClDescQuotaSeek (offset : Int) (whence : Whence) : Call := do
  let _ ← perform .lock
  let rv ← perform (.seek offset whence)
  let _ ← perform .unlock
  pure rv

end NaClDescQuota

/-- A call of the quota descriptor. -/
inductive Request where
  | read (buf len : Nat)
  | write (buf len : Nat)
  | pread (buf len : Nat) (offset : Int)
  | pwrite (buf len : Nat) (offset : Int)
  | seek (offset : Int) (whence : Whence)

open NaClDescQuota in
def Request.call (self : NaClDescQuota) : Request → Call
  | .read buf len => naClDescQuotaRead buf len
  | .write buf len => self.naClDescQuotaWrite buf len
  | .pread buf len offset => naClDescQuotaPRead buf len offset
  | .pwrite buf len offset => self.naClDescQuotaPWrite buf len offset
  | .seek offset whence => naClDescQuotaSeek offset whence

/-! ## What is underneath -/

/-- The file of the wrapped descriptor, and the thread that has the mutex. -/
structure Underneath where
  pos : Int
  size : Int
  /-- The descriptor was opened with `O_APPEND`. -/
  append : Bool
  holder : Option Nat

namespace Underneath

/-- Where a write at the position goes. -/
def writePos (u : Underneath) : Int := if u.append then u.size else u.pos

def seekTarget (u : Underneath) (offset : Int) : Whence → Int
  | .set => offset
  | .cur => u.pos + offset
  | .fromEnd => u.size + offset

/-- The bytes that an operation writes, as their start and their number. -/
def written (u : Underneath) : Op → Int → Option (Int × Int)
  | .write .., r => if 0 < r then some (u.writePos, r) else none
  | .pwrite _ _ offset, r => if 0 < r then some (offset, r) else none
  | _, _ => none

end Underneath

/-- Replies that an operation can have: no more bytes than asked for. -/
def can : Op → Int → Prop
  | .read _ len, r | .write _ len, r | .pread _ len _, r | .pwrite _ len _, r => r ≤ len
  | _, _ => True

instance : (op : Op) → (r : Int) → Decidable (can op r)
  | .read .., _ | .write .., _ | .pread .., _ | .pwrite .., _ => inferInstanceAs (Decidable (_ ≤ _))
  | .lock, _ | .unlock, _ | .seek .., _ | .writeRequest .., _ => inferInstanceAs (Decidable True)

/-- An operation with its reply; a negative one is an error and changes nothing. -/
def effect (t : Nat) (u : Underneath) (op : Op) (r : Int) : Option Underneath :=
  match op with
  | .lock => if u.holder = none then some { u with holder := some t } else none
  | .unlock => if u.holder = some t then some { u with holder := none } else none
  | .seek offset whence =>
    if r < 0 then some u
    else if r = u.seekTarget offset whence then some { u with pos := r } else none
  | .read .. => if r < 0 then some u else some { u with pos := u.pos + r }
  | .write .. =>
    if r ≤ 0 then some u
    else some { u with pos := u.writePos + r, size := max u.size (u.writePos + r) }
  | .pwrite _ _ offset =>
    if r ≤ 0 then some u
    else if 0 ≤ offset then some { u with size := max u.size (offset + r) } else none
  | .pread .. | .writeRequest .. => some u

def serve (t : Nat) (u : Underneath) (op : Op) (r : Int) : Option Underneath :=
  if can op r then effect t u op r else none

abbrev World := Pool Request Op Int Int Underneath

def step (self : NaClDescQuota) : World → PoolEvent Request Int → Option World :=
  Pool.step (Request.call self) serve

end SandboxTEE.Quota
