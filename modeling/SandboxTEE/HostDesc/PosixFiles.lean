import SandboxTEE.HostDesc.Host
import SandboxTEE.Lib.Extent

/-! # A POSIX host with files, permissions and open flags

What `open` does with its flags and mode, and what the descriptor allows afterwards.
`sgx_ocall_open` passes flags and mode of its own; the other calls go to POSIX as they are.
-/

namespace SandboxTEE.HostDesc

open SandboxTEE.Lib (readAt writeAt)
open SandboxTEE.Runtime
open SandboxTEE.Stdlib

/-- A regular file, and what the host process may do with it. -/
structure HostFile where
  contents : List Byte
  mayRead : Bool
  mayWrite : Bool

/-- An open file description. -/
structure Description where
  path : List Byte
  pos : Nat
  access : Nat
  append : Bool

structure PosixState where
  file : List Byte → Option HostFile
  /-- The directory of the path exists and may be written. -/
  mayCreate : List Byte → Bool
  opened : Int → Option Description
  nextFd : Nat
  fdLimit : Nat
  fdLimit_lt : fdLimit < 2 ^ 31

def posixEEXIST : Nat := 17
def posixEMFILE : Nat := 24

/-- On Linux `O_TRUNC` asks for write permission as well. -/
def HostFile.denies (f : HostFile) (flags : Nat) : Bool :=
  (flags &&& accMode ≠ oWRONLY && !f.mayRead) ||
    ((flags &&& accMode ≠ oRDONLY || flags &&& oTRUNC ≠ 0) && !f.mayWrite)

namespace PosixState

def put (s : PosixState) (path : List Byte) (f : HostFile) : PosixState :=
  { s with file := Function.update s.file path (some f) }

def describe (s : PosixState) (fd : Int) (d : Description) : PosixState :=
  { s with opened := Function.update s.opened fd (some d) }

def bytes (s : PosixState) (d : Description) : List Byte :=
  match s.file d.path with
  | some f => f.contents
  | none => []

def store (s : PosixState) (d : Description) (off : Nat) (buf : List Byte) : PosixState :=
  match s.file d.path with
  | some f => s.put d.path { f with contents := writeAt 0 f.contents off buf }
  | none => s

/-- The file at `path` gets a descriptor. -/
def install (s : PosixState) (path : List Byte) (flags : Nat) : HostResult × PosixState :=
  (.ok s.nextFd [],
    { s.describe s.nextFd ⟨path, 0, flags &&& accMode, flags &&& oAPPEND ≠ 0⟩ with
      nextFd := s.nextFd + 1 })

variable (s : PosixState) (fd : Int) (d d' : Description) (off : Nat) (buf : List Byte)

@[simp] theorem opened_describe : (s.describe fd d).opened fd = some d := Function.update_self ..

@[simp] theorem file_put (path : List Byte) (f : HostFile) : (s.put path f).file path = some f :=
  Function.update_self ..

@[simp] theorem file_describe : (s.describe fd d).file = s.file := rfl

@[simp] theorem bytes_describe : (s.describe fd d).bytes d' = s.bytes d' := rfl

@[simp] theorem describe_describe : (s.describe fd d).describe fd d' = s.describe fd d' := by
  rw [describe, describe, Function.update_idem]
  rfl

@[simp] theorem opened_store : (s.store d off buf).opened = s.opened := by
  rw [store]
  split <;> rfl

theorem store_describe :
    (s.describe fd d).store d' off buf = (s.store d' off buf).describe fd d := by
  simp only [store, file_describe]
  split <;> rfl

end PosixState

/-- `open`, with a umask that leaves the owner's bits alone. -/
def posixOpen (s : PosixState) (path : List Byte) (flags mode : Nat) : HostResult × PosixState :=
  if s.fdLimit ≤ s.nextFd then (.fail posixEMFILE, s)
  else
    match s.file path with
    | none =>
      if flags &&& oCREAT = 0 then (.fail naClAbiENOENT, s)
      else if s.mayCreate path = false then (.fail naClAbiEACCES, s)
      else (s.put path ⟨[], mode &&& 0o400 ≠ 0, mode &&& 0o200 ≠ 0⟩).install path flags
    | some f =>
      if flags &&& oCREAT ≠ 0 ∧ flags &&& oEXCL ≠ 0 then (.fail posixEEXIST, s)
      else if f.denies flags then (.fail naClAbiEACCES, s)
      else if flags &&& oTRUNC ≠ 0 then (s.put path { f with contents := [] }).install path flags
      else s.install path flags

/-- The file that the path leads to behind an `open`, if that succeeds. -/
def fileAfterOpen (s : PosixState) (path : List Byte) (flags mode : Nat) : Option HostFile :=
  if s.fdLimit ≤ s.nextFd then none
  else
    match s.file path with
    | none =>
      if flags &&& oCREAT = 0 ∨ s.mayCreate path = false then none
      else some ⟨[], mode &&& 0o400 ≠ 0, mode &&& 0o200 ≠ 0⟩
    | some f =>
      if (flags &&& oCREAT ≠ 0 ∧ flags &&& oEXCL ≠ 0) ∨ f.denies flags then none
      else some (if flags &&& oTRUNC ≠ 0 then { f with contents := [] } else f)

section Open

variable {s : PosixState} {path : List Byte} {flags mode : Nat}

theorem posixOpen_of_none (fails : fileAfterOpen s path flags mode = none) :
    ∃ e, posixOpen s path flags mode = (.fail e, s) := by
  rw [fileAfterOpen] at fails
  rw [posixOpen]
  split at fails
  · next full => exact ⟨_, if_pos full⟩
  · next free =>
    rw [if_neg free]
    cases at_path : s.file path with
    | none =>
      rw [at_path] at fails
      dsimp only at fails ⊢
      split at fails
      · next refused =>
        by_cases creates : flags &&& oCREAT = 0
        · exact ⟨_, if_pos creates⟩
        · exact ⟨_, by rw [if_neg creates, if_pos (refused.resolve_left creates)]⟩
      · cases fails
    | some f =>
      rw [at_path] at fails
      dsimp only at fails ⊢
      split at fails
      · next refused =>
        by_cases exclusive : flags &&& oCREAT ≠ 0 ∧ flags &&& oEXCL ≠ 0
        · exact ⟨_, if_pos exclusive⟩
        · exact ⟨_, by rw [if_neg exclusive, if_pos (refused.resolve_left exclusive)]⟩
      · cases fails

theorem put_self {f : HostFile} (at_path : s.file path = some f) : s.put path f = s := by
  rw [PosixState.put, ← at_path, Function.update_eq_self]

theorem posixOpen_of_some {f : HostFile} (opens : fileAfterOpen s path flags mode = some f) :
    s.nextFd < s.fdLimit ∧ posixOpen s path flags mode = (s.put path f).install path flags := by
  rw [fileAfterOpen] at opens
  rw [posixOpen]
  split at opens
  · cases opens
  · next free =>
    rw [if_neg free]
    refine ⟨Nat.lt_of_not_le free, ?_⟩
    cases at_path : s.file path with
    | none =>
      rw [at_path] at opens
      dsimp only at opens ⊢
      split at opens
      · cases opens
      · next creates =>
        obtain ⟨creates, mayCreate⟩ := not_or.mp creates
        rw [if_neg creates, if_neg mayCreate]
        cases opens
        rfl
    | some f' =>
      rw [at_path] at opens
      dsimp only at opens ⊢
      split at opens
      · cases opens
      · next allowed =>
        obtain ⟨notExclusive, granted⟩ := not_or.mp allowed
        rw [if_neg notExclusive, if_neg granted]
        cases opens
        split
        · rfl
        · rw [put_self at_path]

end Open

/-- `open(ms->ms_pathname, O_RDWR|O_CREAT|O_SYNC, 0666)`; `O_SYNC` does not change what is
    stored. -/
def sgxOcallOpen (s : PosixState) (path : List Byte) (_flags _mode : Nat) :
    HostResult × PosixState :=
  posixOpen s path (oRDWR ||| oCREAT) 0o666

/-- The host calls on files, over one of the two ways to open.  On Linux a positional write
    ignores its offset in append mode. -/
def posixHost (openCall : PosixState → List Byte → Nat → Nat → HostResult × PosixState)
    (s : PosixState) : HostCall → HostResult × PosixState
  | .open path flags mode => openCall s path flags mode
  | .read fd count =>
    match s.opened fd with
    | none => (.fail naClAbiEBADF, s)
    | some d =>
      if d.access = oWRONLY then (.fail naClAbiEBADF, s)
      else
        let got := readAt (s.bytes d) d.pos count
        (.ok got.length got, s.describe fd { d with pos := d.pos + got.length })
  | .write fd buf =>
    match s.opened fd with
    | none => (.fail naClAbiEBADF, s)
    | some d =>
      if d.access = oRDONLY then (.fail naClAbiEBADF, s)
      else
        let off := if d.append then (s.bytes d).length else d.pos
        (.ok buf.length [], (s.store d off buf).describe fd { d with pos := off + buf.length })
  | .pread64 fd count pos =>
    match s.opened fd with
    | none => (.fail naClAbiEBADF, s)
    | some d =>
      if d.access = oWRONLY then (.fail naClAbiEBADF, s)
      else if 2 ^ 63 ≤ pos then (.fail naClAbiEINVAL, s)
      else
        let got := readAt (s.bytes d) pos count
        (.ok got.length got, s)
  | .pwrite64 fd buf offset =>
    match s.opened fd with
    | none => (.fail naClAbiEBADF, s)
    | some d =>
      if d.access = oRDONLY then (.fail naClAbiEBADF, s)
      else if 2 ^ 63 ≤ offset then (.fail naClAbiEINVAL, s)
      else (.ok buf.length [], s.store d (if d.append then (s.bytes d).length else offset) buf)
  | .fcntl fd cmd args =>
    match s.opened fd with
    | none => (.fail naClAbiEBADF, s)
    | some d =>
      if cmd = fGETFL then (.ok (d.access + if d.append then oAPPEND else 0) [], s)
      else if cmd = fSETFL then
        (.ok 0 [], s.describe fd { d with append := testFlag args oAPPEND })
      else (.fail naClAbiEINVAL, s)
  | .allocUntrusted _ | .unmapUntrusted _ => (.ok 0 [], s)
  | _ => (.fail naClAbiENOSYS, s)

end SandboxTEE.HostDesc
