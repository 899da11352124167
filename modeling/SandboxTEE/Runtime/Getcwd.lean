import SandboxTEE.HostDesc.Model
import SandboxTEE.Lib.ByteMemory
import SandboxTEE.Runtime.Filename
import SandboxTEE.Xcall.DataInSafe

/-! # The current directory (`sys_filename.c`, `nacl_host_desc.c`, `ocall_dir_t.c`)

The host's answer to `getcwd` is copied into an array on the trusted stack, and what stands in the
array is copied out to the user.  `NaClHostDescGetcwd` takes a return value of zero, which is the
host's success, for the failure; and a negative length of the user becomes a very large one of
type `size_t`.
-/

namespace SandboxTEE.Runtime

open SandboxTEE.HostDesc (naClXlateErrno negXlate)
open SandboxTEE.Lib (bytesAt bytesAt_add bytesAt_copy bytesAt_eq_append bytesAt_prefix
  bytesAt_store length_bytesAt store store_of_outside)
open SandboxTEE.Lib.Traced (run_bind_of run_pure)
open SandboxTEE.Stdlib
open SandboxTEE.Xcall (Enclave Event GetcwdReply Wrapper copyOk copied msAt ocallGetcwd
  run_ocallGetcwd)

namespace Getcwd

/-- The process, and the place of `path` in a call of `NaClSysGetcwd`.  Above `path` memory can be
    read up to `readable`. -/
structure Process where
  enclave : Enclave
  nap : AddressSpace
  rootDir : Option RootDir
  fileAccess : Bool
  path : Nat
  readable : Nat
  onStack : path + naClConfigPathMax ≤ readable
  /-- The trusted stack is not memory of the user. -/
  apart : path + naClConfigPathMax ≤ nap.memStart ∨ nap.memStart + 2 ^ nap.addrBits ≤ path

/-- The fields that the host leaves in `ms`, and its memory. -/
structure HostAnswer where
  reply : GetcwdReply
  memory : Memory

/-! ## The source's functions -/

/-- The string at `a`, if it ends below `limit`. -/
def stringAt (mem : Memory) (a limit : Nat) : Option (List Byte) :=
  if 0 ∈ bytesAt mem a (limit - a) then some (cstr (bytesAt mem a (limit - a))) else none

def naClHostDescGetcwd (e : Enclave) (errno path len : Nat) (r : GetcwdReply) : Wrapper Int := do
  let retval ← ocallGetcwd e path len r
  if retval = 0 then pure (negXlate errno) else pure 0

/-- The `ms` structure is no memory of the enclave. -/
def applyEvent (host : Memory) (mem : Memory) : Event → Memory
  | .store _ _ => mem
  | .copyIn dst src size => store mem dst (bytesAt host src size)

/-- What is copied to the user: bytes of the array, from an offset on, or the literal `"/"`. -/
inductive Source where
  | path (off n : Nat)
  | root

/-- What the user finds after the call.  `taken` is what was copied out. -/
structure Returned where
  retval : BitVec 32
  mem : Memory
  taken : Option Source

def Source.bytes (path : Nat) (mem : Memory) : Source → List Byte
  | .path off n => bytesAt mem (path + off) n
  | .root => [slash, 0]

/-- `if (!NaClCopyOutToUser(..)) return -NACL_ABI_EFAULT; return 0;` -/
def naClCopyOutToUser (p : Process) (mem : Memory) (dst : BitVec 32) (src : Source) : Returned :=
  match naClUserToSysAddrRange p.nap dst.toNat (src.bytes p.path mem).length with
  | none => { retval := negErrno naClAbiEFAULT, mem := mem, taken := none }
  | some dstSysAddr =>
    { retval := 0, mem := store mem dstSysAddr (src.bytes p.path mem), taken := some src }

/-- `none` is the fault of a `strlen` that finds no NUL. -/
def copyHostPathOutToUser (p : Process) (mem : Memory) (dst : BitVec 32) : Option Returned := do
  let path ← stringAt mem p.path p.readable
  match p.rootDir with
  | none => some (naClCopyOutToUser p mem dst (.path 0 (path.length + 1)))
  | some root =>
    if pathContainsRootPrefix root path = false then
      some { retval := negErrno naClAbiEACCES, mem := mem, taken := none }
    else if (path ++ [0])[root.path.length]? = some 0 then
      some (naClCopyOutToUser p mem dst .root)
    else
      some (naClCopyOutToUser p mem dst
        (.path root.path.length (path.length - root.path.length + 1)))

/-- The `len` that is passed on. -/
def clampLen (len : BitVec 32) : BitVec 32 :=
  if len.toInt ≥ naClConfigPathMax then .ofNat 32 (naClConfigPathMax - 1) else len

/-- `(size_t) len` -/
def sizeOf (len : BitVec 32) : Nat := ((clampLen len).signExtend 64).toNat

/-- What a call does at the boundary, and how it ends; `none` is a fault. -/
structure Call where
  events : List Event
  returned : Option Returned

def naClSysGetcwd (p : Process) (errno : Nat) (mem : Memory) (buffer len : BitVec 32)
    (answer : HostAnswer) (ustack : Nat) : Call :=
  if p.fileAccess = false then
    { events := []
      returned := some { retval := negErrno naClAbiEACCES, mem := mem, taken := none } }
  else
    let host := (naClHostDescGetcwd p.enclave errno p.path (sizeOf len) answer.reply).run ustack
    let mem := host.events.foldl (applyEvent answer.memory) mem
    { events := host.events
      returned :=
        if host.result ≠ 0 then
          some { retval := .ofInt 32 host.result, mem := mem, taken := none }
        else copyHostPathOutToUser p mem buffer }

/-! ## What a call is to do -/

/-- How the user sees a path of the host. -/
inductive Shows : Option RootDir → List Byte → List Byte → Prop where
  | unmounted {path : List Byte} : Shows none path path
  | root {root : RootDir} : Shows (some root) root.path [slash]
  | below {root : RootDir} {rest : List Byte} :
      Shows (some root) (root.path ++ slash :: rest) (slash :: rest)

/-- The host hands over the string `cwd` in this call. -/
def HandsOver (p : Process) (answer : HostAnswer) (events : List Event) (cwd : List Byte) : Prop :=
  ∃ src size, .copyIn p.path src size ∈ events ∧
    0 ∉ cwd ∧ cwd ++ [0] <+: bytesAt answer.memory src size

/-- The cell is written by this call. -/
def WrittenBy (events : List Event) (a : Nat) : Prop :=
  ∃ dst src size, .copyIn dst src size ∈ events ∧ dst ≤ a ∧ a < dst + size

structure Call.Meets (p : Process) (mem : Memory) (buffer len : BitVec 32) (answer : HostAnswer)
    (c : Call) : Prop where
  inArray : ∀ dst src size, .copyIn dst src size ∈ c.events →
    p.path ≤ dst ∧ dst + size ≤ p.path + naClConfigPathMax
  success : ∀ r, c.returned = some r → r.retval = 0 →
    ∃ cwd shown, HandsOver p answer c.events cwd ∧ Shows p.rootDir cwd shown ∧
      bytesAt r.mem (buffer.toNat + p.nap.memStart) (shown.length + 1) = shown ++ [0] ∧
      ((shown.length + 1 : Nat) : Int) ≤ len.toInt
  written : ∀ r off n, c.returned = some r → r.taken = some (.path off n) →
    ∀ i, off ≤ i → i < off + n → WrittenBy c.events (p.path + i)
  failure : ∀ r, c.returned = some r → r.retval ≠ 0 →
    ∀ a, p.nap.memStart ≤ a → a < p.nap.memStart + 2 ^ p.nap.addrBits → r.mem a = mem a

/-! ## When it is done -/

def size (r : GetcwdReply) : Nat := (r.pathlen + 1) % 2 ^ 64

/-- The host's bytes are taken into the array. -/
def Taken (p : Process) (len : BitVec 32) (r : GetcwdReply) : Prop :=
  (r.ret ≥ 0 ∧ r.pathChecked ≠ 0 ∧ r.pathlenChecked ≠ 0) ∧
    copyOk p.enclave p.path (sizeOf len) r.path (size r) = true

instance (p : Process) (len : BitVec 32) (r : GetcwdReply) : Decidable (Taken p len r) :=
  inferInstanceAs (Decidable (_ ∧ _))

/-- Memory when the host's answer has been dealt with. -/
def answered (p : Process) (mem : Memory) (len : BitVec 32) (answer : HostAnswer) : Memory :=
  if Taken p len answer.reply then
    store mem p.path (bytesAt answer.memory answer.reply.path (size answer.reply))
  else mem

/-- What stands at `path` cannot be shown in the user's buffer: it has no end, is not at or below
    the root, or the buffer does not lie in the sandbox. -/
def Refused (p : Process) (mem : Memory) (buffer : BitVec 32) : Prop :=
  ∀ path shown, stringAt mem p.path p.readable = some path → Shows p.rootDir path shown →
    naClUserToSysAddrRange p.nap buffer.toNat (shown.length + 1) = none

/-- Unless files are closed to the user, no more is taken than the array holds, and: the host
    says zero and `errno` is an error, what then stands in the array is refused, or it begins with
    a string of the host that was taken for a length that is not negative. -/
def MeetsWhen (p : Process) (errno : Nat) (mem : Memory) (buffer len : BitVec 32)
    (answer : HostAnswer) : Prop :=
  p.fileAccess = false ∨
    (Taken p len answer.reply → size answer.reply ≤ naClConfigPathMax) ∧
    ((answer.reply.ret = 0 ∧ naClXlateErrno errno ≠ 0) ∨
      Refused p (answered p mem len answer) buffer ∨
      (0 ≤ len.toInt ∧ Taken p len answer.reply ∧
        0 ∈ bytesAt answer.memory answer.reply.path (size answer.reply)))

variable {p : Process} {errno : Nat} {mem : Memory} {buffer len : BitVec 32} {answer : HostAnswer}
  {ustack : Nat}

/-! ## Strings -/

theorem eq_cstr_append {bytes : List Byte} (nul : 0 ∈ bytes) :
    0 ∉ cstr bytes ∧ ∃ rest, bytes = cstr bytes ++ 0 :: rest := by
  obtain ⟨s, rest, split, none⟩ := List.eq_append_cons_of_mem nul
  rw [split, cstr_append none]
  exact ⟨none, rest, rfl⟩

variable {a : Nat}

theorem stringAt_some {limit : Nat} {s : List Byte} (string : stringAt mem a limit = some s) :
    0 ∉ s ∧ bytesAt mem a (s.length + 1) = s ++ [0] := by
  rw [stringAt] at string
  split at string
  · next nul =>
    obtain ⟨noNul, rest, split⟩ := eq_cstr_append nul
    rw [Option.some.inj string] at noNul split
    have lengths := congrArg List.length split
    simp only [length_bytesAt, List.length_append, List.length_cons] at lengths
    have front : bytesAt mem a (s.length + 1) <+: s ++ [0] ++ rest := by
      rw [← List.append_cons, ← split]
      apply bytesAt_prefix
      omega
    refine ⟨noNul, (List.prefix_of_prefix_length_le front (List.prefix_append _ _) ?_).eq_of_length ?_⟩
    · simp
    · simp
  · cases string

variable {root : RootDir} {path : List Byte}

theorem pathContainsRootPrefix_iff : pathContainsRootPrefix root path = true ↔
      path = root.path ∨ ∃ rest, path = root.path ++ slash :: rest := by
  constructor
  · intro contains
    simp only [pathContainsRootPrefix] at contains
    split at contains
    · cases contains
    · split at contains
      · cases contains
      · next here =>
        -- what stands behind the root is nothing, or begins with a slash
        have split : root.path ++ path.drop root.path.length = path := by
          conv_rhs => rw [← List.take_append_drop root.path.length path, not_not.mp here]
        cases behind : path.drop root.path.length with
        | nil =>
          rw [behind, List.append_nil] at split
          exact .inl split.symm
        | cons b rest =>
          rw [behind] at split
          rw [← split] at contains ⊢
          simp at contains
          exact .inr ⟨rest, by rw [contains]⟩
  · intro contains
    rcases contains with rfl | ⟨rest, rfl⟩
    · simp [pathContainsRootPrefix]
    · simp [pathContainsRootPrefix]

/-! ## Lengths -/

theorem sizeOf_le (nonneg : 0 ≤ len.toInt) :
    (sizeOf len : Int) ≤ len.toInt ∧ sizeOf len < naClConfigPathMax := by
  have small : (clampLen len).msb = false ∧ ((clampLen len).toNat : Int) ≤ len.toInt ∧
      (clampLen len).toNat < naClConfigPathMax := by
    rw [clampLen]
    split
    · next long =>
      refine ⟨by decide, ?_, by decide⟩
      apply Int.le_trans _ long
      decide
    · next short =>
      have positive : len.msb = false := by
        rw [BitVec.msb_eq_toInt, decide_eq_false_iff_not]
        omega
      rw [BitVec.toInt_eq_toNat_of_msb positive] at short ⊢
      exact ⟨positive, Int.le_refl _, by omega⟩
  rw [sizeOf, BitVec.signExtend_eq_setWidth_of_msb_false small.1,
    BitVec.toNat_setWidth_of_le (by decide)]
  exact small.2

theorem Taken.size_le {r : GetcwdReply} (taken : Taken p len r) : size r ≤ sizeOf len := by
  have ok := taken.2
  simp only [copyOk, Bool.not_eq_true', decide_eq_false_iff_not, not_or] at ok
  omega

theorem ofInt_negXlate_ne_zero (fails : naClXlateErrno errno ≠ 0) :
    BitVec.ofInt 32 (negXlate errno) ≠ 0 := by
  have small : naClXlateErrno errno < 2 ^ 31 := by
    rw [naClXlateErrno]
    split
    · decide
    · next mapped =>
      rw [not_or] at mapped
      omega
  intro zero
  have := congrArg BitVec.toInt zero
  rw [negXlate, BitVec.toInt_ofInt] at this
  rw [Int.bmod_eq_of_le (by omega) (by omega)] at this
  simp at this
  omega

/-! ## What one call does -/

theorem run_naClHostDescGetcwd (p : Process) (errno : Nat) (len : BitVec 32) (r : GetcwdReply)
    (ustack : Nat) : (naClHostDescGetcwd p.enclave errno p.path (sizeOf len) r).run ustack =
      { result := if r.ret = 0 then negXlate errno else 0
        state := ustack
        events := .store (msAt p.enclave ustack 24) 24 ::
          if Taken p len r then [.copyIn p.path r.path (size r)] else [] } := by
  have same : (if r.ret ≥ 0 ∧ r.pathChecked ≠ 0 ∧ r.pathlenChecked ≠ 0 then
      copied p.enclave p.path (sizeOf len) r.path (size r) else []) =
        if Taken p len r then [.copyIn p.path r.path (size r)] else [] := by
    rw [copied, ← ite_and]
    rfl
  rw [naClHostDescGetcwd, run_bind_of (run_ocallGetcwd ..), ← same]
  split
  · rw [run_pure, List.append_nil, size]
  · rw [run_pure, List.append_nil, size]

theorem copyIn_mem_events (access : p.fileAccess ≠ false) {dst src n : Nat} :
    .copyIn dst src n ∈ (naClSysGetcwd p errno mem buffer len answer ustack).events ↔
      Taken p len answer.reply ∧
        dst = p.path ∧ src = answer.reply.path ∧ n = size answer.reply := by
  rw [naClSysGetcwd, if_neg access, run_naClHostDescGetcwd]
  by_cases taken : Taken p len answer.reply
  · simp [taken]
  · simp [taken]

theorem naClSysGetcwd_returned (access : p.fileAccess ≠ false) :
    (naClSysGetcwd p errno mem buffer len answer ustack).returned =
      if answer.reply.ret = 0 ∧ naClXlateErrno errno ≠ 0 then
        some { retval := .ofInt 32 (negXlate errno), mem := answered p mem len answer
               taken := none }
      else copyHostPathOutToUser p (answered p mem len answer) buffer := by
  rw [naClSysGetcwd, if_neg access, run_naClHostDescGetcwd]
  have after : List.foldl (applyEvent answer.memory) mem
      (.store (msAt p.enclave ustack 24) 24 ::
        if Taken p len answer.reply then [.copyIn p.path answer.reply.path (size answer.reply)]
        else []) = answered p mem len answer := by
    rw [answered]
    split
    · rfl
    · rfl
  dsimp only
  rw [after]
  by_cases zero : answer.reply.ret = 0
  · simp [zero, negXlate]
  · simp [zero]

/-- The two ways in which a path is copied to the user. -/
inductive CopiedOut (p : Process) (mem : Memory) (buffer : BitVec 32) : Returned → Prop where
  | refused {retval : BitVec 32} (fails : retval ≠ 0) (refused : Refused p mem buffer) :
      CopiedOut p mem buffer { retval := retval, mem := mem, taken := none }
  | shown {path shown : List Byte} {src : Source}
      (string : stringAt mem p.path p.readable = some path) (shows : Shows p.rootDir path shown)
      (inside : naClUserToSysAddrRange p.nap buffer.toNat (shown.length + 1) =
        some (buffer.toNat + p.nap.memStart))
      (part : ∀ off n, src = .path off n → off + n = path.length + 1) :
      CopiedOut p mem buffer
        { retval := 0, mem := store mem (buffer.toNat + p.nap.memStart) (shown ++ [0])
          taken := some src }

variable {shown : List Byte}

theorem Shows.mounted (shows : Shows (some root) path shown) :
    (path = root.path ∧ shown = [slash]) ∨
      ∃ rest, path = root.path ++ slash :: rest ∧ shown = slash :: rest := by
  cases shows with
  | root => exact .inl ⟨rfl, rfl⟩
  | below => exact .inr ⟨_, rfl, rfl⟩

variable {rootDir : Option RootDir}

theorem Shows.unique {shown' : List Byte} (shows : Shows rootDir path shown)
    (shows' : Shows rootDir path shown') : shown = shown' := by
  cases rootDir with
  | none =>
    cases shows
    cases shows'
    rfl
  | some root =>
    rcases shows.mounted with ⟨rfl, rfl⟩ | ⟨rest, rfl, rfl⟩
    · rcases shows'.mounted with ⟨_, rfl⟩ | ⟨rest', same, _⟩
      · rfl
      · simp at same
    · rcases shows'.mounted with ⟨same, _⟩ | ⟨rest', same, rfl⟩
      · simp at same
      · exact List.append_cancel_left same

theorem naClCopyOutToUser_copiedOut {src : Source}
    (string : stringAt mem p.path p.readable = some path) (shows : Shows p.rootDir path shown)
    (bytes : src.bytes p.path mem = shown ++ [0])
    (part : ∀ off n, src = .path off n → off + n = path.length + 1) :
    CopiedOut p mem buffer (naClCopyOutToUser p mem buffer src) := by
  have length : (src.bytes p.path mem).length = shown.length + 1 := by simp [bytes]
  rw [naClCopyOutToUser, length]
  split
  · next bad =>
    apply CopiedOut.refused (negErrno_ne_zero_of_lt (by decide) (by decide))
    intro path' shown' string' shows'
    rw [Option.some.inj (string.symm.trans string')] at shows
    rw [shows'.unique shows, bad]
  · next translated =>
    obtain ⟨_, _, rfl⟩ := naClUserToSysAddrRange_some translated
    rw [bytes]
    exact .shown string shows translated part

theorem copyHostPathOutToUser_none (fault : copyHostPathOutToUser p mem buffer = none) :
    Refused p mem buffer := by
  intro path shown string shows
  rw [copyHostPathOutToUser, string] at fault
  cases mounted : p.rootDir with
  | none => simp [mounted] at fault
  | some root =>
    simp only [mounted, Option.bind_eq_bind, Option.bind_some] at fault
    split at fault
    · cases fault
    · split at fault
      · cases fault
      · cases fault

variable {r : Returned}

theorem copyHostPathOutToUser_some (returned : copyHostPathOutToUser p mem buffer = some r) :
    CopiedOut p mem buffer r := by
  rw [copyHostPathOutToUser] at returned
  obtain ⟨path, string, returned⟩ := Option.bind_eq_some_iff.mp returned
  have bytes := (stringAt_some string).2
  split at returned
  · next unmounted =>
    cases returned
    apply naClCopyOutToUser_copiedOut string (unmounted ▸ Shows.unmounted)
    · exact bytes
    · intro off n same
      cases same
      omega
  · next root mounted =>
    cases contains : pathContainsRootPrefix root path with
    | false =>
      rw [if_pos contains] at returned
      cases returned
      apply CopiedOut.refused (negErrno_ne_zero_of_lt (by decide) (by decide))
      intro path' shown string' shows
      -- only what has the prefix can be shown
      have prefixed : pathContainsRootPrefix root path' = true := by
        rw [mounted] at shows
        rw [pathContainsRootPrefix_iff]
        rcases shows.mounted with ⟨root, _⟩ | ⟨rest, below, _⟩
        · exact .inl root
        · exact .inr ⟨rest, below⟩
      cases string.symm.trans string'
      rw [contains] at prefixed
      cases prefixed
    | true =>
      rw [if_neg (by simp [contains])] at returned
      rcases pathContainsRootPrefix_iff.mp contains with rfl | ⟨rest, rfl⟩
      · rw [if_pos (by simp)] at returned
        cases returned
        apply naClCopyOutToUser_copiedOut string (mounted ▸ Shows.root) rfl
        intro off n same
        cases same
      · rw [if_neg (by simp [slash])] at returned
        cases returned
        apply naClCopyOutToUser_copiedOut string (mounted ▸ Shows.below)
        · -- the part behind the root
          have whole : bytesAt mem p.path (root.path ++ (slash :: rest ++ [0])).length =
              root.path ++ (slash :: rest ++ [0]) := by
            rw [← List.append_assoc]
            simpa [Nat.add_assoc] using bytes
          have behind := (bytesAt_eq_append.mp whole).2
          simpa [Source.bytes] using behind
        · intro off n same
          cases same
          simp
          omega

/-! ## The array -/

/-- The host's bytes go to the beginning of the array, if they fit. -/
theorem bytesAt_answered (taken : Taken p len answer.reply) :
    bytesAt (answered p mem len answer) p.path (size answer.reply) =
      bytesAt answer.memory answer.reply.path (size answer.reply) := by
  rw [answered, if_pos taken, bytesAt_copy]

/-- A string that the host ends in front of the end of the array is what stands there. -/
theorem stringAt_answered (taken : Taken p len answer.reply)
    (fits : size answer.reply ≤ naClConfigPathMax)
    (nul : 0 ∈ bytesAt answer.memory answer.reply.path (size answer.reply)) :
    stringAt (answered p mem len answer) p.path p.readable =
      some (cstr (bytesAt answer.memory answer.reply.path (size answer.reply))) := by
  have room := p.onStack
  have front : bytesAt (answered p mem len answer) p.path (p.readable - p.path) =
      bytesAt answer.memory answer.reply.path (size answer.reply) ++
        bytesAt (answered p mem len answer) (p.path + size answer.reply)
          (p.readable - p.path - size answer.reply) := by
    rw [← bytesAt_answered taken, ← bytesAt_add]
    congr 1
    omega
  obtain ⟨noNul, rest, split⟩ := eq_cstr_append nul
  rw [stringAt, front, if_pos (List.mem_append_left _ nul)]
  conv_lhs => rw [split, List.append_assoc, List.cons_append, cstr_append noNul]

/-- Memory of the user does not change while no more is taken than the array holds. -/
theorem answered_user (fits : Taken p len answer.reply → size answer.reply ≤ naClConfigPathMax)
    (above : p.nap.memStart ≤ a) (below : a < p.nap.memStart + 2 ^ p.nap.addrBits) :
    answered p mem len answer a = mem a := by
  rw [answered]
  split
  · next taken =>
    have := fits taken
    have := p.apart
    apply store_of_outside
    rw [length_bytesAt]
    omega
  · rfl

theorem Shows.length_le (shows : Shows rootDir path shown) : shown.length ≤ path.length := by
  cases shows with
  | unmounted => exact Nat.le_refl _
  | root =>
    rename_i root
    cases names : root.names with
    | nil => exact absurd names root.nonempty
    | cons name names' => simp [RootDir.path, pathOf, names]
  | below => simp

/-! ## The call -/

theorem returned_cases (access : p.fileAccess ≠ false)
    (returned : (naClSysGetcwd p errno mem buffer len answer ustack).returned = some r) :
    (r.retval ≠ 0 ∧ r.mem = answered p mem len answer ∧ r.taken = none) ∨
      CopiedOut p (answered p mem len answer) buffer r := by
  rw [naClSysGetcwd_returned access] at returned
  split at returned
  · next fails =>
    cases returned
    exact .inl ⟨ofInt_negXlate_ne_zero fails.2, rfl, rfl⟩
  · exact .inr (copyHostPathOutToUser_some returned)

theorem meets_of_denied (denied : p.fileAccess = false) :
    (naClSysGetcwd p errno mem buffer len answer ustack).Meets p mem buffer len answer := by
  rw [naClSysGetcwd, if_pos denied]
  refine ⟨?_, ?_, ?_, ?_⟩
  · intro dst src size member
    cases member
  · intro r returned zero
    cases returned
    exact absurd zero (negErrno_ne_zero_of_lt (by decide) (by decide))
  · intro r off n returned taken
    cases returned
    cases taken
  · intro r returned _ a _ _
    cases returned
    rfl

/-- A call that takes no more than the array holds meets what is asked of it if its successes
    find the end of the path in what was taken. -/
theorem meets_of_ended (access : p.fileAccess ≠ false)
    (fits : Taken p len answer.reply → size answer.reply ≤ naClConfigPathMax) (ended : ∀ r path,
      (naClSysGetcwd p errno mem buffer len answer ustack).returned = some r → r.retval = 0 →
      stringAt (answered p mem len answer) p.path p.readable = some path →
        0 ≤ len.toInt ∧ Taken p len answer.reply ∧ path.length + 1 ≤ size answer.reply) :
    (naClSysGetcwd p errno mem buffer len answer ustack).Meets p mem buffer len answer := by
  refine ⟨?_, ?_, ?_, ?_⟩
  · intro dst src n member
    obtain ⟨taken, rfl, rfl, rfl⟩ := (copyIn_mem_events access).mp member
    have := fits taken
    omega
  · intro r returned zero
    rcases returned_cases access returned with ⟨fails, _⟩ | out
    · exact absurd zero fails
    cases out with
    | refused fails _ => exact absurd zero fails
    | @shown path shown src string shows inside part =>
      obtain ⟨nonneg, taken, long⟩ := ended _ path returned zero string
      obtain ⟨noNul, bytes⟩ := stringAt_some string
      refine ⟨path, shown, ⟨answer.reply.path, size answer.reply, ?_, noNul, ?_⟩, shows, ?_, ?_⟩
      · exact (copyIn_mem_events access).mpr ⟨taken, rfl, rfl, rfl⟩
      · rw [← bytesAt_answered taken, ← bytes]
        exact bytesAt_prefix long
      · have copied := @bytesAt_store _ (answered p mem len answer)
          (buffer.toNat + p.nap.memStart) (shown ++ [0])
        rwa [List.length_append] at copied
      · have := shows.length_le
        have := taken.size_le
        have := sizeOf_le nonneg
        omega
  · intro r off n returned took i _ inside
    rcases returned_cases access returned with ⟨_, _, none⟩ | out
    · rw [none] at took
      cases took
    cases out with
    | refused => cases took
    | @shown path shown src string shows _ part =>
      obtain ⟨_, taken, long⟩ := ended _ path returned rfl string
      have := part off n (Option.some.inj took)
      refine ⟨p.path, answer.reply.path, size answer.reply, ?_, by omega, by omega⟩
      exact (copyIn_mem_events access).mpr ⟨taken, rfl, rfl, rfl⟩
  · intro r returned fails a above below
    rcases returned_cases access returned with ⟨_, same, _⟩ | out
    · rw [same, answered_user fits above below]
    cases out with
    | refused => exact answered_user fits above below
    | shown => exact absurd rfl fails

theorem naClSysGetcwd_meets_iff (p : Process) (errno : Nat) (mem : Memory) (buffer len : BitVec 32)
    (answer : HostAnswer) (ustack : Nat) :
    (naClSysGetcwd p errno mem buffer len answer ustack).Meets p mem buffer len answer ↔
      MeetsWhen p errno mem buffer len answer := by
  by_cases access : p.fileAccess = false
  · exact iff_of_true (meets_of_denied access) (.inl access)
  have returned := @naClSysGetcwd_returned p errno mem buffer len answer ustack access
  constructor
  · intro meets
    refine .inr ⟨?_, ?_⟩
    · intro taken
      have := meets.inArray _ _ _ ((copyIn_mem_events access).mpr ⟨taken, rfl, rfl, rfl⟩)
      omega
    · by_cases fails : answer.reply.ret = 0 ∧ naClXlateErrno errno ≠ 0
      · exact .inl fails
      rw [if_neg fails] at returned
      cases out : copyHostPathOutToUser p (answered p mem len answer) buffer with
      | none => exact .inr (.inl (copyHostPathOutToUser_none out))
      | some r =>
        cases copyHostPathOutToUser_some out with
        | refused _ refused => exact .inr (.inl refused)
        | shown string shows inside part =>
          -- a success has what the host handed over, so something was taken
          obtain ⟨cwd, shown, ⟨src, n, copied, _, handed⟩, _, _, within⟩ :=
            meets.success _ (returned.trans out) rfl
          obtain ⟨taken, _, rfl, rfl⟩ := (copyIn_mem_events access).mp copied
          refine .inr (.inr ⟨by omega, taken, ?_⟩)
          apply handed.subset
          simp
  · intro condition
    obtain ⟨fits, condition⟩ := condition.resolve_left access
    apply meets_of_ended access fits
    intro r path success zero string
    rcases condition with fails | refused | ⟨nonneg, taken, nul⟩
    · rw [if_pos fails] at returned
      cases returned.symm.trans success
      exact absurd zero (ofInt_negXlate_ne_zero fails.2)
    · rcases returned_cases access success with ⟨fails, _⟩ | out
      · exact absurd zero fails
      cases out with
      | refused fails _ => exact absurd zero fails
      | shown string shows inside _ =>
        rw [refused _ _ string shows] at inside
        cases inside
    · rw [stringAt_answered taken (fits taken) nul] at string
      obtain ⟨_, rest, split⟩ := eq_cstr_append nul
      have lengths := congrArg List.length split
      simp only [length_bytesAt, List.length_append, List.length_cons, Option.some.inj string]
        at lengths
      exact ⟨nonneg, taken, by omega⟩

/-- An array above the enclave's base and below the sandbox. -/
def onStack : Process where
  enclave := { base := 65536, top := 2 ^ 34, ustackTop := 4096 }
  nap := sandbox32
  rootDir := none
  fileAccess := true
  path := 131072
  readable := 131072 + 1024
  onStack := by decide
  apart := by decide

/-- The host's `getcwd` fails, and an old `x` that stands in the array is what the user gets. -/
theorem naClSysGetcwd_stale :
    let mem := memoryAt 131072 [120]
    let answer : HostAnswer := { reply := ⟨-1, 0, 0, 0, 0⟩, memory := fun _ => 0 }
    let call := naClSysGetcwd onStack 0 mem 65536 256 answer 4096
    call.returned.map (fun r => (r.retval, r.mem (2 ^ 32 + 65536))) = some (0, 120) ∧
      ¬ call.Meets onStack mem 65536 256 answer := by
  intro mem answer call
  have stale : call.returned.map (fun r => (r.retval, r.mem (2 ^ 32 + 65536))) = some (0, 120) := by
    decide +kernel
  refine ⟨stale, fun meets => ?_⟩
  obtain ⟨r, returned, same⟩ := Option.map_eq_some_iff.mp stale
  obtain ⟨cwd, shown, ⟨src, n, copied, _⟩, _⟩ :=
    meets.success r returned (congrArg Prod.fst same)
  obtain ⟨⟨⟨succeeds, _⟩, _⟩, _⟩ := (copyIn_mem_events (by decide)).mp copied
  exact absurd succeeds (by decide)

end Getcwd

end SandboxTEE.Runtime
