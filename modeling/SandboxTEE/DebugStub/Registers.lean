import SandboxTEE.DebugStub.Transparency

/-! # Register and memory writes of the debugger (`target.cc`, `thread_common.cc`, `abi.cc`)

The commands `G` and `M` read their data with `GetBlock` and do not look at its result, so what data
are missing is taken from what was in the buffer before.  The register block of a thread is its
`NaClSignalContext` on x86-64.
-/

namespace SandboxTEE.DebugStub

open SandboxTEE.Lib (bytesAt store find updateAt leValue)
open SandboxTEE.Runtime

/-! ## Registers -/

/-- The types that occur on x86-64. -/
inductive RegType where
  | general
  | readOnly
  | x8664TrustedPtr
  | readOnlyZero

structure RegDef where
  bytes : Nat
  type : RegType
  offset : Nat

/-- `RegsX86_64`: `rax` to `rdi`, `rbp` and `rsp`, `r8` to `r14`, `r15`, `rip`, `eflags`, and the six
    segment registers. -/
def regsX8664 : List (Nat × RegType) :=
  List.replicate 6 (8, .general) ++ List.replicate 2 (8, .x8664TrustedPtr) ++
    List.replicate 7 (8, .general) ++ [(8, .readOnly), (8, .x8664TrustedPtr), (4, .general)] ++
    List.replicate 6 (4, .readOnlyZero)

/-- `Abi::Register` gives every register its offset. -/
def withOffsets : Nat → List (Nat × RegType) → List RegDef
  | _, [] => []
  | offs, (bytes, type) :: regs => ⟨bytes, type, offs⟩ :: withOffsets (offs + bytes) regs

def regDefs : List RegDef := withOffsets 0 regsX8664

def getContextSize : Nat := (regsX8664.map Prod.fst).sum

/-- `prog_ctr` is register 16. -/
def progCtrOffset : Nat := 128

/-- A block of registers, by offset. -/
abbrev Context := Nat → Char8

def isZero (bytes : List Char8) : Bool := bytes.all (· = 0)

/-- The check of one register in `SetRegisters`. -/
def RegDef.valid (reg : RegDef) (src context : Context) : Bool :=
  match reg.type with
  | .general => true
  | .readOnly => bytesAt src reg.offset reg.bytes = bytesAt context reg.offset reg.bytes
  | .readOnlyZero =>
    bytesAt src reg.offset reg.bytes = bytesAt context reg.offset reg.bytes ||
      isZero (bytesAt src reg.offset reg.bytes)
  | .x8664TrustedPtr =>
    bytesAt src (reg.offset + 4) 4 = bytesAt context (reg.offset + 4) 4 ||
      isZero (bytesAt src (reg.offset + 4) 4)

/-- How many bytes of it are copied then. -/
def RegDef.copied (reg : RegDef) : Nat :=
  match reg.type with
  | .readOnly | .readOnlyZero => 0
  | .x8664TrustedPtr => 4
  | .general => reg.bytes

/-- The second loop of `SetRegisters`. -/
def copyRegisters (src context : Context) (regs : List RegDef) : Context :=
  regs.foldl (fun context reg => store context reg.offset (bytesAt src reg.offset reg.copied))
    context

/-- `Thread::SetRegisters`; `none` is the result `false`. -/
def setRegisters (src context : Context) : Option Context :=
  if regDefs.all (·.valid src context) then some (copyRegisters src context regDefs) else none

/-! ## The target with its threads -/

structure Debuggee where
  target : Target
  /-- `ctx_` -/
  ctx : Context
  /-- `threads_` in the order of the ids, by their `context_`. -/
  threads : List (Nat × Context)
  /-- `reg_thread_` -/
  regThread : Nat

namespace Debuggee

def getRegThread (d : Debuggee) : Option (Nat × Context) :=
  if d.regThread = 0 ∨ d.regThread = 0xffffffff then d.threads.head?
  else (find d.regThread d.threads).map fun context => (d.regThread, context)

/-- What a case of `ProcessPacket` leaves behind. -/
structure Processed where
  debuggee : Debuggee
  pktOut : Packet
  err : Target.ErrDef

/-- `case 'G'`.  The result of `GetBlock` is not looked at. -/
def writeRegisters (nap : Nap) (os : Os) (d : Debuggee) (pktIn pktOut : Packet) : Processed :=
  match d.getRegThread with
  | none => ⟨d, pktOut, .badArgs⟩
  | some (id, context) =>
    let ctx := store d.ctx 0 (pktIn.getBlock (bytesAt d.ctx 0 getContextSize)).2.1
    let newPc := leValue (bytesAt ctx progCtrOffset 8) % 2 ^ 32
    if d.target.isOnValidInstBoundary nap os newPc = false then ⟨{ d with ctx }, pktOut, .failed⟩
    else
      match setRegisters ctx context with
      | none => ⟨{ d with ctx }, pktOut, .failed⟩
      | some context => ⟨{ d with
          ctx
          threads := updateAt (fun _ => some context) id d.threads },
        pktOut.addString Target.okReply, .none⟩

/-- If there is an error, its code is returned instead of a payload. -/
def Processed.reply (done : Processed) : Processed :=
  if done.err = .none then done
  else { done with pktOut := (done.pktOut.clear.addRawChar 0x45).addWord8 done.err.code }

/-- `ProcessPacket` of a packet that writes. -/
def processPacket (nap : Nap) (os : Os) (d : Debuggee) (pktIn pktOut : Packet) :
    Option Processed :=
  let cmd := pktIn.getRawChar Ch.nul
  let pktOut := Target.startReply pktIn pktOut
  let done : Option Processed :=
    if cmd.ch = 0x4d then
      let done := d.target.writeMemory nap os cmd.packet pktOut
      some ⟨{ d with target := done.target }, done.pktOut, done.err⟩
    else if cmd.ch = 0x47 then some (d.writeRegisters nap os cmd.packet pktOut)
    else none
  done.map (·.reply)

end Debuggee

/-! ## What is to hold -/

/-- The rest of the packet is read as exactly these bytes. -/
def Decodes (p : Packet) (bytes : List Char8) : Prop :=
  let read := p.getBlock (List.replicate bytes.length Ch.nul)
  read.1 = true ∧ read.2.1 = bytes ∧ read.2.2.endOfPacket = true

def IsOk (pktOut : Packet) : Prop := pktOut.getPayload = Target.okReply

/-- `E` and two digits. -/
def IsError (pktOut : Packet) : Prop :=
  ∃ err : Target.ErrDef, err ≠ .none ∧
    pktOut.getPayload = ((Packet.new.addRawChar 0x45).addWord8 err.code).getPayload

/-- The registers and the memory are as before. -/
def Debuggee.Unchanged (d d' : Debuggee) : Prop := d'.target = d.target ∧ d'.threads = d.threads

/-- The rest of the packet is read as so many bytes. -/
def Exact (p : Packet) (len : Nat) : Prop := ∃ bytes : List Char8, bytes.length = len ∧ Decodes p bytes

/-- An `M` packet: the address and the length it declares, and the packet behind these. -/
def Writes (pktIn : Packet) (userAddr wlen : Nat) (rest : Packet) : Prop :=
  (pktIn.getRawChar Ch.nul).ch = 0x4d ∧
    Target.readRange (pktIn.getRawChar Ch.nul).packet = (some (userAddr, wlen), rest)

/-- A `G` packet, behind the command. -/
def Sets (pktIn rest : Packet) : Prop :=
  (pktIn.getRawChar Ch.nul).ch = 0x47 ∧ (pktIn.getRawChar Ch.nul).packet = rest

/-- Exactly the bytes of an `M` packet go to exactly their range. -/
def WrittenTo (nap : Nap) (userAddr : Nat) (bytes : List Char8) (d d' : Debuggee) : Prop :=
  d'.target = { d.target with
    mem := store d.target.mem (Target.adjustUserAddr nap userAddr + nap.memStart) bytes } ∧
    d'.threads = d.threads

/-- Exactly the bytes of a `G` packet are the registers of the thread then. -/
def SetTo (bytes : List Char8) (d d' : Debuggee) : Prop :=
  d'.target = d.target ∧ ∃ id context context', d.getRegThread = some (id, context) ∧
    d'.threads = updateAt (fun _ => some context') id d.threads ∧
    bytesAt context' 0 getContextSize = bytes

/-- All or nothing. -/
structure AllOrNothing (nap : Nap) (d : Debuggee) (pktIn : Packet) (done : Debuggee.Processed) :
    Prop where
  memory : ∀ userAddr wlen rest bytes, Writes pktIn userAddr wlen rest → bytes.length = wlen →
    Decodes rest bytes → IsOk done.pktOut ∧ WrittenTo nap userAddr bytes d done.debuggee
  registers : ∀ rest bytes, Sets pktIn rest → bytes.length = getContextSize →
    Decodes rest bytes → IsOk done.pktOut ∧ SetTo bytes d done.debuggee
  nothing : (∀ userAddr wlen rest, Writes pktIn userAddr wlen rest → ¬Exact rest wlen) →
    (∀ rest, Sets pktIn rest → ¬Exact rest getContextSize) →
    IsError done.pktOut ∧ d.Unchanged done.debuggee

/-! ## When it does -/

/-- Where a range begins, unless a write to it is refused: it has to be in the sandbox, behind the
    code. -/
def accepted (nap : Nap) (userAddr wlen : Nat) : Option Nat :=
  match naClUserToSysAddrRange nap.toAddressSpace (Target.adjustUserAddr nap userAddr) wlen with
  | none => none
  | some sysAddr => if Target.adjustUserAddr nap userAddr < nap.dynamicTextEnd then none else some sysAddr

/-- The data of a write that is refused are not exact.  The data of one that is not refused are exact,
    and the system can store them; or they are not, and the system fails, and what it gets through
    before that is in the memory already. -/
def MemoryProper (nap : Nap) (os : Os) (d : Debuggee) (pktIn : Packet) : Prop :=
  ∀ userAddr wlen rest, Writes pktIn userAddr wlen rest →
    match accepted nap userAddr wlen with
    | none => ¬Exact rest wlen
    | some sysAddr =>
      Exact rest wlen ∧ os.succeeds nap sysAddr wlen = true ∨
        ¬Exact rest wlen ∧ os.succeeds nap sysAddr wlen = false ∧
          (rest.getBlock (bytesAt os.fresh 0 wlen)).2.1.take (os.count nap sysAddr wlen) <+:
            bytesAt d.target.mem sysAddr wlen

/-- `ctx_` with the data of the packet. -/
def Debuggee.loaded (d : Debuggee) (rest : Packet) : Context :=
  store d.ctx 0 (rest.getBlock (bytesAt d.ctx 0 getContextSize)).2.1

/-- The tests of new registers. -/
def Debuggee.takes (nap : Nap) (os : Os) (d : Debuggee) (ctx context : Context) : Bool :=
  d.target.isOnValidInstBoundary nap os (leValue (bytesAt ctx progCtrOffset 8) % 2 ^ 32) &&
    regDefs.all (·.valid ctx context)

/-- What `SetRegisters` does not copy is the same already. -/
def SameElsewhere (ctx context : Context) : Prop :=
  ∀ p < getContextSize, (∀ reg ∈ regDefs, ¬(reg.offset ≤ p ∧ p < reg.offset + reg.copied)) →
    context p = ctx p

/-- The same for registers: they are refused and not exact; or exact, taken, and the same in all that
    the debugger may not change. -/
def RegistersProper (nap : Nap) (os : Os) (d : Debuggee) (pktIn : Packet) : Prop :=
  ∀ rest, Sets pktIn rest →
    match d.getRegThread with
    | none => ¬Exact rest getContextSize
    | some (_, context) =>
      Exact rest getContextSize ∧ d.takes nap os (d.loaded rest) context = true ∧
          SameElsewhere (d.loaded rest) context ∨
        ¬Exact rest getContextSize ∧ d.takes nap os (d.loaded rest) context = false

/-! ## Reading the data -/

variable {p : Packet} {nap : Nap} {os : Os} {d : Debuggee} {pktIn pktOut rest : Packet}

/-- Only what is missing comes from the memory before. -/
theorem getBlock_old {old old' : List Char8} (same : old.length = old'.length) :
    (p.getBlock old).1 = (p.getBlock old').1 ∧ (p.getBlock old).2.2 = (p.getBlock old').2.2 ∧
      ((p.getBlock old).1 = true → (p.getBlock old).2.1 = (p.getBlock old').2.1) := by
  induction old generalizing p old' with
  | nil =>
    cases old' with
    | nil => exact ⟨rfl, rfl, fun _ => rfl⟩
    | cons o old' => cases same
  | cons o old ih =>
    cases old' with
    | nil => cases same
    | cons o' old' =>
      rw [Packet.getBlock, Packet.getBlock]
      cases p.getWord8 with
      | mk byte? q =>
        cases byte? with
        | none => exact ⟨rfl, rfl, fun ok => by cases ok⟩
        | some byte =>
          obtain ⟨ok, packet, block⟩ := @ih q old' (Nat.succ.inj same)
          exact ⟨ok, packet, fun read => congrArg (byte :: ·) (block read)⟩

theorem Decodes.read {bytes old : List Char8} (decodes : Decodes p bytes)
    (same : old.length = bytes.length) : (p.getBlock old).1 = true ∧ (p.getBlock old).2.1 = bytes ∧
      (p.getBlock old).2.2.endOfPacket = true := by
  obtain ⟨ok, block, atEnd⟩ := decodes
  obtain ⟨ok', packet, block'⟩ := getBlock_old (p := p)
    (show (List.replicate bytes.length Ch.nul).length = old.length by simp [same])
  exact ⟨ok' ▸ ok, (block' ok) ▸ block, packet ▸ atEnd⟩

theorem exact_iff (old : List Char8) : Exact p old.length ↔
    (p.getBlock old).1 = true ∧ (p.getBlock old).2.2.endOfPacket = true := by
  constructor
  · rintro ⟨bytes, length, decodes⟩
    obtain ⟨ok, _, atEnd⟩ := decodes.read length.symm
    exact ⟨ok, atEnd⟩
  · intro read
    refine ⟨(p.getBlock old).2.1, length_getBlock old p, ?_⟩
    have same := getBlock_old (p := p)
      (show old.length = (List.replicate (p.getBlock old).2.1.length Ch.nul).length by
        rw [List.length_replicate, length_getBlock])
    exact ⟨same.1 ▸ read.1, (same.2.2 read.1).symm, same.2.1 ▸ read.2⟩

theorem Decodes.block {bytes : List Char8} (decodes : Decodes p bytes) (old : List Char8)
    (same : bytes.length = old.length) : (p.getBlock old).2.1 = bytes :=
  (decodes.read same.symm).2.1

/-! ## Replies -/

theorem startReply_data : (Target.startReply pktIn pktOut).data = [] := by
  rw [Target.startReply]
  cases pktIn.getSequence with
  | none => rfl
  | some seq => rfl

theorem isOk_reply : IsOk ((Target.startReply pktIn pktOut).addString Target.okReply) := by
  rw [IsOk, Packet.getPayload, Target.okReply, Packet.addString]
  simp [startReply_data]

theorem isError_reply {err : Target.ErrDef} (error : err ≠ .none) :
    IsError ((pktOut.clear.addRawChar 0x45).addWord8 err.code) :=
  ⟨err, error, rfl⟩

theorem not_isError_of_isOk (ok : IsOk p) : ¬IsError p := by
  rintro ⟨err, _, payload⟩
  rw [IsOk] at ok
  rw [ok] at payload
  exact absurd (congrArg List.length payload) (by decide : ¬2 = 3)

/-! ## `M` -/

theorem accepted_some {userAddr wlen sysAddr : Nat} (taken : accepted nap userAddr wlen = some sysAddr) :
    naClUserToSysAddrRange nap.toAddressSpace (Target.adjustUserAddr nap userAddr) wlen =
      some sysAddr ∧ ¬Target.adjustUserAddr nap userAddr < nap.dynamicTextEnd := by
  rw [accepted] at taken
  split at taken
  · cases taken
  · next translated =>
    split at taken
    · cases taken
    · next behind =>
      cases taken
      exact ⟨translated, behind⟩

/-- A range that is not refused has a length of 32 bits. -/
theorem accepted_length {userAddr wlen sysAddr : Nat}
    (taken : accepted nap userAddr wlen = some sysAddr) : wlen % 2 ^ 32 = wlen := by
  obtain ⟨nonzero, inside, _⟩ := naClUserToSysAddrRange_some (accepted_some taken).1
  have := Nat.pow_le_pow_right (by decide : 0 < 2) nap.addrBits_le
  exact Nat.mod_eq_of_lt (by omega)

/-- What `case 'M'` does, once the range is read. -/
theorem writeMemory_eq {t : Target} {userAddr wlen : Nat}
    (range : Target.readRange p = (some (userAddr, wlen), rest)) :
    t.writeMemory nap os p pktOut = match accepted nap userAddr wlen with
      | none => ⟨t, pktOut, .failed⟩
      | some sysAddr => let block := (rest.getBlock (bytesAt os.fresh 0 wlen)).2.1
        let mem := store t.mem sysAddr (block.take (os.count nap sysAddr wlen))
        if os.succeeds nap sysAddr wlen = true then
          ⟨{ t with mem }, pktOut.addString Target.okReply, .none⟩
        else ⟨{ t with mem }, pktOut, .failed⟩ := by
  cases taken : accepted nap userAddr wlen with
  | none =>
    rw [Target.writeMemory, range]
    rw [accepted] at taken
    cases translated :
        naClUserToSysAddrRange nap.toAddressSpace (Target.adjustUserAddr nap userAddr) wlen with
    | none => simp only [translated]
    | some sysAddr =>
      by_cases code : Target.adjustUserAddr nap userAddr < nap.dynamicTextEnd
      · simp only [translated, if_pos code]
      · rw [translated] at taken
        simp only [if_neg code] at taken
        cases taken
  | some sysAddr =>
    obtain ⟨translated, behind⟩ := accepted_some taken
    have length : (rest.getBlock (bytesAt os.fresh 0 wlen)).2.1.length = wlen := by
      rw [length_getBlock, SandboxTEE.Lib.length_bytesAt]
    rw [Target.writeMemory, range]
    simp only [translated, if_neg behind, accepted_length taken, setMemory_eq, length]
    cases os.succeeds nap sysAddr wlen <;> simp

variable {done : Debuggee.Processed} {userAddr wlen : Nat}

/-- An `M` packet declares one range, and is no `G` packet. -/
theorem allOrNothing_of_writes (writes : Writes pktIn userAddr wlen rest) :
    AllOrNothing nap d pktIn done ↔
      (∀ bytes : List Char8, bytes.length = wlen → Decodes rest bytes →
        IsOk done.pktOut ∧ WrittenTo nap userAddr bytes d done.debuggee) ∧
      (¬Exact rest wlen → IsError done.pktOut ∧ d.Unchanged done.debuggee) := by
  have noRegisters (rest' : Packet) : ¬Sets pktIn rest' := by
    intro sets
    exact absurd (writes.1.symm.trans sets.1) (by decide)
  have one {userAddr' wlen' rest'} (other : Writes pktIn userAddr' wlen' rest') :
      userAddr' = userAddr ∧ wlen' = wlen ∧ rest' = rest := by
    have same := other.2.symm.trans writes.2
    simp only [Prod.mk.injEq, Option.some.injEq] at same
    exact ⟨same.1.1, same.1.2, same.2⟩
  constructor
  · intro whole
    refine ⟨fun bytes => whole.memory userAddr wlen rest bytes writes, fun inexact => ?_⟩
    apply whole.nothing
    · intro userAddr' wlen' rest' other
      obtain ⟨_, rfl, rfl⟩ := one other
      exact inexact
    · intro rest' sets
      exact absurd sets (noRegisters rest')
  · intro whole
    refine ⟨?_, fun rest' bytes sets => absurd sets (noRegisters rest'), ?_⟩
    · intro userAddr' wlen' rest' bytes other
      obtain ⟨rfl, rfl, rfl⟩ := one other
      exact whole.1 bytes
    · intro inexact _
      exact whole.2 (inexact userAddr wlen rest writes)

theorem processPacket_writes (writes : Writes pktIn userAddr wlen rest)
    (run : d.processPacket nap os pktIn pktOut = some done) :
    done = match accepted nap userAddr wlen with
      | none => ⟨d, (((Target.startReply pktIn pktOut).clear.addRawChar 0x45).addWord8
          Target.ErrDef.failed.code), .failed⟩
      | some sysAddr => let block := (rest.getBlock (bytesAt os.fresh 0 wlen)).2.1
        let mem := store d.target.mem sysAddr (block.take (os.count nap sysAddr wlen))
        if os.succeeds nap sysAddr wlen = true then
          ⟨{ d with target := { d.target with mem } },
            (Target.startReply pktIn pktOut).addString Target.okReply, .none⟩
        else ⟨{ d with target := { d.target with mem } },
            (((Target.startReply pktIn pktOut).clear.addRawChar 0x45).addWord8
              Target.ErrDef.failed.code), .failed⟩ := by
  simp only [Debuggee.processPacket, if_pos writes.1, writeMemory_eq writes.2, Option.map_some,
    Option.some.injEq] at run
  rw [← run]
  cases accepted nap userAddr wlen with
  | none => rfl
  | some sysAddr =>
    simp only
    cases os.succeeds nap sysAddr wlen <;> rfl

/-- A store into a range whose front is the same already changes nothing. -/
theorem store_eq_self_iff_initial {mem : Nat → Char8} {addr len : Nat} {bytes : List Char8}
    (short : bytes.length ≤ len) : store mem addr bytes = mem ↔ bytes <+: bytesAt mem addr len := by
  rw [SandboxTEE.Lib.store_eq_self_iff]
  constructor
  · intro there
    have front := @SandboxTEE.Lib.bytesAt_prefix _ mem addr _ _ short
    rwa [there] at front
  · intro front
    have same := @SandboxTEE.Lib.bytesAt_prefix _ mem addr _ _ short
    exact (List.prefix_of_prefix_length_le front same (by simp)).eq_of_length (by simp) |>.symm

theorem memory_iff (writes : Writes pktIn userAddr wlen rest)
    (run : d.processPacket nap os pktIn pktOut = some done) :
    AllOrNothing nap d pktIn done ↔ MemoryProper nap os d pktIn := by
  have one : MemoryProper nap os d pktIn ↔
      match accepted nap userAddr wlen with
      | none => ¬Exact rest wlen
      | some sysAddr =>
        Exact rest wlen ∧ os.succeeds nap sysAddr wlen = true ∨
          ¬Exact rest wlen ∧ os.succeeds nap sysAddr wlen = false ∧
            (rest.getBlock (bytesAt os.fresh 0 wlen)).2.1.take (os.count nap sysAddr wlen) <+:
              bytesAt d.target.mem sysAddr wlen := by
    constructor
    · intro proper
      exact proper userAddr wlen rest writes
    · intro proper userAddr' wlen' rest' other
      have same := other.2.symm.trans writes.2
      simp only [Prod.mk.injEq, Option.some.injEq] at same
      obtain ⟨⟨rfl, rfl⟩, rfl⟩ := same
      exact proper
  rw [allOrNothing_of_writes writes, one, processPacket_writes writes run]
  cases taken : accepted nap userAddr wlen with
  | none =>
    -- an error, and nothing has changed
    constructor
    · rintro whole ⟨bytes, length, decodes⟩
      exact not_isError_of_isOk (whole.1 bytes length decodes).1 (isError_reply (by decide))
    · intro inexact
      exact ⟨fun bytes length decodes => absurd ⟨bytes, length, decodes⟩ inexact,
        fun _ => ⟨isError_reply (by decide), rfl, rfl⟩⟩
  | some sysAddr =>
    dsimp only
    cases succeeds : os.succeeds nap sysAddr wlen with
    | true =>
      simp only [if_true, and_true, Bool.true_eq_false, false_and, and_false, or_false]
      constructor
      · intro whole
        by_contra inexact
        exact not_isError_of_isOk isOk_reply (whole.2 inexact).1
      · intro exact_
        refine ⟨fun bytes length decodes => ⟨isOk_reply, ?_, rfl⟩, fun inexact => absurd exact_ inexact⟩
        -- all of the bytes are stored
        obtain ⟨code, short, got, stored, long⟩ := Os.succeeds_iff.mp succeeds
        have whole := decodes.block (bytesAt os.fresh 0 wlen) (by simp [length])
        obtain ⟨_, _, here⟩ := naClUserToSysAddrRange_some (accepted_some taken).1
        rw [whole, Os.count_of_stored (fun inside => (code inside).1) short stored,
          List.take_of_length_le (by omega), here]
    | false =>
      simp only [Bool.false_eq_true, if_false, and_false, false_or, true_and]
      have short : ((rest.getBlock (bytesAt os.fresh 0 wlen)).2.1.take
          (os.count nap sysAddr wlen)).length ≤ wlen := by
        simp [length_getBlock]
      have there := @store_eq_self_iff_initial d.target.mem sysAddr _ _ short
      constructor
      · intro whole
        have inexact : ¬Exact rest wlen := by
          rintro ⟨bytes, length, decodes⟩
          exact not_isError_of_isOk (whole.1 bytes length decodes).1 (isError_reply (by decide))
        exact ⟨inexact, there.mp (congrArg Target.mem (whole.2 inexact).2.1)⟩
      · rintro ⟨inexact, same⟩
        refine ⟨fun bytes length decodes => absurd ⟨bytes, length, decodes⟩ inexact,
          fun _ => ⟨isError_reply (by decide), ?_, rfl⟩⟩
        simp only [there.mpr same]

/-! ## `G` -/

theorem store_copied (src context : Context) (addr len p : Nat) :
    store context addr (bytesAt src addr len) p =
      if addr ≤ p ∧ p < addr + len then src p else context p := by
  split
  · next inside =>
    rw [SandboxTEE.Lib.store_of_inside inside.1 (by simpa using inside.2)]
    have cell := @SandboxTEE.Lib.getElem?_bytesAt _ src addr len (p - addr)
    rw [if_pos (by omega), List.getElem?_eq_getElem (by simp; omega), Option.some.injEq] at cell
    rw [cell, Nat.add_sub_cancel' inside.1]
  · next outside =>
    apply SandboxTEE.Lib.store_of_outside
    simp only [SandboxTEE.Lib.length_bytesAt]
    omega

/-- A byte comes from the debugger if it belongs to a part that is copied. -/
theorem copyRegisters_apply (src context : Context) (regs : List RegDef) (p : Nat) :
    (∃ reg ∈ regs, reg.offset ≤ p ∧ p < reg.offset + reg.copied) ∧
        copyRegisters src context regs p = src p ∨
      (∀ reg ∈ regs, ¬(reg.offset ≤ p ∧ p < reg.offset + reg.copied)) ∧
        copyRegisters src context regs p = context p := by
  induction regs generalizing context with
  | nil => exact .inr ⟨by simp, rfl⟩
  | cons reg regs ih =>
    have step : copyRegisters src context (reg :: regs) =
        copyRegisters src (store context reg.offset (bytesAt src reg.offset reg.copied)) regs := rfl
    rw [step]
    cases ih (store context reg.offset (bytesAt src reg.offset reg.copied)) with
    | inl later =>
      obtain ⟨⟨reg', member, inside⟩, copied⟩ := later
      exact .inl ⟨⟨reg', List.mem_cons_of_mem _ member, inside⟩, copied⟩
    | inr first =>
      rw [first.2, store_copied]
      by_cases inside : reg.offset ≤ p ∧ p < reg.offset + reg.copied
      · rw [if_pos inside]
        exact .inl ⟨⟨reg, List.mem_cons_self, inside⟩, rfl⟩
      · rw [if_neg inside]
        exact .inr ⟨List.forall_mem_cons.mpr ⟨inside, first.1⟩, rfl⟩

theorem copyRegisters_eq_iff (src context : Context) :
    bytesAt (copyRegisters src context regDefs) 0 getContextSize = bytesAt src 0 getContextSize ↔
      SameElsewhere src context := by
  rw [SandboxTEE.Lib.bytesAt_eq_iff]
  simp only [Nat.zero_add]
  constructor
  · intro same p inside elsewhere
    cases copyRegisters_apply src context regDefs p with
    | inl copied =>
      obtain ⟨reg, member, here⟩ := copied.1
      exact absurd here (elsewhere reg member)
    | inr kept => exact kept.2.symm.trans (same p inside)
  · intro same p inside
    cases copyRegisters_apply src context regDefs p with
    | inl copied => exact copied.2
    | inr kept => exact kept.2.trans (same p inside kept.1)

theorem Decodes.loaded {bytes : List Char8} (decodes : Decodes rest bytes)
    (length : bytes.length = getContextSize) :
    bytesAt (d.loaded rest) 0 getContextSize = bytes := by
  rw [Debuggee.loaded, decodes.block _ (by simp [length]), ← length]
  exact SandboxTEE.Lib.bytesAt_store

theorem allOrNothing_of_sets (sets : Sets pktIn rest) : AllOrNothing nap d pktIn done ↔
      (∀ bytes : List Char8, bytes.length = getContextSize → Decodes rest bytes →
        IsOk done.pktOut ∧ SetTo bytes d done.debuggee) ∧
      (¬Exact rest getContextSize → IsError done.pktOut ∧ d.Unchanged done.debuggee) := by
  have noMemory (userAddr wlen : Nat) (rest' : Packet) : ¬Writes pktIn userAddr wlen rest' := by
    intro writes
    exact absurd (writes.1.symm.trans sets.1) (by decide)
  constructor
  · intro whole
    refine ⟨fun bytes => whole.registers rest bytes sets, fun inexact => ?_⟩
    apply whole.nothing
    · intro userAddr wlen rest' writes
      exact absurd writes (noMemory userAddr wlen rest')
    · intro rest' other
      rwa [← other.2, sets.2]
  · intro whole
    refine ⟨fun userAddr wlen rest' bytes writes => absurd writes (noMemory userAddr wlen rest'),
      ?_, ?_⟩
    · intro rest' bytes other
      rw [← other.2, sets.2]
      exact whole.1 bytes
    · intro _ inexact
      exact whole.2 (inexact rest sets)

theorem processPacket_sets (sets : Sets pktIn rest)
    (run : d.processPacket nap os pktIn pktOut = some done) :
    done = match d.getRegThread with
      | none => ⟨d, (((Target.startReply pktIn pktOut).clear.addRawChar 0x45).addWord8
          Target.ErrDef.badArgs.code), .badArgs⟩
      | some (id, context) =>
        if d.takes nap os (d.loaded rest) context = true then
          ⟨{ d with
              ctx := d.loaded rest
              threads := updateAt (fun _ => some (copyRegisters (d.loaded rest) context regDefs)) id
                d.threads },
            (Target.startReply pktIn pktOut).addString Target.okReply, .none⟩
        else ⟨{ d with ctx := d.loaded rest },
            (((Target.startReply pktIn pktOut).clear.addRawChar 0x45).addWord8
              Target.ErrDef.failed.code), .failed⟩ := by
  have other : (pktIn.getRawChar Ch.nul).ch ≠ 0x4d := by
    rw [sets.1]
    decide
  simp only [Debuggee.processPacket, if_neg other, if_pos sets.1, sets.2, Option.map_some,
    Option.some.injEq, Debuggee.writeRegisters] at run
  rw [← run]
  cases thread : d.getRegThread with
  | none => rfl
  | some found =>
    obtain ⟨id, context⟩ := found
    have loaded : store d.ctx 0 (rest.getBlock (bytesAt d.ctx 0 getContextSize)).2.1 =
      d.loaded rest := rfl
    dsimp only
    rw [loaded, Debuggee.takes, setRegisters]
    -- none of these has to be evaluated
    generalize d.loaded rest = ctx
    generalize leValue (bytesAt ctx progCtrOffset 8) % 2 ^ 32 = newPc
    generalize copyRegisters ctx context regDefs = registers
    generalize regDefs.all (·.valid ctx context) = valid
    cases d.target.isOnValidInstBoundary nap os newPc with
    | false => rfl
    | true =>
      cases valid with
      | false => rfl
      | true => rfl

theorem find_of_getRegThread {id : Nat} {context : Context}
    (thread : d.getRegThread = some (id, context)) : find id d.threads = some context := by
  rw [Debuggee.getRegThread] at thread
  split at thread
  · cases threads : d.threads with
    | nil =>
      rw [threads] at thread
      cases thread
    | cons first others =>
      rw [threads, List.head?_cons, Option.some.injEq] at thread
      rw [thread, SandboxTEE.Lib.find_cons, if_pos rfl]
  · obtain ⟨found, mem, same⟩ := Option.map_eq_some_iff.mp thread
    cases same
    exact mem

theorem registers_iff (sets : Sets pktIn rest)
    (run : d.processPacket nap os pktIn pktOut = some done) :
    AllOrNothing nap d pktIn done ↔ RegistersProper nap os d pktIn := by
  have one : RegistersProper nap os d pktIn ↔
      match d.getRegThread with
      | none => ¬Exact rest getContextSize
      | some (_, context) =>
        Exact rest getContextSize ∧ d.takes nap os (d.loaded rest) context = true ∧
            SameElsewhere (d.loaded rest) context ∨
          ¬Exact rest getContextSize ∧ d.takes nap os (d.loaded rest) context = false := by
    constructor
    · intro proper
      exact proper rest sets
    · intro proper rest' other
      rwa [← other.2, sets.2]
  rw [allOrNothing_of_sets sets, one, processPacket_sets sets run]
  cases thread : d.getRegThread with
  | none =>
    constructor
    · rintro whole ⟨bytes, length, decodes⟩
      exact not_isError_of_isOk (whole.1 bytes length decodes).1 (isError_reply (by decide))
    · intro inexact
      exact ⟨fun bytes length decodes => absurd ⟨bytes, length, decodes⟩ inexact,
        fun _ => ⟨isError_reply (by decide), rfl, rfl⟩⟩
  | some found =>
    obtain ⟨id, context⟩ := found
    dsimp only
    cases takes : d.takes nap os (d.loaded rest) context with
    | false =>
      simp only [Bool.false_eq_true, if_false, false_and, and_false, false_or, and_true]
      constructor
      · rintro whole ⟨bytes, length, decodes⟩
        exact not_isError_of_isOk (whole.1 bytes length decodes).1 (isError_reply (by decide))
      · intro inexact
        exact ⟨fun bytes length decodes => absurd ⟨bytes, length, decodes⟩ inexact,
          fun _ => ⟨isError_reply (by decide), rfl, rfl⟩⟩
    | true =>
      simp only [if_true, true_and, Bool.true_eq_false, and_false, or_false]
      constructor
      · intro whole
        have exact_ : Exact rest getContextSize := by
          by_contra inexact
          exact not_isError_of_isOk isOk_reply (whole.2 inexact).1
        obtain ⟨bytes, length, decodes⟩ := exact_
        obtain ⟨_, _, id', context', context'', same, threads, registers⟩ :=
          whole.1 bytes length decodes
        rw [thread] at same
        cases same
        -- both are what the thread has in the new list
        have occurs : (find id d.threads).isSome := by rw [find_of_getRegThread thread]; rfl
        have found := SandboxTEE.Lib.find_updateAt_some context'' occurs
        rw [← threads, SandboxTEE.Lib.find_updateAt_some _ occurs, Option.some.injEq] at found
        refine ⟨⟨bytes, length, decodes⟩, (copyRegisters_eq_iff _ _).mp ?_⟩
        rw [found, registers, decodes.loaded length]
      · rintro ⟨exact_, elsewhere⟩
        refine ⟨fun bytes length decodes => ⟨isOk_reply, rfl, id, context, _, thread, rfl, ?_⟩,
          fun inexact => absurd exact_ inexact⟩
        rw [(copyRegisters_eq_iff _ _).mpr elsewhere, decodes.loaded length]

/-! ## All or nothing -/

theorem processPacket_allOrNothing_iff (run : d.processPacket nap os pktIn pktOut = some done) :
    AllOrNothing nap d pktIn done ↔
      MemoryProper nap os d pktIn ∧ RegistersProper nap os d pktIn := by
  by_cases write : (pktIn.getRawChar Ch.nul).ch = 0x4d
  · have registers : RegistersProper nap os d pktIn := by
      intro rest sets
      exact absurd (write.symm.trans sets.1) (by decide)
    cases range : Target.readRange (pktIn.getRawChar Ch.nul).packet with
    | mk declared rest =>
      cases declared with
      | some declared =>
        rw [memory_iff ⟨write, range⟩ run]
        exact ⟨fun memory => ⟨memory, registers⟩, fun both => both.1⟩
      | none =>
        -- no range is read, so the packet is not one of those that write
        have unread (userAddr wlen : Nat) (rest' : Packet) :
            ¬Writes pktIn userAddr wlen rest' := by
          intro writes
          cases range.symm.trans writes.2
        have noRegisters (rest' : Packet) : ¬Sets pktIn rest' := by
          intro sets
          exact absurd (write.symm.trans sets.1) (by decide)
        simp only [Debuggee.processPacket, if_pos write, Target.writeMemory, range,
          Option.map_some, Option.some.injEq] at run
        rw [← run]
        constructor
        · intro _
          exact ⟨fun userAddr wlen rest' writes => absurd writes (unread userAddr wlen rest'),
            registers⟩
        · intro _
          refine ⟨fun userAddr wlen rest' bytes writes => absurd writes (unread _ _ _),
            fun rest' bytes sets => absurd sets (noRegisters rest'), fun _ _ => ?_⟩
          exact ⟨isError_reply (by decide : Target.ErrDef.badFormat ≠ .none), rfl, rfl⟩
  · have memory : MemoryProper nap os d pktIn := by
      intro userAddr wlen rest writes
      exact absurd writes.1 write
    by_cases set : (pktIn.getRawChar Ch.nul).ch = 0x47
    · rw [registers_iff ⟨set, rfl⟩ run]
      exact ⟨fun registers => ⟨memory, registers⟩, fun both => both.2⟩
    · rw [Debuggee.processPacket] at run
      simp only [if_neg write, if_neg set] at run
      cases run

/-- A debuggee without threads. -/
def nopDebuggee : Debuggee := ⟨Target.plain nops, fun _ => 0, [], 0⟩

/-- `M20000,1:ff` -/
def writeOne : Packet := ⟨-1, [0x4d, 0x32, 0x30, 0x30, 0x30, 0x30, 0x2c, 0x31, 0x3a, 0x66, 0x66], 0⟩

/-- `M20000,2:ff` -/
def writeTwo : Packet := ⟨-1, [0x4d, 0x32, 0x30, 0x30, 0x30, 0x30, 0x2c, 0x32, 0x3a, 0x66, 0x66], 0⟩

theorem writes_writeOne : Writes writeOne 0x20000 1 ⟨-1, writeOne.data, 9⟩ :=
  ⟨by decide, by decide⟩

theorem writes_writeTwo : Writes writeTwo 0x20000 2 ⟨-1, writeTwo.data, 9⟩ :=
  ⟨by decide, by decide⟩

theorem accepted_one : accepted nopSandbox 0x20000 1 = some (0x20000 + 2 ^ 32) := by
  decide

theorem processPacket_allOrNothing_iff_writeOne :
    ∃ done, nopDebuggee.processPacket nopSandbox calmOs writeOne Packet.new = some done ∧
      AllOrNothing nopSandbox nopDebuggee writeOne done := by
  refine ⟨_, rfl, (processPacket_allOrNothing_iff rfl).mpr ⟨?_, ?_⟩⟩
  · intro userAddr wlen rest writes
    cases writes_writeOne.2.symm.trans writes.2
    rw [accepted_one]
    exact .inl ⟨⟨[0xff], rfl, by decide, by decide, by decide⟩, by decide⟩
  · intro rest sets
    exact absurd sets.1 (by decide)

theorem accepted_two : accepted nopSandbox 0x20000 2 = some (0x20000 + 2 ^ 32) := by
  decide

/-- There are two digits for two bytes, and the second byte is written as well. -/
theorem processPacket_not_allOrNothing :
    ¬∀ (nap : Nap) (os : Os) (d : Debuggee) (pktIn pktOut : Packet) (done : Debuggee.Processed),
      d.processPacket nap os pktIn pktOut = some done → AllOrNothing nap d pktIn done := by
  intro all
  have whole := all nopSandbox calmOs nopDebuggee writeTwo Packet.new _ rfl
  have proper := (memory_iff writes_writeTwo rfl).mp whole 0x20000 2 _ writes_writeTwo
  rw [accepted_two] at proper
  cases proper with
  | inl whole =>
    have read := (exact_iff [0, 0]).mp whole.1
    exact absurd read.1 (by decide)
  | inr failed => exact absurd failed.2.1 (by decide)

end SandboxTEE.DebugStub
