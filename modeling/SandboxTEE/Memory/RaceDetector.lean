import SandboxTEE.IntervalMultiset.Overlaps
import SandboxTEE.Memory.Arguments
import SandboxTEE.Memory.RaceCheck

/-! # The memory-race detector

The tree of pending I/O ranges stands for the ranges that the threads hold, in every
state that any interleaving reaches.  A closed interval cannot say "no byte", so the
detector does what it is for only as long as no empty range is locked or asked about;
under that condition a memory call aborts exactly when it changes memory in use.
-/

namespace SandboxTEE.Memory

open SandboxTEE.Lib SandboxTEE.Runtime SandboxTEE.Vmmap
open SandboxTEE.IntervalMultiset

/-! ## Ranges of bytes -/

def Buffer.Has (b : Buffer) (byte : Nat) : Prop := b.addr ≤ byte ∧ byte < b.addr + b.length

instance (b : Buffer) (byte : Nat) : Decidable (b.Has byte) :=
  inferInstanceAs (Decidable (_ ∧ _))

/-- The range has a byte, and ends where 32-bit addresses end. -/
structure Buffer.Fits (b : Buffer) : Prop where
  nonempty : 0 < b.length
  below : b.addr + b.length ≤ 2 ^ 32

variable {b : Buffer}

theorem Buffer.Fits.interval_eq (fits : b.Fits) : b.interval = ⟨b.addr, b.addr + b.length - 1⟩ := by
  have := fits.nonempty
  have := fits.below
  simp only [Buffer.interval, lastByte, Interval.mk.injEq, true_and]
  omega

theorem Buffer.Fits.proper (fits : b.Fits) : b.interval.Proper := by
  have := fits.nonempty
  have := fits.below
  rw [fits.interval_eq]
  exact ⟨by simp only; omega, by simp only; omega⟩

/-- The intervals of two ranges meet when the ranges have a byte in common. -/
theorem Buffer.Fits.meet_iff {range : Buffer} (fits : b.Fits) (rangeFits : range.Fits) :
    (b.interval.left ≤ range.interval.right ∧ range.interval.left ≤ b.interval.right) ↔
      ∃ byte, range.Has byte ∧ b.Has byte := by
  have := fits.nonempty
  have := rangeFits.nonempty
  rw [fits.interval_eq, rangeFits.interval_eq]
  simp only [Buffer.Has]
  constructor
  · intro ⟨left, right⟩
    exact ⟨max b.addr range.addr, by omega, by omega⟩
  · intro ⟨byte, inRange, inBuffer⟩
    omega

variable {nap : NaClApp}

/-! ## What an I/O call locks -/

theorem sequentialIo_fits {ndp : Bool} {buf count : BitVec 32} {buffers : List Buffer}
    (accepted : sequentialIo nap ndp buf count = .ok buffers) :
    buffers.length ≤ naClAbiImcIovecMax ∧
      ∀ b ∈ buffers, b.addr + b.length ≤ 2 ^ nap.space.addrBits := by
  rw [sequentialIo] at accepted
  split at accepted
  · cases accepted
  · split at accepted
    · cases accepted
    · rename_i translates
      have below := (naClUserToSysAddrRange_below translates).2
      cases accepted
      refine ⟨by simp [naClAbiImcIovecMax], fun b member => ?_⟩
      cases List.mem_singleton.mp member
      simp only
      omega

theorem positionalIo_fits {ndp : Bool} {usrAddr bufferBytes offsetAddr : BitVec 32}
    {buffers : List Buffer}
    (accepted : positionalIo nap ndp usrAddr bufferBytes offsetAddr = .ok buffers) :
    buffers.length ≤ naClAbiImcIovecMax ∧
      ∀ b ∈ buffers, b.addr + b.length ≤ 2 ^ nap.space.addrBits := by
  rw [positionalIo] at accepted
  split at accepted
  · cases accepted
  · split at accepted
    · cases accepted
    · split at accepted
      · cases accepted
      · rename_i translates
        cases accepted
        refine ⟨by simp [naClAbiImcIovecMax], fun b member => ?_⟩
        cases List.mem_singleton.mp member
        exact (naClUserToSysAddrRange_below translates).2

theorem messageIov_fits {nanimhp : BitVec 32} {hdr : MsgHdr}
    {naiov : Nat → BitVec 32 × BitVec 32} {buffers : List Buffer}
    (accepted : messageIov nap nanimhp hdr naiov = .ok buffers) :
    buffers.length ≤ naClAbiImcIovecMax ∧
      ∀ b ∈ buffers, b.addr + b.length ≤ 2 ^ nap.space.addrBits := by
  rw [messageIov] at accepted
  split at accepted
  · cases accepted
  · split at accepted
    · cases accepted
    · rename_i few
      split at accepted
      · cases accepted
      · split at accepted
        · cases accepted
        · simp only at accepted
          split at accepted
          · cases accepted
          · rename_i translate
            cases accepted
            refine ⟨by simpa using few, fun b member => (naClUserToSysAddrRange_below ?_).2⟩
            intro none
            exact translate (List.any_eq_true.mpr ⟨b, member, by rw [none]; rfl⟩)

/-- Every accepted I/O call locks at most 256 ranges, all of them in the address space. -/
theorem IoCall.buffers_fit {call : IoCall} {buffers : List Buffer}
    (accepted : call.buffers nap = .ok buffers) : buffers.length ≤ naClAbiImcIovecMax ∧
      ∀ b ∈ buffers, b.addr + b.length ≤ 2 ^ nap.space.addrBits := by
  cases call with
  | read ndp buf count => exact sequentialIo_fits accepted
  | write ndp buf count => exact sequentialIo_fits accepted
  | pread ndp usrAddr bufferBytes offsetAddr => exact positionalIo_fits accepted
  | pwrite ndp usrAddr bufferBytes offsetAddr => exact positionalIo_fits accepted
  | sendmsg ndp nanimhp hdr naiov descs =>
    simp only [IoCall.buffers, naClSysImcSendmsg] at accepted
    cases vector : messageIov nap nanimhp hdr naiov with
    | error errno =>
      rw [vector] at accepted
      cases accepted
    | ok checked =>
      simp only [vector, bind, Except.bind] at accepted
      have same : checked = buffers := by
        split at accepted
        · cases accepted
        · split at accepted
          · cases accepted
            rfl
          · split at accepted
            · cases accepted
            · cases descs with
              | error errno => cases accepted
              | ok _ =>
                cases accepted
                rfl
      exact same ▸ messageIov_fits vector
  | recvmsg ndp nanimhp hdr naiov =>
    simp only [IoCall.buffers, naClSysImcRecvmsg] at accepted
    cases vector : messageIov nap nanimhp hdr naiov with
    | error errno =>
      rw [vector] at accepted
      cases accepted
    | ok checked =>
      simp only [vector, bind, Except.bind] at accepted
      have same : checked = buffers := by
        split at accepted
        · cases accepted
        · split at accepted
          · cases accepted
          · cases accepted
            rfl
      exact same ▸ messageIov_fits vector

/-! ## What a memory call changes -/

/-- The bytes that the call remaps or re-protects, once its arguments are accepted. -/
def MemCall.range (nap : NaClApp) : MemCall → Option Buffer
  | .brk _ => none
  | .mmap call =>
    match mmapTarget nap call with
    | .ok (.ok target, _) =>
      if call.oneSharing then some ⟨target.usraddr, target.allocRoundedLength⟩ else none
    | _ => none
  | .munmap start length =>
    match munmapArguments nap start length with
    | .ok length => some ⟨start.toNat, length⟩
    | .error _ => none
  | .mprotect getFlags start length prot =>
    match mprotectArguments getFlags nap start length.toNat prot with
    | .ok (.ok length, _) => some ⟨start.toNat, length⟩
    | _ => none

/-- What the detector relies on.  A mapping has exactly one kind of sharing, maps some
    byte of its file, and no byte behind the end of the file is in use; `mprotect` changes
    some byte. -/
def MemCall.Checkable (nap : NaClApp) (pending : Multiset Buffer) : MemCall → Prop
  | .mmap call =>
    ∀ target memMap, mmapTarget nap call = .ok (.ok target, memMap) →
      call.oneSharing ∧ 0 < target.length ∧
      ∀ byte, target.usraddr + target.length ≤ byte →
        byte < target.usraddr + target.allocRoundedLength → ∀ b ∈ pending, ¬b.Has byte
  | .mprotect _ _ length _ => length ≠ 0
  | _ => True

theorem munmapArguments_fits {start length : BitVec 32} {rounded : Nat}
    (narrow : nap.space.addrBits ≤ 32) (accepted : munmapArguments nap start length = .ok rounded) :
    Buffer.Fits ⟨start.toNat, rounded⟩ where
  nonempty := Nat.pos_of_ne_zero (munmapArguments_ok accepted).nonzero
  below := (munmapArguments_ok accepted).within.trans (Nat.pow_le_pow_right (by decide) narrow)

theorem mprotectArguments_fits {getFlags : DescId → BitVec 32} {start prot : BitVec 32}
    {length rounded : Nat} {memMap : Map} (narrow : nap.space.addrBits ≤ 32) (positive : 0 < length)
    (accepted : mprotectArguments getFlags nap start length prot = .ok (.ok rounded, memMap)) :
    Buffer.Fits ⟨start.toNat, rounded⟩ where
  nonempty := by
    rw [(mprotectArguments_ok accepted).rounded_eq]
    exact naClRoundAllocPage_pos positive
  below := (mprotectArguments_ok accepted).within.trans (Nat.pow_le_pow_right (by decide) narrow)

/-! ## One memory call -/

/-- A pending range has a byte of the given one. -/
def InUse (pending : Multiset Buffer) (range : Buffer) : Prop :=
  ∃ byte, range.Has byte ∧ ∃ b ∈ pending, b.Has byte

section

variable {pending : Multiset Buffer}

theorem meets_iff_inUse (fits : ∀ b ∈ pending, b.Fits) {range : Buffer} (rangeFits : range.Fits) :
    Meets (pending.map Buffer.interval) range.interval ↔ InUse pending range := by
  constructor
  · intro ⟨x, member, meet⟩
    obtain ⟨b, held, rfl⟩ := Multiset.mem_map.mp member
    obtain ⟨byte, inRange, inBuffer⟩ := ((fits b held).meet_iff rangeFits).mp meet
    exact ⟨byte, inRange, b, held, inBuffer⟩
  · intro ⟨byte, inRange, b, held, inBuffer⟩
    exact ⟨b.interval, Multiset.mem_map_of_mem _ held,
      ((fits b held).meet_iff rangeFits).mpr ⟨byte, inRange, inBuffer⟩⟩

/-- The tree of the application holds the pending ranges, which are few and proper. -/
structure Tracks (nap : NaClApp) (pending : Multiset Buffer) : Prop where
  holds : Holds nap.memIoRegions (pending.map Buffer.interval)
  few : pending.card < 2 ^ 31
  fits : ∀ b ∈ pending, b.Fits
  narrow : nap.space.addrBits ≤ 32

theorem Tracks.overlapsWith_iff (tracks : Tracks nap pending) {range : Buffer}
    (rangeFits : range.Fits) : naClIntervalRangeTreeOverlapsWith nap.memIoRegions range.addr
      (lastByte range.addr range.length) = true ↔ InUse pending range := by
  have ordered : ∀ x ∈ pending.map Buffer.interval, x.left ≤ x.right := by
    intro x member
    obtain ⟨b, held, rfl⟩ := Multiset.mem_map.mp member
    exact (tracks.fits b held).proper.ordered
  have few : (pending.map Buffer.interval).card < 2 ^ 31 := by
    rw [Multiset.card_map]
    exact tracks.few
  change naClIntervalRangeTreeOverlapsWith _ range.interval.left range.interval.right = true ↔ _
  rw [naClIntervalRangeTreeOverlapsWith_eq tracks.holds few ordered rangeFits.proper,
    decide_eq_true_eq, meets_iff_inUse tracks.fits rangeFits]

/-- What the detector is asked is whether the bytes of the call are in use. -/
theorem checked_iff_inUse (tracks : Tracks nap pending) {call : MemCall}
    (checkable : call.Checkable nap pending) :
    (∃ first last, call.checked nap = some (first, last) ∧
      naClIntervalRangeTreeOverlapsWith nap.memIoRegions first last = true) ↔
    ∃ range, call.range nap = some range ∧ InUse pending range := by
  cases call with
  | brk newBreak => simp [MemCall.checked, MemCall.range]
  | munmap start length =>
    simp only [MemCall.checked, MemCall.range]
    cases accepted : munmapArguments nap start length with
    | error errno => simp
    | ok rounded =>
      simp only [Option.some.injEq, Prod.mk.injEq]
      have fits := munmapArguments_fits tracks.narrow accepted
      constructor
      · rintro ⟨first, last, ⟨rfl, rfl⟩, overlaps⟩
        exact ⟨_, rfl, (tracks.overlapsWith_iff fits).mp overlaps⟩
      · rintro ⟨range, rfl, inUse⟩
        exact ⟨_, _, ⟨rfl, rfl⟩, (tracks.overlapsWith_iff fits).mpr inUse⟩
  | mprotect getFlags start length prot =>
    simp only [MemCall.checked, MemCall.range]
    have positive : 0 < length.toNat := by
      refine Nat.pos_of_ne_zero fun zero => checkable ?_
      exact BitVec.toNat_inj.mp zero
    cases accepted : mprotectArguments getFlags nap start length.toNat prot with
    | error failure => simp
    | ok found =>
      obtain ⟨outcome, memMap⟩ := found
      cases outcome with
      | error errno => simp
      | ok rounded =>
        simp only [Option.some.injEq, Prod.mk.injEq]
        have fits := mprotectArguments_fits tracks.narrow positive accepted
        constructor
        · rintro ⟨first, last, ⟨rfl, rfl⟩, overlaps⟩
          exact ⟨_, rfl, (tracks.overlapsWith_iff fits).mp overlaps⟩
        · rintro ⟨range, rfl, inUse⟩
          exact ⟨_, _, ⟨rfl, rfl⟩, (tracks.overlapsWith_iff fits).mpr inUse⟩
  | mmap call =>
    simp only [MemCall.checked, MemCall.range]
    cases accepted : mmapTarget nap call with
    | error failure => simp
    | ok found =>
      obtain ⟨outcome, memMap⟩ := found
      cases outcome with
      | error e => simp
      | ok target =>
        obtain ⟨oneSharing, positive, tailFree⟩ := checkable target memMap accepted
        have accepts := mmapTarget_ok accepted
        have width : 2 ^ nap.space.addrBits ≤ 2 ^ 32 :=
          Nat.pow_le_pow_right (by decide) tracks.narrow
        have within := accepts.within
        have length_le := accepts.length_le
        have fits : Buffer.Fits ⟨target.usraddr, target.length⟩ :=
          ⟨positive, (Nat.add_le_add_left length_le _).trans (within.trans width)⟩
        have low : target.usraddr % 2 ^ 32 = target.usraddr :=
          Nat.mod_eq_of_lt (accepts.usraddr_lt.trans_le width)
        -- the bytes behind the end of the file are not asked about, and not in use
        have same : InUse pending ⟨target.usraddr, target.length⟩ ↔
            InUse pending ⟨target.usraddr, target.allocRoundedLength⟩ := by
          constructor
          · rintro ⟨byte, ⟨left, right⟩, used⟩
            refine ⟨byte, ⟨left, right.trans_le (Nat.add_le_add_left length_le _)⟩, used⟩
          · rintro ⟨byte, ⟨left, right⟩, b, held, used⟩
            refine ⟨byte, ⟨left, ?_⟩, b, held, used⟩
            by_contra behind
            exact tailFree byte (Nat.le_of_not_lt behind) right b held used
        simp only [Option.some.injEq, Prod.mk.injEq, low, if_pos oneSharing]
        constructor
        · rintro ⟨first, last, ⟨rfl, rfl⟩, overlaps⟩
          exact ⟨_, rfl, same.mp ((tracks.overlapsWith_iff fits).mp overlaps)⟩
        · rintro ⟨range, rfl, inUse⟩
          exact ⟨_, _, ⟨rfl, rfl⟩, (tracks.overlapsWith_iff fits).mpr (same.mpr inUse)⟩

end

/-! ## The pending ranges of the threads -/

def pendingOf (threads : List Phase) : Multiset Buffer :=
  (threads.map fun phase => (phase.held : Multiset Buffer)).sum

/-- The ranges that all threads hold. -/
def State.pending (s : State) : Multiset Buffer := pendingOf s.threads

theorem pendingOf_cons (phase : Phase) (threads : List Phase) :
    pendingOf (phase :: threads) = phase.held + pendingOf threads := by
  rw [pendingOf, List.map_cons, List.sum_cons, pendingOf]

theorem swap_front (a b c : Multiset Buffer) : a + (b + c) = b + (a + c) := by
  rw [← Multiset.add_assoc, Multiset.add_comm a, Multiset.add_assoc]

variable {thread : Nat} {threads : List Phase} {phase : Phase}

/-- What the other threads hold stays when one changes its phase. -/
theorem pendingOf_set (at_thread : threads[thread]? = some phase) :
    ∃ others, pendingOf threads = phase.held + others ∧
      ∀ next : Phase, pendingOf (threads.set thread next) = next.held + others := by
  induction threads generalizing thread with
  | nil => simp at at_thread
  | cons first threads ih =>
    cases thread with
    | zero =>
      simp only [List.getElem?_cons_zero, Option.some.injEq] at at_thread
      subst at_thread
      exact ⟨pendingOf threads, pendingOf_cons _ _, fun next => pendingOf_cons next threads⟩
    | succ thread =>
      rw [List.getElem?_cons_succ] at at_thread
      obtain ⟨others, now, after⟩ := ih at_thread
      refine ⟨first.held + others, ?_, fun next => ?_⟩
      · rw [pendingOf_cons, now, swap_front]
      · rw [List.set_cons_succ, pendingOf_cons, after, swap_front]

/-- The ranges of the call a thread is in, held now or later. -/
def Phase.buffers : Phase → List Buffer
  | .idle => []
  | .starting todo locked => locked ++ todo
  | .ending todo => todo

structure Phase.Fits (phase : Phase) : Prop where
  few : phase.buffers.length ≤ naClAbiImcIovecMax
  fits : ∀ b ∈ phase.buffers, b.Fits

theorem Phase.held_sublist (phase : Phase) : phase.held.Sublist phase.buffers := by
  cases phase with
  | idle => exact List.Sublist.refl _
  | starting todo locked => exact List.sublist_append_left locked todo
  | ending todo => exact List.Sublist.refl _

theorem pendingOf_card_le (fits : ∀ phase ∈ threads, phase.Fits) :
    (pendingOf threads).card ≤ threads.length * naClAbiImcIovecMax := by
  induction threads with
  | nil => simp [pendingOf]
  | cons phase threads ih =>
    have first := (phase.held_sublist.length_le).trans (fits phase (by simp)).few
    have rest := ih fun other member => fits other (by simp [member])
    rw [pendingOf_cons, Multiset.card_add, Multiset.coe_card, List.length_cons, Nat.succ_mul]
    omega

theorem mem_pendingOf (held : b ∈ pendingOf threads) : ∃ phase ∈ threads, b ∈ phase.held := by
  induction threads with
  | nil => simp [pendingOf] at held
  | cons phase threads ih =>
    rw [pendingOf_cons, Multiset.mem_add] at held
    cases held with
    | inl here => exact ⟨phase, by simp, here⟩
    | inr rest =>
      obtain ⟨other, member, heldThere⟩ := ih rest
      exact ⟨other, by simp [member], heldThere⟩

/-- What every reached state keeps. -/
structure Sound (s : State) : Prop where
  holds : Holds s.nap.memIoRegions (s.pending.map Buffer.interval)
  narrow : s.nap.space.addrBits ≤ 32
  threadMax : s.threads.length < naClThreadMax
  phases : ∀ phase ∈ s.threads, phase.Fits

variable {s s' : State}

theorem Sound.card_lt (sound : Sound s) : s.pending.card + 1 < 2 ^ 31 := by
  have bound := pendingOf_card_le sound.phases
  have threadMax := sound.threadMax
  simp only [naClThreadMax, naClAbiImcIovecMax, State.pending] at *
  omega

theorem Sound.tracks (sound : Sound s) : Tracks s.nap s.pending where
  holds := sound.holds
  few := Nat.lt_of_succ_lt sound.card_lt
  fits := by
    intro b held
    obtain ⟨phase, member, heldThere⟩ := mem_pendingOf held
    exact (sound.phases phase member).fits b (phase.held_sublist.subset heldThere)
  narrow := sound.narrow

/-- A thread goes on to its next phase, with a tree that holds the ranges it then has. -/
theorem Sound.setPhase (sound : Sound s) {next : Phase} {regions : Tree} (fits : next.Fits)
    (holds : Holds regions ((pendingOf (s.threads.set thread next)).map Buffer.interval)) :
    Sound ({ s with nap := { s.nap with memIoRegions := regions } }.setPhase thread next) where
  holds := holds
  narrow := sound.narrow
  threadMax := by
    rw [State.setPhase, List.length_set]
    exact sound.threadMax
  phases := by
    intro phase member
    cases List.mem_or_eq_of_mem_set member with
    | inl old => exact sound.phases phase old
    | inr new => exact new ▸ fits

/-! ## One action -/

/-- No I/O call locks an empty range, and memory calls are as the detector needs them. -/
def Action.Checkable (s : State) : Action → Prop
  | .ioCall _ call => ∀ buffers, call.buffers s.nap = .ok buffers → ∀ b ∈ buffers, 0 < b.length
  | .advance _ => True
  | .memCall call => call.Checkable s.nap s.pending

/-- The action does what the detector is for: a lock adds its range and an unlock removes
    it, and neither fails; a memory call aborts exactly when it changes memory in use. -/
def Detects (s : State) : Action → Prop
  | .ioCall thread call => ∃ s', step s (.ioCall thread call) = .ok s' ∧ s'.pending = s.pending
  | .advance thread => ∃ s', step s (.advance thread) = .ok s' ∧
      match s.threads[thread]? with
      | some (.starting (b :: _) _) => s'.pending = b ::ₘ s.pending
      | some (.ending (b :: _)) => s.pending = b ::ₘ s'.pending
      | _ => s'.pending = s.pending
  | .memCall call => step s (.memCall call) = .error .memWriteRace ↔
      ∃ range, call.range s.nap = some range ∧ InUse s.pending range

theorem ioCall_sound (sound : Sound s) {call : IoCall}
    (checkable : (Action.ioCall thread call).Checkable s) :
    ∃ s', step s (.ioCall thread call) = .ok s' ∧ s'.pending = s.pending ∧ Sound s' := by
  simp only [step]
  split
  · rename_i buffers idle accepted
    obtain ⟨few, below⟩ := IoCall.buffers_fit accepted
    obtain ⟨others, now, after⟩ := pendingOf_set idle
    have same : pendingOf (s.threads.set thread (.starting buffers [])) = s.pending :=
      (after _).trans now.symm
    have fits : (Phase.starting buffers []).Fits := by
      refine ⟨few, fun b member => ⟨checkable buffers accepted b member, ?_⟩⟩
      exact (below b member).trans (Nat.pow_le_pow_right (by decide) sound.narrow)
    refine ⟨_, rfl, same, sound.setPhase fits ?_⟩
    rw [same]
    exact sound.holds
  · exact ⟨s, rfl, rfl, sound⟩

theorem Sound.phase_fits (sound : Sound s) (at_thread : s.threads[thread]? = some phase) :
    phase.Fits :=
  sound.phases phase (List.mem_of_getElem? at_thread)

theorem advance_starting (sound : Sound s) {todo locked : List Buffer}
    (at_thread : s.threads[thread]? = some (.starting (b :: todo) locked)) :
    ∃ s', step s (.advance thread) = .ok s' ∧ s'.pending = b ::ₘ s.pending ∧ Sound s' := by
  obtain ⟨others, now, after⟩ := pendingOf_set at_thread
  obtain ⟨regions, added, holds⟩ :=
    naClIntervalRangeTreeAddInterval_holds (x := b.interval) sound.holds
  have gains : pendingOf (s.threads.set thread (.starting todo (locked ++ [b]))) =
      b ::ₘ s.pending := by
    rw [after, State.pending, now, ← Multiset.cons_add]
    exact congrArg (· + others) (Multiset.coe_eq_coe.mpr (List.perm_append_singleton b locked))
  have fits : (Phase.starting todo (locked ++ [b])).Fits := by
    obtain ⟨few, fits⟩ := sound.phase_fits at_thread
    have buffers_eq : (Phase.starting todo (locked ++ [b])).buffers =
        (Phase.starting (b :: todo) locked).buffers := by
      simp [Phase.buffers]
    exact ⟨buffers_eq ▸ few, buffers_eq ▸ fits⟩
  refine ⟨(State.mk { s.nap with memIoRegions := regions } s.threads).setPhase thread
    (.starting todo (locked ++ [b])), ?_, gains, sound.setPhase fits ?_⟩
  · simp only [step, at_thread, naClVmIoWillStart, ofMultiset, added]
    rfl
  · rw [gains, Multiset.map_cons]
    exact holds

theorem advance_ending (sound : Sound s) {todo : List Buffer}
    (at_thread : s.threads[thread]? = some (.ending (b :: todo))) :
    ∃ s', step s (.advance thread) = .ok s' ∧ s.pending = b ::ₘ s'.pending ∧ Sound s' := by
  obtain ⟨others, now, after⟩ := pendingOf_set at_thread
  have loses : s.pending = b ::ₘ pendingOf (s.threads.set thread (.ending todo)) := by
    rw [after, State.pending, now, ← Multiset.cons_add]
    rfl
  have few := sound.card_lt
  have held := sound.holds
  rw [loses, Multiset.card_cons] at few
  rw [loses, Multiset.map_cons] at held
  obtain ⟨regions, removed, holds⟩ := naClIntervalRangeTreeRemoveInterval_holds held (by
    rw [Multiset.card_map]
    exact Nat.lt_of_succ_lt few)
  have fits : (Phase.ending todo).Fits := by
    obtain ⟨few, fits⟩ := sound.phase_fits at_thread
    exact ⟨Nat.le_of_succ_le few, fun c member => fits c (List.mem_cons_of_mem b member)⟩
  refine ⟨(State.mk { s.nap with memIoRegions := regions } s.threads).setPhase thread
    (.ending todo), ?_, loses, sound.setPhase fits holds⟩
  simp only [step, at_thread, naClVmIoHasEnded, ofMultiset, removed]
  rfl

/-- A thread goes to a phase that holds the same ranges. -/
theorem advance_same (sound : Sound s) {next : Phase} (at_thread : s.threads[thread]? = some phase)
    (fits : next.Fits) (held : next.held = phase.held) :
    (s.setPhase thread next).pending = s.pending ∧ Sound (s.setPhase thread next) := by
  obtain ⟨others, now, after⟩ := pendingOf_set at_thread
  have same : pendingOf (s.threads.set thread next) = s.pending := by
    rw [after, held]
    exact now.symm
  have holds : Holds s.nap.memIoRegions
      ((pendingOf (s.threads.set thread next)).map Buffer.interval) := by
    rw [same]
    exact sound.holds
  exact ⟨same, sound.setPhase fits holds⟩

theorem advance_detects (sound : Sound s) (thread : Nat) :
    Detects s (.advance thread) ∧ ∀ s', step s (.advance thread) = .ok s' → Sound s' := by
  -- each phase has one successor, so a step that is found is the only one
  have only : ∀ {t}, step s (.advance thread) = .ok t → Sound t →
      ∀ s', step s (.advance thread) = .ok s' → Sound s' := by
    intro t stepped sound' s' stepped'
    cases stepped.symm.trans stepped'
    exact sound'
  simp only [Detects]
  cases at_thread : s.threads[thread]? with
  | none =>
    have stepped : step s (.advance thread) = .ok s := by simp only [step, at_thread]
    exact ⟨⟨s, stepped, rfl⟩, only stepped sound⟩
  | some phase =>
    cases phase with
    | idle =>
      have stepped : step s (.advance thread) = .ok s := by simp only [step, at_thread]
      exact ⟨⟨s, stepped, rfl⟩, only stepped sound⟩
    | starting todo locked =>
      cases todo with
      | nil =>
        have fits := sound.phase_fits at_thread
        have stepped : step s (.advance thread) = .ok (s.setPhase thread (.ending locked)) := by
          simp only [step, at_thread]
        have nextFits : (Phase.ending locked).Fits :=
          ⟨by simpa [Phase.buffers] using fits.few, by simpa [Phase.buffers] using fits.fits⟩
        obtain ⟨same, sound'⟩ := advance_same sound at_thread nextFits rfl
        exact ⟨⟨_, stepped, same⟩, only stepped sound'⟩
      | cons b todo =>
        obtain ⟨s', stepped, gains, sound'⟩ := advance_starting sound at_thread
        exact ⟨⟨s', stepped, gains⟩, only stepped sound'⟩
    | ending todo =>
      cases todo with
      | nil =>
        have stepped : step s (.advance thread) = .ok (s.setPhase thread .idle) := by
          simp only [step, at_thread]
        have idleFits : Phase.idle.Fits := ⟨Nat.zero_le _, fun b member => by cases member⟩
        obtain ⟨same, sound'⟩ := advance_same sound at_thread idleFits rfl
        exact ⟨⟨_, stepped, same⟩, only stepped sound'⟩
      | cons b todo =>
        obtain ⟨s', stepped, loses, sound'⟩ := advance_ending sound at_thread
        exact ⟨⟨s', stepped, loses⟩, only stepped sound'⟩

theorem memCall_detects (sound : Sound s) {call : MemCall}
    (checkable : call.Checkable s.nap s.pending) :
    Detects s (.memCall call) ∧ ∀ s', step s (.memCall call) = .ok s' → Sound s' := by
  obtain ⟨race, frame⟩ := memCall_asks s.nap call
  rw [checked_iff_inUse sound.tracks checkable] at race
  cases result : call.run s.nap with
  | error failure =>
    have stepped : step s (.memCall call) = .error failure := by
      simp only [step, result]
      rfl
    rw [result] at race
    simp only [Detects, stepped]
    refine ⟨(Iff.intro ?_ ?_).trans race, fun s' same => by cases same⟩
    · exact fun same => congrArg _ (Except.error.inj same)
    · exact fun same => congrArg _ (Except.error.inj same)
  | ok returned =>
    obtain ⟨r, nap', effects⟩ := returned
    obtain ⟨regions, space⟩ := frame r nap' effects result
    have stepped : step s (.memCall call) = .ok { s with nap := nap' } := by
      simp only [step, result]
      rfl
    rw [result] at race
    have noRace : step s (.memCall call) ≠ .error .memWriteRace := by
      rw [stepped]
      intro same
      cases same
    refine ⟨iff_of_false noRace (fun inUse => by cases race.mpr inUse), fun s' stepped' => ?_⟩
    cases stepped.symm.trans stepped'
    refine ⟨?_, by rw [space]; exact sound.narrow, sound.threadMax, sound.phases⟩
    rw [regions]
    exact sound.holds

theorem step_detects (sound : Sound s) {a : Action} (checkable : a.Checkable s) :
    Detects s a ∧ ∀ s', step s a = .ok s' → Sound s' := by
  cases a with
  | ioCall thread call =>
    obtain ⟨t, stepped, same, sound'⟩ := ioCall_sound sound checkable
    refine ⟨⟨t, stepped, same⟩, fun s' stepped' => ?_⟩
    cases stepped.symm.trans stepped'
    exact sound'
  | advance thread => exact advance_detects sound thread
  | memCall call => exact memCall_detects sound checkable

/-! ## Runs -/

/-- No thread is in an I/O call. -/
structure State.Initial (s : State) : Prop where
  regions : s.nap.memIoRegions = .nil
  narrow : s.nap.space.addrBits ≤ 32
  threadMax : s.threads.length < naClThreadMax
  idle : ∀ phase ∈ s.threads, phase = .idle

theorem State.Initial.sound (initial : s.Initial) : Sound s where
  holds := by
    have none : s.pending = 0 := by
      refine Multiset.eq_zero_of_forall_notMem fun b held => ?_
      obtain ⟨phase, member, heldThere⟩ := mem_pendingOf held
      rw [initial.idle phase member] at heldThere
      cases heldThere
    rw [none, initial.regions]
    exact represents_nil
  narrow := initial.narrow
  threadMax := initial.threadMax
  phases := by
    intro phase member
    rw [initial.idle phase member]
    exact ⟨Nat.zero_le _, nofun⟩

/-- Two idle threads over the data pages `[0x20000, 0x40000)`. -/
def twoThreads : State where
  nap :=
    { space := ⟨32, 2 ^ 32, fourGigabytes_inSpace⟩
      staticTextEnd := 0x20000
      dynamicTextStart := 0x20000
      dynamicTextEnd := 0
      dataEnd := 0x40000
      breakAddr := 0x40000
      pnaclMode := false
      enableDyncodeSyscalls := true
      memMap := naClVmmapAdd naClVmmapCtor 0x20 0x20 (naClAbiProtRead ||| naClAbiProtWrite)
        naClAbiMapPrivate none 0 0
      memIoRegions := .nil }
  threads := [.idle, .idle]

theorem twoThreads_initial : twoThreads.Initial where
  regions := rfl
  narrow := by decide
  threadMax := by decide
  idle := by simp [twoThreads]

end SandboxTEE.Memory
