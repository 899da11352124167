import SandboxTEE.DebugStub.Breakpoints

/-! # Runs of packets about memory and breakpoints

In a run whose packets all meet a condition (`Clean`), every `m` is answered as by a target that
has no breakpoints and whose memory only the earlier `M` packets have changed
(`breakpoints_transparent`).
-/

namespace SandboxTEE.DebugStub

open SandboxTEE.Lib
open SandboxTEE.Runtime

variable {nap : Nap} {os : Os} {t : Target} {orig : Nat → Char8} {pktIn pktOut : Packet}

/-! ## Single packets -/

/-- The range of `m` and `M`, where it lies in the sandbox. -/
def targetRange (nap : Nap) (pktIn : Packet) : Option (Nat × Nat) := do
  let (userAddr, wlen) ← (Target.readRange pktIn).1
  let userAddr := Target.adjustUserAddr nap userAddr
  let _ ← naClUserToSysAddrRange nap.toAddressSpace userAddr wlen
  pure (userAddr, wlen)

/-- The range that is read does not reach up to 2^32 with a breakpoint in it. -/
def CleanRead (nap : Nap) (os : Os) (t : Target) (pktIn : Packet) : Prop :=
  ∀ addr len, targetRange nap pktIn = some (addr, len) → len ≤ kPipeBufferBound →
    os.readable (addr + nap.memStart) len = true →
    addr + len < 2 ^ 32 ∨ ∀ bp ∈ t.breakpointMap, bp.1 < addr

/-- The range is written as a whole or not at all, and no breakpoint lies in it. -/
def CleanWrite (nap : Nap) (os : Os) (t : Target) (pktIn : Packet) : Prop :=
  ∀ addr len, targetRange nap pktIn = some (addr, len) → nap.dynamicTextEnd ≤ addr →
    os.Atomic nap (addr + nap.memStart) len ∧
      (os.Stores nap (addr + nap.memStart) len →
        ∀ bp ∈ t.breakpointMap, bp.1 < addr ∨ addr + len ≤ bp.1)

theorem targetRange_eq {userAddr wlen sysAddr : Nat} {rest : Packet}
    (read : Target.readRange pktIn = (some (userAddr, wlen), rest))
    (range : naClUserToSysAddrRange nap.toAddressSpace (Target.adjustUserAddr nap userAddr) wlen =
      some sysAddr) : targetRange nap pktIn = some (Target.adjustUserAddr nap userAddr, wlen) := by
  simp [targetRange, read, range]

/-- A range of the sandbox has less than 2^32 bytes. -/
theorem length_lt {addr count : Nat} (nonzero : addr ≠ 0)
    (within : addr + count ≤ 2 ^ nap.addrBits) : count < 2 ^ 32 := by
  have := nap.two_pow_addrBits_le
  omega

theorem readMemory_shows (shows : Shows nap orig t) (clean : CleanRead nap os t pktIn) :
    t.readMemory nap os pktIn pktOut =
      { (Target.plain orig).readMemory nap os pktIn pktOut with target := t } := by
  rw [Target.readMemory, Target.readMemory]
  cases read : Target.readRange pktIn with
  | mk range rest =>
    cases range with
    | none => rfl
    | some range =>
      obtain ⟨userAddr, wlen⟩ := range
      dsimp only
      cases translated : naClUserToSysAddrRange nap.toAddressSpace
          (Target.adjustUserAddr nap userAddr) wlen with
      | none => rfl
      | some sysAddr =>
        obtain ⟨nonzero, within, rfl⟩ := naClUserToSysAddrRange_some translated
        have clear := clean _ _ (targetRange_eq read translated)
        dsimp only
        rw [Nat.mod_eq_of_lt (length_lt nonzero within), getMemory, getMemory]
        by_cases long : kPipeBufferBound < wlen
        · rw [if_pos long, if_pos long]
        · rw [if_neg long, if_neg long]
          by_cases readable : os.readable (Target.adjustUserAddr nap userAddr + nap.memStart) wlen
          · rw [if_pos readable, if_pos readable]
            dsimp only
            rw [erase_original shows.wellFormed (within.trans nap.two_pow_addrBits_le)
              (clear (not_lt.mp long) readable), shows.original]
            rfl
          · rw [if_neg readable, if_neg readable]

theorem length_getBlock (old : List Char8) (p : Packet) : (p.getBlock old).2.1.length = old.length := by
  induction old generalizing p with
  | nil => rfl
  | cons o old ih =>
    rw [Packet.getBlock]
    split
    · rfl
    · next byte p _ => exact congrArg (· + 1) (ih p)

/-- Whether and what `M` writes does not depend on the target. -/
theorem writeMemory_cases (nap : Nap) (os : Os) (pktIn : Packet) :
    (∃ err, err ≠ .none ∧ ∀ t pktOut, Target.writeMemory nap os t pktIn pktOut = ⟨t, pktOut, err⟩) ∨
      ∃ addr block, targetRange nap pktIn = some (addr, block.length) ∧
        nap.dynamicTextEnd ≤ addr ∧ ∀ t pktOut, Target.writeMemory nap os t pktIn pktOut =
          let out := setMemory nap os t.mem (addr + nap.memStart) block
          if out.1 = false then ⟨{ t with mem := out.2 }, pktOut, .failed⟩
          else ⟨{ t with mem := out.2 }, pktOut.addString Target.okReply, .none⟩ := by
  cases read : Target.readRange pktIn with
  | mk range rest =>
    cases range with
    | none => exact .inl ⟨.badFormat, nofun, fun t pktOut => by simp [Target.writeMemory, read]⟩
    | some range =>
      obtain ⟨userAddr, wlen⟩ := range
      cases translated : naClUserToSysAddrRange nap.toAddressSpace
          (Target.adjustUserAddr nap userAddr) wlen with
      | none =>
        exact .inl ⟨.failed, nofun, fun t pktOut => by simp [Target.writeMemory, read, translated]⟩
      | some sysAddr =>
        by_cases code : Target.adjustUserAddr nap userAddr < nap.dynamicTextEnd
        · exact .inl ⟨.failed, nofun, fun t pktOut => by
            simp [Target.writeMemory, read, translated, code]⟩
        · have range := targetRange_eq read translated
          obtain ⟨nonzero, within, rfl⟩ := naClUserToSysAddrRange_some translated
          refine .inr ⟨_, (rest.getBlock (bytesAt os.fresh 0 wlen)).2.1, ?_, not_lt.mp code,
            fun t pktOut => ?_⟩
          · rw [length_getBlock, length_bytesAt]
            exact range
          · simp only [Target.writeMemory, read, translated, if_neg code,
              Nat.mod_eq_of_lt (length_lt nonzero within)]

/-- `M` writes what it would write without breakpoints. -/
theorem writeMemory_shows (shows : Shows nap orig t) (clean : CleanWrite nap os t pktIn) :
    let plain := (Target.plain orig).writeMemory nap os pktIn pktOut
    let out := t.writeMemory nap os pktIn pktOut
    Shows nap (if plain.err = .none then plain.target.mem else orig) out.target ∧
      out.target.initialBreakpointAddr = t.initialBreakpointAddr := by
  dsimp only
  cases writeMemory_cases nap os pktIn with
  | inl refused =>
    obtain ⟨err, isError, refused⟩ := refused
    rw [refused, refused, if_neg isError]
    exact ⟨shows, rfl⟩
  | inr writes =>
    obtain ⟨addr, block, range, data, writes⟩ := writes
    obtain ⟨atomic, apart⟩ := clean addr block.length range data
    rw [writes, writes]
    have plain : (Target.plain orig).mem = orig := rfl
    cases setMemory_cases atomic t.mem with
    | inl failed =>
      cases setMemory_cases atomic orig with
      | inl failed' =>
        rw [plain, failed.2, failed'.2]
        exact ⟨shows, rfl⟩
      | inr written => exact absurd (failed.1.symm.trans written.1) nofun
    | inr written =>
      cases setMemory_cases atomic orig with
      | inl failed => exact absurd (failed.1.symm.trans written.1) nofun
      | inr written' =>
        rw [plain, written.2, written'.2]
        refine ⟨⟨⟨shows.wellFormed.sorted, shows.wellFormed.each⟩, ?_⟩, rfl⟩
        by_cases nothing : block = []
        · simp only [nothing, store_nil]
          exact shows.original
        · obtain ⟨code, short, got, stored, long⟩ := Os.succeeds_iff.mp written.1
          have some : 0 < block.length := List.length_pos_iff.mpr nothing
          have clear := apart ⟨some, short, fun inside => (code inside).1, got, stored,
            some.trans_le long⟩
          exact (Target.original_store clear).trans (by rw [shows.original]; rfl)

/-! ## Runs -/

/-- What the target does, with what the system does meanwhile. -/
inductive Event where
  | init (os : Os) (initialEntryPt : Nat)
  | removeInitial (os : Os)
  | packet (os : Os) (pktIn pktOut : Packet)

/-- `none` where the target does not go on, and for other packets. -/
def step (nap : Nap) (t : Target) : Event → Option Target
  | .init os initialEntryPt => t.init nap os initialEntryPt
  | .removeInitial os => t.removeInitialBreakpoint nap os
  | .packet os pktIn pktOut => (t.processPacket nap os pktIn pktOut).map (·.target)

/-- The memory without breakpoints after an event: only an `M` that succeeds changes it. -/
def written (nap : Nap) (orig : Nat → Char8) : Event → Nat → Char8
  | .packet os pktIn pktOut =>
    match Target.command pktIn with
    | some (.write, _) =>
      ((Target.plain orig).processPacket nap os pktIn pktOut).elim orig fun done =>
        if done.err = .none then done.target.mem else orig
    | _ => orig
  | _ => orig

/-- The byte of a breakpoint is stored only if the protection of the code comes back. -/
def CleanChange (nap : Nap) (os : Os) (addr : Nat) : Prop := os.Atomic nap (addr + nap.memStart) 1

/-- The condition on an event, in the state before it. -/
def Clean (nap : Nap) (t : Target) : Event → Prop
  | .init os initialEntryPt =>
    Inserts nap os t (initialEntryPt % 2 ^ 32) → CleanChange nap os (initialEntryPt % 2 ^ 32)
  | .removeInitial os =>
    (find t.initialBreakpointAddr t.breakpointMap).isSome → CleanChange nap os t.initialBreakpointAddr
  | .packet os pktIn _ =>
    match Target.command pktIn with
    | some (.read, rest) => CleanRead nap os t rest
    | some (.write, rest) => CleanWrite nap os t rest
    | some (.insert, rest) =>
      ∀ addr, Target.readBreakpoint rest = some addr → Inserts nap os t addr → CleanChange nap os addr
    | some (.delete, rest) =>
      ∀ addr, Target.readBreakpoint rest = some addr → (find addr t.breakpointMap).isSome →
        CleanChange nap os addr
    | none => True

/-- What an observer sees of a packet: `m` is answered as without breakpoints, and an error to `Z`
    or `z` means that nothing has changed. -/
def Transparent (nap : Nap) (orig : Nat → Char8) (t : Target) : Event → Prop
  | .packet os pktIn pktOut =>
    match Target.command pktIn with
    | some (.read, _) =>
      (t.processPacket nap os pktIn pktOut).map (·.pktOut) =
        ((Target.plain orig).processPacket nap os pktIn pktOut).map (·.pktOut)
    | some (.insert, _) | some (.delete, _) =>
      ∀ done, t.processPacket nap os pktIn pktOut = some done → done.err ≠ .none → done.target = t
    | _ => True
  | _ => True

/-! ### One event -/

theorem processPacket_of_command {cmd : Target.Command} {rest : Packet}
    (command : Target.command pktIn = some (cmd, rest)) (t : Target) :
    t.processPacket nap os pktIn pktOut =
      (t.runCommand nap os rest (Target.startReply pktIn pktOut) cmd).map (·.reply) := by
  rw [Target.processPacket, command]
  exact (Option.map_eq_bind ..).symm

variable (done : Target.Processed)

@[simp] theorem reply_target : done.reply.target = done.target := by
  rw [Target.Processed.reply]
  split <;> rfl

theorem reply_pktOut (t : Target) :
    ({ done with target := t } : Target.Processed).reply.pktOut = done.reply.pktOut := by
  rw [Target.Processed.reply, Target.Processed.reply, apply_ite Target.Processed.pktOut,
    apply_ite Target.Processed.pktOut]

@[simp] theorem reply_err : done.reply.err = done.err := by
  rw [Target.Processed.reply]
  split <;> rfl

/-- A packet that sets or removes a breakpoint: it does so and shows nothing, or leaves the target
    as it was. -/
theorem insertBreakpoint_shows (shows : Shows nap orig t)
    (clean : ∀ addr, Target.readBreakpoint pktIn = some addr → Inserts nap os t addr →
      CleanChange nap os addr) : let done := t.insertBreakpoint nap os pktIn pktOut
    Shows nap orig done.target ∧ (done.err ≠ .none → done.target = t) := by
  dsimp only
  rw [Target.insertBreakpoint]
  split
  · exact ⟨shows, fun _ => rfl⟩
  · next addr read =>
    split
    · exact ⟨shows, fun _ => rfl⟩
    · cases addBreakpoint_shows shows (clean addr read) with
      | inl refused =>
        rw [refused]
        exact ⟨shows, fun _ => rfl⟩
      | inr added =>
        obtain ⟨t', added, shows', -⟩ := added
        rw [added]
        exact ⟨shows', fun error => absurd rfl error⟩

theorem deleteBreakpoint_shows (shows : Shows nap orig t)
    (clean : ∀ addr, Target.readBreakpoint pktIn = some addr →
      (find addr t.breakpointMap).isSome → CleanChange nap os addr) {done : Target.Processed}
    (ran : t.deleteBreakpoint nap os pktIn pktOut = some done) :
    Shows nap orig done.target ∧ (done.err ≠ .none → done.target = t) := by
  rw [Target.deleteBreakpoint] at ran
  split at ran
  · cases ran
    exact ⟨shows, fun _ => rfl⟩
  · next addr read =>
    split at ran
    · cases ran
      exact ⟨shows, fun _ => rfl⟩
    · cases removeBreakpoint_shows shows (clean addr read) with
      | inl refused =>
        rw [refused] at ran
        cases ran
        exact ⟨shows, fun _ => rfl⟩
      | inr removed =>
        obtain ⟨t', removed, shows', -⟩ := removed
        rw [removed] at ran
        cases ran
        exact ⟨shows', fun error => absurd rfl error⟩

/-- One event keeps that the breakpoints do not show. -/
theorem step_shows (t : Target) (orig : Nat → Char8) (e : Event) (t' : Target)
    (shows : Shows nap orig t) (clean : Clean nap t e) (stepped : step nap t e = some t') :
    Shows nap (written nap orig e) t' := by
  cases e with
  | init os initialEntryPt =>
    have entered : Shows nap orig { t with initialBreakpointAddr := initialEntryPt % 2 ^ 32 } :=
      ⟨⟨shows.wellFormed.sorted, shows.wellFormed.each⟩, shows.original⟩
    rw [step, Target.init] at stepped
    cases addBreakpoint_shows entered
        (fun inserts => clean ⟨inserts.boundary, inserts.absent, inserts.range, inserts.text,
          inserts.readable⟩) with
    | inl refused =>
      rw [refused] at stepped
      cases stepped
    | inr added =>
      obtain ⟨u, added, shows', -⟩ := added
      rw [added] at stepped
      cases stepped
      exact shows'
  | removeInitial os =>
    rw [step, Target.removeInitialBreakpoint] at stepped
    split at stepped
    · cases removeBreakpoint_shows shows clean with
      | inl refused =>
        rw [refused] at stepped
        cases stepped
      | inr removed =>
        obtain ⟨u, removed, shows', -⟩ := removed
        rw [removed] at stepped
        cases stepped
        exact ⟨⟨shows'.wellFormed.sorted, shows'.wellFormed.each⟩, shows'.original⟩
    · cases stepped
      exact shows
  | packet os pktIn pktOut =>
    rw [step] at stepped
    rw [Clean] at clean
    rw [written]
    cases command : Target.command pktIn with
    | none => simp [Target.processPacket, command] at stepped
    | some request =>
      obtain ⟨cmd, rest⟩ := request
      rw [processPacket_of_command command, Option.map_map] at stepped
      obtain ⟨done, ran, rfl⟩ := Option.map_eq_some_iff.mp stepped
      rw [Function.comp_apply, reply_target]
      rw [command] at clean
      cases cmd with
      | read =>
        cases ran
        rw [readMemory_shows shows clean]
        exact shows
      | write =>
        cases ran
        rw [processPacket_of_command command, Target.runCommand, Option.map_some, Option.elim_some,
          reply_err, reply_target]
        exact (writeMemory_shows shows clean).1
      | insert =>
        cases ran
        exact (insertBreakpoint_shows shows clean).1
      | delete => exact (deleteBreakpoint_shows shows clean ran).1

theorem transparent_of_shows (shows : Shows nap orig t) {e : Event} (clean : Clean nap t e) :
    Transparent nap orig t e := by
  cases e with
  | init => trivial
  | removeInitial => trivial
  | packet os pktIn pktOut =>
    rw [Clean] at clean
    rw [Transparent]
    cases command : Target.command pktIn with
    | none => trivial
    | some request =>
      obtain ⟨cmd, rest⟩ := request
      rw [command] at clean
      cases cmd with
      | read =>
        dsimp only
        rw [processPacket_of_command command, processPacket_of_command command, Target.runCommand,
          Target.runCommand, readMemory_shows shows clean]
        exact congrArg some (reply_pktOut _ t)
      | write => trivial
      | insert =>
        intro done processed error
        rw [processPacket_of_command command] at processed
        obtain ⟨ran, same, rfl⟩ := Option.map_eq_some_iff.mp processed
        cases same
        rw [reply_err] at error
        rw [reply_target]
        exact (insertBreakpoint_shows shows clean).2 error
      | delete =>
        intro done processed error
        rw [processPacket_of_command command] at processed
        obtain ⟨ran, same, rfl⟩ := Option.map_eq_some_iff.mp processed
        rw [reply_err] at error
        rw [reply_target]
        exact (deleteBreakpoint_shows shows clean same).2 error

/-- In a run that starts without breakpoints and whose events all meet the condition, the
    breakpoints do not show: `m` is answered as without them, an error to `Z` or `z` changes nothing,
    and when all of them are gone the memory is what only the `M` packets have made of it. -/
theorem breakpoints_transparent {mem : Nat → Char8} {events : List Event} {t' : Target}
    (clean : ∀ pre e, pre ++ [e] <+: events → ∀ t,
      pre.foldlM (step nap) (Target.plain mem) = some t → Clean nap t e)
    (run : events.foldlM (step nap) (Target.plain mem) = some t') :
    (∀ pre e, pre ++ [e] <+: events → ∀ t, pre.foldlM (step nap) (Target.plain mem) = some t →
      Transparent nap (pre.foldl (written nap) mem) t e) ∧
      (t'.breakpointMap = [] → t'.mem = events.foldl (written nap) mem) := by
  have start : Shows nap mem (Target.plain mem) :=
    ⟨⟨List.Pairwise.nil, nofun⟩, Target.original_of_no_breakpoints rfl⟩
  have tracks : ∀ events t', (∀ pre e, pre ++ [e] <+: events → ∀ t,
      pre.foldlM (step nap) (Target.plain mem) = some t → Clean nap t e) →
      events.foldlM (step nap) (Target.plain mem) = some t' →
        Shows nap (events.foldl (written nap) mem) t' := fun events t' clean run =>
    foldlM_tracks (R := fun t orig => Shows nap orig t) step_shows start clean run
  refine ⟨fun pre e within t before => ?_, fun gone => ?_⟩
  · have earlier : ∀ pre' e', pre' ++ [e'] <+: pre → pre' ++ [e'] <+: events :=
      fun pre' e' first => first.trans ((List.prefix_append pre [e]).trans within)
    exact transparent_of_shows (tracks pre t (fun pre' e' first => clean pre' e' (earlier pre' e' first))
      before) (clean pre e within t before)
  · rw [← (tracks events t' clean run).original, Target.original_of_no_breakpoints gone]

/-! ## Two sessions -/

/-- A sandbox of 4 GiB whose validator takes every address, full of `nop`s. -/
def nopSandbox : Nap :=
  ⟨⟨32, 2 ^ 32, fourGigabytes_inSpace⟩, 0x20000, fun _ _ _ => true, by decide, by decide⟩

def nops : Nat → Char8 := fun _ => 0x90

def calmOs : Os := ⟨fun _ _ => true, some 0x1000, true, true, fun _ => 0⟩

/-- A packet without a number. -/
def Event.ofChars (chars : List Char8) : Event := .packet calmOs ⟨-1, chars, 0⟩ Packet.new

/-- `Z0,10000,1`, `m10000,1` and `z0,10000,1`. -/
def breakpointSession : List Event :=
  [.ofChars [0x5a, 0x30, 0x2c, 0x31, 0x30, 0x30, 0x30, 0x30, 0x2c, 0x31],
    .ofChars [0x6d, 0x31, 0x30, 0x30, 0x30, 0x30, 0x2c, 0x31],
    .ofChars [0x7a, 0x30, 0x2c, 0x31, 0x30, 0x30, 0x30, 0x30, 0x2c, 0x31]]

theorem calmOs_clean (addr : Nat) : CleanChange nopSandbox calmOs addr :=
  fun _ => ⟨fun got stored => by cases stored; decide, fun _ => rfl⟩

theorem breakpointSession_clean (t : Target) : ∀ e ∈ breakpointSession, Clean nopSandbox t e := by
  intro e member
  simp only [breakpointSession, List.mem_cons, List.not_mem_nil, or_false] at member
  obtain rfl | rfl | rfl := member
  · exact fun addr _ _ => calmOs_clean addr
  · intro addr len range _ _
    have here : targetRange nopSandbox ⟨-1, [0x6d, 0x31, 0x30, 0x30, 0x30, 0x30, 0x2c, 0x31], 1⟩ =
        some (0x10000, 1) := by decide
    cases here.symm.trans range
    exact .inl (by decide)
  · exact fun addr _ _ => calmOs_clean addr

theorem breakpoints_transparent_session :
    (breakpointSession.foldlM (step nopSandbox) (Target.plain nops)).map (·.mem) = some nops := by
  obtain ⟨t', run⟩ : ∃ t', breakpointSession.foldlM (step nopSandbox) (Target.plain nops) =
      some t' := ⟨_, rfl⟩
  have gone : (breakpointSession.foldlM (step nopSandbox) (Target.plain nops)).map
      (·.breakpointMap) = some [] := by decide
  rw [run] at gone ⊢
  have restored := (breakpoints_transparent (fun pre e within t _ =>
    breakpointSession_clean t e (within.subset (by simp))) run).2 (Option.some.inj gone)
  exact congrArg some restored

/-- A breakpoint is set at the last byte of the address space, where there is no code, and shows:
    `Z0,ffffffff,1` and then `mffffffff,1`. -/
theorem readMemory_shows_last_breakpoint :
    let set := Event.ofChars [0x5a, 0x30, 0x2c, 0x66, 0x66, 0x66, 0x66, 0x66, 0x66, 0x66, 0x66,
      0x2c, 0x31]
    let read : Packet := ⟨-1, [0x6d, 0x66, 0x66, 0x66, 0x66, 0x66, 0x66, 0x66, 0x66, 0x2c, 0x31], 0⟩
    ((step nopSandbox (Target.plain nops) set).bind fun t =>
      (t.processPacket nopSandbox calmOs read Packet.new).map (·.pktOut.data)) =
        some [0x66, 0x34] ∧
      ((Target.plain nops).processPacket nopSandbox calmOs read Packet.new).map (·.pktOut.data) =
        some [0x39, 0x30] := by
  decide

end SandboxTEE.DebugStub
