import SandboxTEE.HostDir.Stream

/-! # Reading a directory

A session is a sequence of calls of `getdents` and of rewinds.  As long as no name has the greatest
length and no rewind comes while entries are buffered, what the user has read since the last rewind
is the front of the directory, and each call for which there is room reads more of it.
-/

namespace SandboxTEE.HostDir

open SandboxTEE.Lib

/-! ## Sessions -/

def int32Max : Nat := 2 ^ 31 - 1

inductive Request where
  /-- `NaClSysGetdents`, with the user's memory at the time. -/
  | getdents (errno : Nat) (mem : Memory) (buf count : Nat)
  | rewind

structure Session where
  d : NaClHostDir
  host : DirHost
  /-- What the user has read since the last rewind; `none` if it was not readable. -/
  delivered : Option (List NaClDirent)
  /-- The result of the last call. -/
  retval : Int

namespace Session

/-- `NaClHostDirCtor` leaves the buffer as it is. -/
def opened (fd : Int) (direntBuf : Memory) (entries : List DirEntry) (script : List Batch) :
    Session :=
  ⟨⟨fd, 0, 0, direntBuf⟩, ⟨entries, entries, script⟩, some [], 0⟩

def step (s : Session) : Request → Session
  | .getdents errno mem buf count =>
    match (naClHostDirGetdents errno s.d mem buf (min count int32Max)).run DirHost.serve s.host with
    | (some (retval, d, mem), host) =>
      { d, host, retval
        delivered := do
          let before ← s.delivered
          let read ← naClDirents mem retval.toNat buf retval.toNat
          some (before ++ read) }
    | (none, host) => { s with host, delivered := none }
  | .rewind =>
    match (naClHostDirRewind s.d).run DirHost.serve s.host with
    | (some retval, host) =>
      { s with host, retval, delivered := if retval = 0 then some [] else s.delivered }
    | (none, host) => { s with host, delivered := none }

/-- How many entries the user has read since the last rewind. -/
def count (s : Session) : Nat := (s.delivered.getD []).length

/-- The next entry has room in a buffer of that size. -/
def Room (s : Session) (count : Nat) : Prop := ∀ e ∈ s.host.entries[s.count]?, e.size ≤ count

/-- The user has read the front of the directory. -/
def InOrder (s : Session) : Prop :=
  s.delivered = some ((s.host.entries.take s.count).map DirEntry.toNaCl)

instance (s : Session) : Decidable s.InOrder := inferInstanceAs (Decidable (_ = _))

/-- When there is room and the host does not fail, a call reads more, up to the end. -/
def Advances (s s' : Session) : Prop :=
  s.count < s'.count ∨ s.count = s.host.entries.length ∧ s'.count = s.count ∧ s'.retval = 0

/-- What is wanted of one step. -/
def StepOk (s : Session) : Request → Prop
  | .getdents errno mem buf count =>
    let s' := s.step (.getdents errno mem buf count)
    s'.InOrder ∧ s.count ≤ s'.count ∧
      (buf % 8 = 0 → s.Room (min count int32Max) → ¬ s.host.Fails → s.Advances s')
  | .rewind => (s.step .rewind).delivered = some []

def AllOk : Session → List Request → Prop
  | _, [] => True
  | s, request :: requests => s.StepOk request ∧ AllOk (s.step request) requests

/-- Of the entries the call may return no name has the greatest length; a rewind finds the buffer
    empty. -/
def Meets (s : Session) : Request → Prop
  | .getdents _ _ _ count => ShortFor (min count int32Max) (s.host.entries.drop s.count)
  | .rewind => s.d.curByte = s.d.nbytes

def AllMeet : Session → List Request → Prop
  | _, [] => True
  | s, request :: requests => s.Meets request ∧ AllMeet (s.step request) requests

end Session

/-! ## What the user reads -/

section

variable {mem : Memory} {a : Nat} {e : DirEntry} {es : List DirEntry}

theorem reclen_of_holds (holds : userLayout.Holds mem a e) :
    leValue (bytesAt mem (a + 16) 2) = e.size := by
  change bytesAt mem a e.record.length = e.record at holds
  simp only [DirEntry.record, bytesAt_eq_append] at holds
  simp only [List.length_append, length_leBytes64, length_leBytes, ← Nat.add_assoc] at holds
  have := e.size_lt
  rw [holds.1.1.2, leValue_leBytes, Nat.mod_eq_of_lt (by omega)]

theorem naClDirentAt_of_holds (holds : userLayout.Holds mem a e) :
    naClDirentAt mem a e.size = some e.toNaCl := by
  have inside := e.record_inside
  rw [DirEntry.length_record] at inside
  change bytesAt mem a e.record.length = e.record at holds
  simp only [DirEntry.record, bytesAt_eq_append] at holds
  simp only [List.length_append, length_leBytes64, length_leBytes, ← Nat.add_assoc] at holds
  obtain ⟨⟨⟨⟨ino, off⟩, _⟩, name⟩, nul⟩ := holds
  have string := @cstringAt_of_block mem (a + 18) (e.size - 18) e.name e.noNul name
    (List.head_eq_of_cons_eq nul) (by omega)
  have number (x : BitVec 64) : BitVec.ofNat 64 (leValue (leBytes64 x)) = x := by
    have bound : x.toNat < 256 ^ 8 := x.isLt
    rw [leBytes64, leValue_leBytes, Nat.mod_eq_of_lt bound, BitVec.ofNat_toNat, BitVec.setWidth_eq]
  rw [naClDirentAt, string, ino, off, number, number]
  rfl

theorem naClDirents_of_holds {fuel : Nat} (holds : userLayout.HoldsAll mem a es)
    (enough : userLayout.sizes es ≤ fuel) :
    naClDirents mem fuel a (userLayout.sizes es) = some (es.map DirEntry.toNaCl) := by
  induction es generalizing a fuel with
  | nil => cases fuel <;> rfl
  | cons e es ih =>
    have positive := e.size_pos
    rw [RecordLayout.sizes_cons] at enough ⊢
    change e.size + userLayout.sizes es ≤ fuel at enough
    change naClDirents mem fuel a (e.size + userLayout.sizes es) = _
    cases fuel with
    | zero => omega
    | succ fuel =>
      have others := ih holds.2 (show userLayout.sizes es ≤ fuel by omega)
      change naClDirents mem fuel (a + e.size) (userLayout.sizes es) = _ at others
      rw [naClDirents, if_neg (by omega)]
      dsimp only
      rw [reclen_of_holds holds.1, if_neg (by omega), naClDirentAt_of_holds holds.1,
        Nat.add_sub_cancel_left, others]
      rfl

end

/-! ## `NaClHostDirGetdents` -/

/-- The call has returned the entries `taken`. -/
structure Returned (h : DirHost) (es : List DirEntry) (buf len : Nat)
    (out : Int × NaClHostDir × Memory) (h' : DirHost) (taken left : List DirEntry) : Prop where
  buffered : Buffered out.2.1 left
  entries : h'.entries = h.entries
  split : es ++ h.rest = taken ++ (left ++ h'.rest)
  read : naClDirents out.2.2 out.1.toNat buf out.1.toNat = some (taken.map DirEntry.toNaCl)
  advances : buf % 8 = 0 → (es = [] → ¬ h.Fails) → (∀ e ∈ (es ++ h.rest).head?, e.size ≤ len) →
    taken = [] → es ++ h.rest = [] ∧ out.1 = 0

section

variable {h h' : DirHost} {es taken left : List DirEntry} {buf len errno : Nat} {mem : Memory}
  {d : NaClHostDir} {out : Int × NaClHostDir × Memory}

/-- The conversion to `int` loses nothing. -/
theorem Streamed.returned (bounded : len ≤ int32Max)
    (streamed : Streamed h es mem buf len 0 out h' taken left) :
    Returned h es buf len (out.1.bmod (2 ^ 32), out.2) h' taken left := by
  have inside := streamed.inside
  rw [int32Max] at bounded
  have range : -2 ^ 31 ≤ out.1 ∧ out.1 < 2 ^ 31 ∧ out.1.toNat = userLayout.sizes taken := by
    cases Nat.eq_zero_or_pos (0 + userLayout.sizes taken) with
    | inl none =>
      have := streamed.none none
      omega
    | inr some =>
      have := streamed.total some
      omega
  have kept : out.1.bmod (2 ^ 32) = out.1 := Int.bmod_eq_of_le (by omega) (by omega)
  rw [kept]
  refine ⟨streamed.buffered, streamed.entries, streamed.split, ?_, fun _ => streamed.advances⟩
  rw [range.2.2]
  exact naClDirents_of_holds streamed.holds (Nat.le_refl _)

theorem run_naClHostDirGetdents (buffered : Buffered d es) (bounded : len ≤ int32Max)
    (short : ShortFor len (es ++ h.rest)) :
    ∃ out h' taken left, (naClHostDirGetdents errno d mem buf len).run DirHost.serve h =
      (some out, h') ∧ Returned h es buf len out h' taken left := by
  rw [naClHostDirGetdents]
  by_cases aligned : buf % 8 = 0
  · rw [if_neg (not_not.mpr aligned)]
    have enough : 2 * len + (if es = [] then 2 else 1) ≤ streamFuel len := by
      rw [streamFuel]
      split <;> omega
    obtain ⟨out, h', taken, left, run, streamed⟩ := streams aligned buffered short enough
    exact ⟨_, h', taken, left, CallTree.run_bind_of_some run, streamed.returned bounded⟩
  · rw [if_pos aligned]
    refine ⟨_, h, [], es, rfl, buffered, rfl, rfl, ?_, fun isAligned => absurd isAligned aligned⟩
    rfl

end

/-! ## One step -/

namespace Session

/-- The user has read `front`, and `left` are buffered. -/
structure Reading (s : Session) (front left : List DirEntry) : Prop where
  entries : s.host.entries = front ++ (left ++ s.host.rest)
  delivered : s.delivered = some (front.map DirEntry.toNaCl)
  buffered : Buffered s.d left

variable {s : Session} {front left : List DirEntry}

theorem Reading.count (reading : s.Reading front left) : s.count = front.length := by
  rw [Session.count, reading.delivered, Option.getD_some, List.length_map]

theorem Reading.inOrder (reading : s.Reading front left) : s.InOrder := by
  rw [InOrder, reading.count, reading.entries, List.take_left]
  exact reading.delivered

theorem Reading.drop (reading : s.Reading front left) :
    s.host.entries.drop s.count = left ++ s.host.rest := by
  rw [reading.count, reading.entries, List.drop_left]

theorem Reading.head? (reading : s.Reading front left) :
    s.host.entries[s.count]? = (left ++ s.host.rest).head? := by
  rw [← reading.drop, List.head?_drop]

/-- A session begins at the front of the directory, with an empty buffer. -/
theorem reading_opened (fd : Int) (direntBuf : Memory) (entries : List DirEntry)
    (script : List Batch) : (opened fd direntBuf entries script).Reading [] [] where
  entries := rfl
  delivered := rfl
  buffered := ⟨trivial, rfl, Nat.zero_le _⟩

theorem Reading.getdents (reading : s.Reading front left) {errno buf count : Nat} {mem : Memory}
    (meets : s.Meets (.getdents errno mem buf count)) : s.StepOk (.getdents errno mem buf count) ∧
      ∃ taken left', (s.step (.getdents errno mem buf count)).Reading (front ++ taken) left' := by
  have short : ShortFor (min count int32Max) (left ++ s.host.rest) := reading.drop ▸ meets
  obtain ⟨⟨retval, d, mem'⟩, h, taken, left', run, returned⟩ :=
    @run_naClHostDirGetdents s.host left buf (min count int32Max) errno mem s.d reading.buffered
      (Nat.min_le_right count int32Max) short
  have stepped : s.step (.getdents errno mem buf count) =
      ⟨d, h, some ((front ++ taken).map DirEntry.toNaCl), retval⟩ := by
    rw [step, run]
    dsimp only
    rw [reading.delivered, returned.read, List.map_append]
    rfl
  have next : (s.step (.getdents errno mem buf count)).Reading (front ++ taken) left' := by
    rw [stepped]
    refine ⟨?_, rfl, returned.buffered⟩
    rw [returned.entries, reading.entries, List.append_assoc, returned.split]
  refine ⟨⟨next.inOrder, ?_, fun aligned room running => ?_⟩, taken, left', next⟩
  · rw [reading.count, next.count, List.length_append]
    exact Nat.le_add_right _ _
  · rw [Advances, reading.count, next.count, List.length_append]
    cases taken with
    | cons e taken => exact Or.inl (Nat.lt_add_of_pos_right (Nat.succ_pos _))
    | nil =>
      obtain ⟨atEnd, zero⟩ := returned.advances aligned (fun _ => running) (reading.head? ▸ room) rfl
      refine Or.inr ⟨?_, rfl, ?_⟩
      · rw [reading.entries, atEnd, List.append_nil]
      · rw [stepped]
        exact zero

theorem Reading.rewind (reading : s.Reading front left) (meets : s.Meets .rewind) :
    s.StepOk .rewind ∧ (s.step .rewind).Reading [] [] := by
  have stepped : s.step .rewind =
      ⟨s.d, { s.host with rest := s.host.entries }, some [], 0⟩ := rfl
  refine ⟨rfl, ?_⟩
  rw [stepped]
  refine ⟨rfl, rfl, trivial, meets.symm, reading.buffered.bounded⟩

/-! ## All steps -/

theorem Reading.allOk {requests : List Request} (reading : s.Reading front left)
    (meets : s.AllMeet requests) : s.AllOk requests := by
  induction requests generalizing s front left with
  | nil => trivial
  | cons request requests ih =>
    cases request with
    | getdents errno mem buf count =>
      obtain ⟨ok, taken, left', next⟩ := reading.getdents meets.1
      exact ⟨ok, ih next meets.2⟩
    | rewind =>
      obtain ⟨ok, next⟩ := reading.rewind meets.1
      exact ⟨ok, ih next meets.2⟩

/-- Whatever the batches and the sizes of the user's buffers. -/
theorem allOk_opened (fd : Int) (direntBuf : Memory) (entries : List DirEntry)
    (script : List Batch) (requests : List Request)
    (meets : (opened fd direntBuf entries script).AllMeet requests) :
    (opened fd direntBuf entries script).AllOk requests :=
  (reading_opened fd direntBuf entries script).allOk meets

/-! ## A directory of two entries -/

def entryA : DirEntry :=
  ⟨11, 1, 8, [97], [0, 0, 0], by decide, by decide, by decide, by decide⟩

def entryB : DirEntry :=
  ⟨12, 2, 8, [98], [0, 0, 0], by decide, by decide, by decide, by decide⟩

theorem shortFor_ab (len n : Nat) : ShortFor len ([entryA, entryB].drop n) := by
  intro front isFront _ e member
  have short : ∀ e ∈ [entryA, entryB], e.name.length < naClAbiMaxnamlen := by decide
  exact short e (List.mem_of_mem_drop (isFront.subset member))

/-- Read in two batches to the end, and again from the start. -/
theorem allOk_opened_ab :
    (opened 3 (fun _ => 0) [entryA, entryB] [.deliver 0]).AllOk
      [.getdents 0 (fun _ => 0) 0 64, .rewind, .getdents 0 (fun _ => 0) 0 24] :=
  allOk_opened 3 (fun _ => 0) [entryA, entryB] [.deliver 0]
    [.getdents 0 (fun _ => 0) 0 64, .rewind, .getdents 0 (fun _ => 0) 0 24]
    ⟨shortFor_ab _ _, by rw [Meets]; decide +kernel, shortFor_ab _ _, trivial⟩

/-- After one entry has been read of two that are buffered, a rewind leads to the second. -/
theorem not_allOk_opened :
    ¬ ∀ (fd : Int) (direntBuf : Memory) (entries : List DirEntry) (script : List Batch)
      (requests : List Request), (opened fd direntBuf entries script).AllOk requests := by
  intro ok
  have session := ok 3 (fun _ => 0) [entryA, entryB] []
    [.getdents 0 (fun _ => 0) 0 24, .rewind, .getdents 0 (fun _ => 0) 0 24]
  exact absurd session.2.2.1.1 (by decide +kernel)

end Session

end SandboxTEE.HostDir
