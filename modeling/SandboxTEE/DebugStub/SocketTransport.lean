import SandboxTEE.DebugStub.Packet
import SandboxTEE.Lib.ByteMemory
import SandboxTEE.Lib.Run

/-! # The socket transport (`debug_stub/transport_common.cc`)

`buf_` holds bytes of a connection from `pos_` up to `size_`.  Nothing but `Read` ever sets the two
back, and it does so only when it needs more than the buffer has.
-/

namespace SandboxTEE.DebugStub.SocketTransport

open SandboxTEE.Lib

def kBufSize : Nat := 4096

/-- What `recv` comes back with: so many bytes, the end of the connection, `EINTR` or another error. -/
inductive Recv where
  | bytes (n : Nat)
  | closed
  | interrupted
  | failed

structure Transport where
  buf : Nat → Char8
  pos : Nat
  size : Nat
  /-- `handle_accept_`: a connection is what its peer sends on it, as far as it is not received yet. -/
  accepted : Option (List Char8)

def Transport.new (buf : Nat → Char8) : Transport := ⟨buf, 0, 0, none⟩

/-! ## The source's functions -/

/-- The bytes that are copied, and the transport after it. -/
def copyFromBuffer (t : Transport) (len : Nat) : List Char8 × Transport :=
  let copyBytes := min len (t.size - t.pos)
  (bytesAt t.buf t.pos copyBytes, { t with pos := t.pos + copyBytes })

/-- With the answers of `recv` that are left.  `none` is a call that does not return, or an answer
    that `recv` does not give. -/
def readSomeData (t : Transport) : List Recv → Option (Bool × Transport × List Recv)
  | [] => none
  | .interrupted :: answers => readSomeData t answers
  | .closed :: answers | .failed :: answers => some (false, t, answers)
  | .bytes n :: answers =>
    match t.accepted with
    | none => none
    | some stream =>
      if 0 < n ∧ n ≤ kBufSize - t.size ∧ n ≤ stream.length then
        some (true, { t with
          buf := store t.buf t.size (stream.take n)
          size := t.size + n
          accepted := some (stream.drop n) }, answers)
      else none

/-- The loop of `Read`.  Every round takes an answer, so there are no more rounds than answers. -/
def readLoop : Nat → Transport → Nat → List Recv → Option (Bool × List Char8 × Transport)
  | _, t, 0, _ => some (true, [], t)
  | 0, _, _ + 1, _ => none
  | rounds + 1, t, len + 1, answers =>
    match readSomeData { t with pos := 0, size := 0 } answers with
    | none => none
    | some (false, t, _) => some (false, [], t)
    | some (true, t, answers) =>
      let copied := copyFromBuffer t (len + 1)
      match readLoop rounds copied.2 (len + 1 - copied.1.length) answers with
      | none => none
      | some (ok, more, t) => some (ok, copied.1 ++ more, t)

/-- With what is copied to `ptr`.  A negative length is a count of `memcpy` if there is something in
    the buffer. -/
def read (t : Transport) (len : Int) (answers : List Recv) : Option (Bool × List Char8 × Transport) :=
  if len < 0 then if t.pos < t.size then none else some (true, [], t)
  else
    let copied := if t.pos < t.size then copyFromBuffer t len.toNat else ([], t)
    match readLoop answers.length copied.2 (len.toNat - copied.1.length) answers with
    | none => none
    | some (ok, more, t) => some (ok, copied.1 ++ more, t)

/-- `wait`: no timeout for `select`. -/
def waits (t : Transport) (ignoreInputFromGdb : Bool) (faultedThreadCount : Nat) : Bool :=
  !((decide (t.pos < t.size) && !ignoreInputFromGdb) || decide (0 < faultedThreadCount))

/-- The socket is put into the set. -/
def watchesSocket (t : Transport) : Bool := decide (t.size < kBufSize)

/-- `select`, or the read of the pipe, fails; or what of the pipe and the socket is ready. -/
inductive Select where
  | failed
  | ready (pipe socket : Bool)

/-- `none` is `LOG_FATAL`, or `FD_SET` or `FD_ISSET` of the invalid handle. -/
def waitForDebugStubEvent (t : Transport) (select : Select) (answers : List Recv) :
    Option Transport :=
  if watchesSocket t ∧ t.accepted = none then none
  else
    match select with
    | .failed => none
    | .ready pipe socket =>
      let isSet := watchesSocket t && socket
      if (pipe || isSet) = false then some t
      else if t.accepted = none then none
      else if isSet then (readSomeData t answers).map fun result => result.2.1
      else some t

def disconnect (t : Transport) : Transport := { t with accepted := none }

/-- `none` is the `CHECK`; `connection` is what `accept` gives. -/
def acceptConnection (t : Transport) (connection : Option (List Char8)) : Option (Bool × Transport) :=
  if t.accepted = none then
    match connection with
    | none => some (false, t)
    | some stream => some (true, { t with accepted := some stream })
  else none

/-! ## Histories -/

inductive Event where
  | read (len : Int) (answers : List Recv)
  | wait (ignoreInputFromGdb : Bool) (faultedThreadCount : Nat) (select : Select)
      (answers : List Recv)
  | disconnect
  | accept (connection : Option (List Char8))

/-- The transport, what the peer of the current connection sends in all, and what `Read` has copied
    out since it was accepted. -/
structure World where
  transport : Transport
  sent : List Char8
  returned : List Char8

def World.start (buf : Nat → Char8) : World := ⟨.new buf, [], []⟩

def step (w : World) : Event → Option World
  | .read len answers =>
    (read w.transport len answers).map fun (_, copied, t) =>
      { w with transport := t, returned := w.returned ++ copied }
  | .wait _ _ select answers =>
    (waitForDebugStubEvent w.transport select answers).map fun t => { w with transport := t }
  | .disconnect => some ⟨disconnect w.transport, [], []⟩
  | .accept connection =>
    (acceptConnection w.transport connection).map fun (_, t) =>
      match connection with
      | none => { w with transport := t }
      | some stream => ⟨t, stream, []⟩

/-! ## What is to hold -/

def Transport.buffered (t : Transport) : List Char8 := bytesAt t.buf t.pos (t.size - t.pos)

/-- What the reader can still get. -/
def Transport.pending (t : Transport) : List Char8 := t.buffered ++ t.accepted.getD []

/-- What `Read` has copied out, and what it still can copy out, are together the bytes of the
    connection. -/
def World.Faithful (w : World) : Prop := w.returned ++ w.transport.pending = w.sent

/-- A wait with no timeout, in which input is not to be ignored, has the socket watched. -/
def Attentive (w : World) : Event → Prop
  | .wait ignoreInputFromGdb faultedThreadCount _ _ =>
    ignoreInputFromGdb = false → waits w.transport ignoreInputFromGdb faultedThreadCount = true →
      watchesSocket w.transport = true
  | _ => True

/-- Nothing is left in the buffer when the connection goes; and at a wait that has only the socket to
    wait for, the buffer is not read up to its very end. -/
def Proper (w : World) : Event → Prop
  | .disconnect => w.transport.pos = w.transport.size
  | .wait ignoreInputFromGdb faultedThreadCount _ _ =>
    ignoreInputFromGdb = false → faultedThreadCount = 0 → w.transport.pos ≠ kBufSize
  | _ => True

instance (w : World) (e : Event) : Decidable (Proper w e) :=
  match e with
  | .disconnect => inferInstanceAs (Decidable (_ = _))
  | .wait _ _ _ _ => inferInstanceAs (Decidable (_ → _ → _))
  | .read _ _ | .accept _ => inferInstanceAs (Decidable True)

structure Transport.Fits (t : Transport) : Prop where
  read : t.pos ≤ t.size
  inside : t.size ≤ kBufSize

variable {t t' : Transport}

/-! ## The buffer -/

@[simp] theorem length_buffered : t.buffered.length = t.size - t.pos := length_bytesAt

theorem buffered_eq_nil (empty : t.pos = t.size) : t.buffered = [] := by
  rw [← List.length_eq_zero_iff, length_buffered, empty, Nat.sub_self]

theorem length_copied (len : Nat) :
    (copyFromBuffer t len).1.length = min len (t.size - t.pos) := length_bytesAt

theorem copyFromBuffer_pending (len : Nat) :
    (copyFromBuffer t len).1 ++ (copyFromBuffer t len).2.pending = t.pending := by
  have part : min len (t.size - t.pos) ≤ t.size - t.pos := Nat.min_le_right _ _
  have whole : t.buffered = bytesAt t.buf t.pos (min len (t.size - t.pos)) ++
      bytesAt t.buf (t.pos + min len (t.size - t.pos))
        (t.size - t.pos - min len (t.size - t.pos)) := by
    rw [← bytesAt_add, Nat.add_sub_cancel' part]
    rfl
  rw [Transport.pending, Transport.pending, whole, copyFromBuffer, ← List.append_assoc]
  simp only [Transport.buffered, Nat.sub_add_eq]

theorem copyFromBuffer_fits (fits : t.Fits) (len : Nat) : (copyFromBuffer t len).2.Fits where
  read := by
    have := fits.read
    simp only [copyFromBuffer]
    omega
  inside := fits.inside

variable {len : Nat}

/-- Either all of it is copied that was asked for, or the buffer is empty then. -/
theorem copyFromBuffer_empties (fits : t.Fits) (more : 0 < len - (copyFromBuffer t len).1.length) :
    (copyFromBuffer t len).2.pos = (copyFromBuffer t len).2.size := by
  have := fits.read
  rw [length_copied] at more
  simp only [copyFromBuffer]
  omega

variable {answers : List Recv}

/-- What is received goes behind what is in the buffer, and is the next part of the stream. -/
theorem readSomeData_spec {rest : List Recv} {got : Bool} (fits : t.Fits)
    (run : readSomeData t answers = some (got, t', rest)) :
    t'.Fits ∧ t'.pending = t.pending ∧ (t'.accepted = none ↔ t.accepted = none) := by
  induction answers with
  | nil => cases run
  | cons answer answers ih =>
    cases answer with
    | interrupted => exact ih run
    | closed | failed =>
      cases run
      exact ⟨fits, rfl, Iff.rfl⟩
    | bytes n =>
      rw [readSomeData] at run
      cases open_ : t.accepted with
      | none =>
        rw [open_] at run
        cases run
      | some stream =>
        simp only [open_] at run
        split at run
        · next given =>
          cases run
          have read := fits.read
          refine ⟨⟨Nat.le_add_right_of_le read, by have := fits.inside; simp only; omega⟩, ?_, by simp⟩
          have length : (stream.take n).length = n := List.length_take_of_le given.2.2
          have split : t.size + n - t.pos = t.size - t.pos + n := by omega
          have here : t.pos + (t.size - t.pos) = t.size := by omega
          -- the bytes before are untouched
          have stored := @bytesAt_store _ t.buf t.size (stream.take n)
          rw [length] at stored
          simp only [Transport.pending, Transport.buffered, open_, Option.getD_some, split,
            bytesAt_add, here, stored]
          rw [bytesAt_store_of_apart (.inl (Nat.le_of_eq here)), List.append_assoc,
            List.take_append_drop]
        · cases run

variable {copied : List Char8} {ok : Bool}

theorem readLoop_spec {rounds : Nat} (fits : t.Fits) (empty : 0 < len → t.pos = t.size)
    (run : readLoop rounds t len answers = some (ok, copied, t')) :
    t'.Fits ∧ copied ++ t'.pending = t.pending ∧ (t'.accepted = none ↔ t.accepted = none) := by
  induction rounds generalizing t len answers copied with
  | zero =>
    cases len with
    | zero =>
      cases run
      exact ⟨fits, rfl, Iff.rfl⟩
    | succ len => cases run
  | succ rounds ih =>
    cases len with
    | zero =>
      cases run
      exact ⟨fits, rfl, Iff.rfl⟩
    | succ len =>
      -- nothing is lost when the buffer starts anew
      have reset : Transport.pending { t with pos := 0, size := 0 } = t.pending := by
        rw [Transport.pending, Transport.pending, buffered_eq_nil (empty (Nat.succ_pos len)),
          buffered_eq_nil rfl]
      have anew : Transport.Fits { t with pos := 0, size := 0 } :=
        ⟨Nat.le_refl 0, Nat.zero_le kBufSize⟩
      rw [readLoop] at run
      cases received : readSomeData { t with pos := 0, size := 0 } answers with
      | none =>
        rw [received] at run
        cases run
      | some result =>
        obtain ⟨got, u, rest⟩ := result
        obtain ⟨fits', pending, connected⟩ := readSomeData_spec anew received
        rw [received] at run
        cases got with
        | false =>
          cases run
          exact ⟨fits', pending.trans reset, connected⟩
        | true =>
          simp only at run
          cases later : readLoop rounds (copyFromBuffer u (len + 1)).2
              (len + 1 - (copyFromBuffer u (len + 1)).1.length) rest with
          | none =>
            rw [later] at run
            cases run
          | some result =>
            obtain ⟨ok', more, v⟩ := result
            rw [later] at run
            cases run
            obtain ⟨fits'', pending', connected'⟩ :=
              ih (copyFromBuffer_fits fits' (len + 1)) (copyFromBuffer_empties fits') later
            refine ⟨fits'', ?_, connected'.trans connected⟩
            rw [List.append_assoc, pending', copyFromBuffer_pending, pending, reset]

theorem read_spec {len : Int} (fits : t.Fits) (run : read t len answers = some (ok, copied, t')) :
    t'.Fits ∧ copied ++ t'.pending = t.pending ∧ (t'.accepted = none ↔ t.accepted = none) := by
  rw [read] at run
  split at run
  · split at run
    · cases run
    · cases run
      exact ⟨fits, rfl, Iff.rfl⟩
  · -- first what is in the buffer
    have first : ∃ front u, (if t.pos < t.size then copyFromBuffer t len.toNat else ([], t)) =
        (front, u) ∧ u.Fits ∧ front ++ u.pending = t.pending ∧ u.accepted = t.accepted ∧
          (0 < len.toNat - front.length → u.pos = u.size) := by
      by_cases some_ : t.pos < t.size
      · rw [if_pos some_]
        exact ⟨_, _, rfl, copyFromBuffer_fits fits _, copyFromBuffer_pending _, rfl,
          copyFromBuffer_empties fits⟩
      · have := fits.read
        rw [if_neg some_]
        exact ⟨_, _, rfl, fits, rfl, rfl, fun _ => by omega⟩
    obtain ⟨front, u, copied, fits', pending, connected, empty⟩ := first
    simp only [copied] at run
    cases later : readLoop answers.length u (len.toNat - front.length) answers with
    | none =>
      rw [later] at run
      cases run
    | some result =>
      obtain ⟨ok', more, v⟩ := result
      rw [later] at run
      cases run
      obtain ⟨fits'', pending', connected'⟩ := readLoop_spec fits' empty later
      rw [connected] at connected'
      refine ⟨fits'', ?_, connected'⟩
      rw [List.append_assoc, pending', pending]

theorem waitForDebugStubEvent_spec {select : Select} (fits : t.Fits)
    (run : waitForDebugStubEvent t select answers = some t') :
    t'.Fits ∧ t'.pending = t.pending ∧ (t'.accepted = none ↔ t.accepted = none) := by
  unfold waitForDebugStubEvent at run
  split at run
  · cases run
  · cases select with
    | failed => cases run
    | ready pipe socket =>
      simp only at run
      split at run
      · cases run
        exact ⟨fits, rfl, Iff.rfl⟩
      · split at run
        · cases run
        · split at run
          · obtain ⟨⟨got, u, rest⟩, received, same⟩ := Option.map_eq_some_iff.mp run
            cases same
            exact readSomeData_spec fits received
          · cases run
            exact ⟨fits, rfl, Iff.rfl⟩

/-! ## Histories -/

structure World.Inv (w : World) : Prop where
  fits : w.transport.Fits
  faithful : w.Faithful
  closed : w.transport.accepted = none → w.sent = []

theorem World.Inv.start (buf : Nat → Char8) : (World.start buf).Inv where
  fits := ⟨Nat.le_refl 0, Nat.zero_le kBufSize⟩
  faithful := rfl
  closed _ := rfl

variable {w : World}

/-- Without a connection there is nothing to be got. -/
theorem World.Inv.idle (inv : w.Inv) (idle : w.transport.accepted = none) :
    w.transport.buffered = [] := by
  have faithful := inv.faithful
  rw [World.Faithful, inv.closed idle, Transport.pending] at faithful
  exact (List.append_eq_nil_iff.mp (List.append_eq_nil_iff.mp faithful).2).1

variable {e : Event}

theorem World.Inv.step {w' : World} (inv : w.Inv) (proper : Proper w e)
    (stepped : step w e = some w') : w'.Inv := by
  cases e with
  | read len answers =>
    obtain ⟨⟨ok, copied, t'⟩, run, same⟩ := Option.map_eq_some_iff.mp stepped
    cases same
    obtain ⟨fits, pending, connected⟩ := read_spec inv.fits run
    refine ⟨fits, ?_, fun idle => inv.closed (connected.mp idle)⟩
    rw [World.Faithful, List.append_assoc, pending]
    exact inv.faithful
  | wait ignoreInputFromGdb faultedThreadCount select answers =>
    obtain ⟨t', run, same⟩ := Option.map_eq_some_iff.mp stepped
    cases same
    obtain ⟨fits, pending, connected⟩ := waitForDebugStubEvent_spec inv.fits run
    refine ⟨fits, ?_, fun idle => inv.closed (connected.mp idle)⟩
    rw [World.Faithful, pending]
    exact inv.faithful
  | disconnect =>
    cases stepped
    refine ⟨⟨inv.fits.read, inv.fits.inside⟩, ?_, fun _ => rfl⟩
    have nothing : (disconnect w.transport).buffered = [] := buffered_eq_nil proper
    rw [World.Faithful, Transport.pending, nothing]
    rfl
  | accept connection =>
    obtain ⟨⟨ok, t'⟩, run, same⟩ := Option.map_eq_some_iff.mp stepped
    unfold acceptConnection at run
    split at run
    · next idle =>
      cases connection with
      | none =>
        cases run
        cases same
        exact inv
      | some stream =>
        cases run
        cases same
        refine ⟨⟨inv.fits.read, inv.fits.inside⟩, ?_, by simp⟩
        have nothing : Transport.buffered { w.transport with accepted := some stream } = [] :=
          inv.idle idle
        rw [World.Faithful, Transport.pending, nothing]
        rfl
    · cases run

/-- A wait that has only the socket to wait for waits for it. -/
theorem World.Inv.attentive (inv : w.Inv) (proper : Proper w e) : Attentive w e := by
  cases e with
  | wait ignoreInputFromGdb faultedThreadCount select answers =>
    intro heeded waiting
    have atEnd := proper heeded
    have read := inv.fits.read
    have inside := inv.fits.inside
    simp only [waits, heeded, Bool.not_false, Bool.and_true, Bool.not_eq_true', Bool.or_eq_false_iff,
      decide_eq_false_iff_not] at waiting
    rw [watchesSocket, decide_eq_true_eq]
    have := atEnd (by omega)
    omega
  | read | disconnect | accept => trivial

/-- In a history whose steps are all proper, the bytes copied out are those of the current connection
    up to some point, and no wait misses the socket. -/
theorem history_faithful (buf : Nat → Char8) (events : List Event)
    (proper : ∀ pre e, pre ++ [e] <+: events → ∀ w, pre.foldlM step (World.start buf) = some w →
      Proper w e) :
    ∀ pre, pre <+: events → ∀ w, pre.foldlM step (World.start buf) = some w →
      w.Faithful ∧ w.returned <+: w.sent ∧ ∀ e, pre ++ [e] <+: events → Attentive w e := by
  intro pre within w run
  have inv := @foldlM_invariant _ _ step World.Inv Proper
    (fun s e s' inv proper stepped => inv.step proper stepped) pre _ w (World.Inv.start buf)
    (fun front e part => proper front e (part.trans within)) run
  refine ⟨inv.faithful, ⟨_, inv.faithful⟩, fun e part => ?_⟩
  exact inv.attentive (proper pre e part w run)

/-- Two bytes are there when the first one is read; the other one is left when the connection goes. -/
def leftOver : List Event :=
  [.accept (some [1, 2]), .read 1 [.bytes 2], .disconnect, .accept (some [7]), .read 1 []]

/-- The buffer is filled to its end while waiting, and then read to its end. -/
def readToTheEnd : List Event :=
  [.accept (some (List.replicate kBufSize 0)), .wait false 0 (.ready false true) [.bytes kBufSize],
    .read kBufSize []]

theorem run_leftOver (buf : Nat → Char8) :
    ∃ w, leftOver.foldlM step (World.start buf) = some w ∧ w.returned = [2] ∧ w.sent = [7] :=
  ⟨_, rfl, rfl, rfl⟩

theorem run_readToTheEnd (buf : Nat → Char8) :
    ∃ w, readToTheEnd.foldlM step (World.start buf) = some w ∧
      w.transport.pos = kBufSize ∧ w.transport.size = kBufSize := by
  have positive : 0 < kBufSize := Nat.succ_pos _
  let zeros : List Char8 := List.replicate kBufSize 0
  let full := store buf 0 zeros
  have waited : step ⟨⟨buf, 0, 0, some zeros⟩, zeros, []⟩
      (.wait false 0 (.ready false true) [.bytes kBufSize]) =
        some ⟨⟨full, 0, kBufSize, some []⟩, zeros, []⟩ := by
    simp [step, waitForDebugStubEvent, watchesSocket, readSomeData, positive, zeros, full]
  have emptied : step ⟨⟨full, 0, kBufSize, some []⟩, zeros, []⟩ (.read kBufSize []) =
      some ⟨⟨full, kBufSize, kBufSize, some []⟩, zeros, bytesAt full 0 kBufSize⟩ := by
    have notNegative : ¬(kBufSize : Int) < 0 := Int.not_lt.mpr (Int.natCast_nonneg kBufSize)
    simp [step, read, copyFromBuffer, readLoop, positive, notNegative]
  refine ⟨⟨⟨full, kBufSize, kBufSize, some []⟩, zeros, bytesAt full 0 kBufSize⟩, ?_, rfl, rfl⟩
  have accepted : step (World.start buf) (.accept (some zeros)) =
      some ⟨⟨buf, 0, 0, some zeros⟩, zeros, []⟩ := rfl
  rw [readToTheEnd, List.foldlM_cons, accepted]
  simp only [Option.bind_eq_bind, Option.bind_some, List.foldlM_cons, waited, emptied]
  rfl

/-- Neither part of it holds of every history. -/
theorem history_not_faithful :
    (¬∀ (buf : Nat → Char8) (events : List Event) (w : World),
      events.foldlM step (World.start buf) = some w → w.returned <+: w.sent) ∧
    ¬∀ (buf : Nat → Char8) (events : List Event) (w : World) (e : Event),
      events.foldlM step (World.start buf) = some w → Attentive w e := by
  constructor
  · intro claim
    obtain ⟨w, run, returned, sent⟩ := run_leftOver fun _ => 0
    have part := claim _ _ w run
    rw [returned, sent] at part
    exact absurd part (by decide)
  · intro claim
    obtain ⟨w, run, pos, size⟩ := run_readToTheEnd fun _ => 0
    have watched := claim _ _ w (.wait false 0 (.ready true false) []) run rfl
      (by simp [waits, pos, size])
    simp [watchesSocket, size] at watched

/-- Two connections, the first of which is read to its end. -/
def twoConnections : List Event :=
  [.accept (some [1, 2, 3]), .wait false 0 (.ready false true) [.interrupted, .bytes 2],
    .read 3 [.bytes 1], .disconnect, .accept (some [7]), .read 1 [.bytes 1]]

theorem history_faithful_twoConnections :
    ∃ w, twoConnections.foldlM step (World.start fun _ => 0) = some w ∧ w.returned = [7] ∧
      w.returned <+: w.sent :=
  ⟨_, rfl, rfl, (history_faithful (fun _ => 0) twoConnections (cond_of_meets (by decide))
    twoConnections (List.prefix_refl _) _ rfl).2.1⟩

end SandboxTEE.DebugStub.SocketTransport
