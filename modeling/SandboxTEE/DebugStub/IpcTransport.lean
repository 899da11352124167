import SandboxTEE.DebugStub.Packet
import SandboxTEE.Lib.Run

/-! # The pipe transport (`debug_stub/transport_ipc.cc`)

Another process hands on what a debugger sends, with four bytes of length in front of each message,
and -1 as a length when the debugger goes.  `bytes_to_read_` is what is left of the current message,
and -1 as well while there is no connection.
-/

namespace SandboxTEE.DebugStub.IpcTransport

open SandboxTEE.Lib

def kBufSize : Nat := 4096

def kServerSocketDisconnect : BitVec 32 := -1

/-- What `read` of the pipe comes back with. -/
inductive Answer where
  | bytes (n : Nat)
  | closed
  | interrupted
  | failed
deriving DecidableEq

structure Transport where
  /-- The first `unconsumed_bytes_` bytes of `buf_`. -/
  buf : List Char8
  bytesToRead : BitVec 32
  /-- What is in the pipe or will be. -/
  pipe : List Char8
  /-- How many bytes were asked for with each read into `buf_`, the last one first. -/
  requests : List Nat

def Transport.new (pipe : List Char8) : Transport := ⟨[], kServerSocketDisconnect, pipe, []⟩

/-- A call that is not made in this state or does not return, and a `CHECK` that fails. -/
inductive Stop where
  | blocked
  | check

/-! ## The source's functions -/

def isConnected (t : Transport) : Bool := t.bytesToRead ≠ kServerSocketDisconnect

/-- `ReadNBytes`, with what is left in the pipe and of the answers.  `none` is a call that does not
    return. -/
def readNBytes (pipe : List Char8) (len : Nat) :
    List Answer → Option (Option (List Char8) × List Char8 × List Answer)
  | [] => if len = 0 then some (some [], pipe, []) else none
  | answer :: answers =>
    if len = 0 then some (some [], pipe, answer :: answers)
    else
      match answer with
      | .interrupted => readNBytes pipe len answers
      | .closed => if pipe = [] then some (none, pipe, answers) else none
      | .failed => some (none, pipe, answers)
      | .bytes n =>
        if 0 < n ∧ n ≤ len ∧ n ≤ pipe.length then
          match readNBytes (pipe.drop n) (len - n) answers with
          | none => none
          | some (more, rest) => some (more.map (pipe.take n ++ ·), rest)
        else none

/-- `std::min(bytes_to_read_, kBufSize)` as a `size_t`. -/
def requested (bytesToRead : BitVec 32) : Nat :=
  (BitVec.ofInt 64 (min bytesToRead.toInt kBufSize)).toNat

/-- The read into the empty buffer in `FillBufferIfEmpty`.  A read of no bytes comes back at once. -/
def readPayload (t : Transport) (answers : List Answer) :
    Option (Bool × Transport × List Answer) :=
  let count := requested t.bytesToRead
  let t := { t with requests := count :: t.requests }
  let gone := { t with bytesToRead := kServerSocketDisconnect }
  if count = 0 then some (false, gone, answers)
  else
    match answers with
    | [] => none
    | .interrupted :: answers => some (true, t, answers)
    | .closed :: answers => if t.pipe = [] then some (false, gone, answers) else none
    | .failed :: answers => some (false, gone, answers)
    | .bytes n :: answers =>
      if 0 < n ∧ n ≤ count ∧ n ≤ t.pipe.length then
        some (true, { t with
          buf := t.pipe.take n
          bytesToRead := t.bytesToRead - BitVec.ofNat 32 n
          pipe := t.pipe.drop n }, answers)
      else none

def fillBufferIfEmpty (t : Transport) (answers : List Answer) :
    Option (Bool × Transport × List Answer) :=
  if t.buf ≠ [] then some (true, t, answers)
  else if t.bytesToRead = 0 then
    match readNBytes t.pipe 4 answers with
    | none => none
    | some (none, pipe, answers) =>
      some (false, { t with bytesToRead := kServerSocketDisconnect, pipe }, answers)
    | some (some header, pipe, answers) =>
      let t := { t with bytesToRead := BitVec.ofNat 32 (leValue header), pipe }
      if t.bytesToRead = kServerSocketDisconnect then some (false, t, answers)
      else readPayload t answers
  else readPayload t answers

/-- The loop of `Read`.  A round that takes no answer empties the buffer, so there is at most one
    round more than answers. -/
def readLoop : Nat → Transport → Nat → List Answer → Option (Bool × List Char8 × Transport)
  | _, t, 0, _ => some (true, [], t)
  | 0, _, _ + 1, _ => none
  | rounds + 1, t, len + 1, answers =>
    match fillBufferIfEmpty t answers with
    | none => none
    | some (false, t, _) => some (false, [], t)
    | some (true, t, answers) =>
      let copied := t.buf.take (len + 1)
      match readLoop rounds { t with buf := t.buf.drop (len + 1) } (len + 1 - copied.length)
          answers with
      | none => none
      | some (ok, more, t) => some (ok, copied ++ more, t)

/-- `Read`, with what is copied to `ptr`. -/
def read (t : Transport) (len : Nat) (answers : List Answer) :
    Except Stop (Bool × List Char8 × Transport) :=
  if isConnected t = false then .error .check
  else
    match readLoop (answers.length + 1) t len answers with
    | none => .error .blocked
    | some result => .ok result

/-- `Write`: the other direction of the pipe takes it. -/
def write (t : Transport) : Except Stop Transport :=
  if isConnected t then .ok t else .error .check

/-- `select` finds the pipe readable or not. -/
def isDataAvailable (t : Transport) (readable : Bool) : Except Stop Bool :=
  if isConnected t then .ok (decide (t.buf ≠ []) || readable) else .error .check

/-- `select` comes back, with the pipe readable or not. -/
def waitForDebugStubEvent (t : Transport) (readable : Bool) (answers : List Answer) :
    Except Stop Transport :=
  let isSet := decide (t.buf.length < kBufSize) && readable
  if isSet = false then .ok t
  else
    match fillBufferIfEmpty t answers with
    | none => .error .blocked
    | some (_, t, _) => .ok t

/-- The loop of `Disconnect`: every round takes an answer or is the last. -/
def disconnectLoop : Nat → Transport → List Answer → Option Transport
  | 0, _, _ => none
  | rounds + 1, t, answers =>
    match fillBufferIfEmpty { t with buf := [] } answers with
    | none => none
    | some (false, t, _) => some t
    | some (true, t, answers) => disconnectLoop rounds t answers

def disconnect (t : Transport) (answers : List Answer) : Except Stop Transport :=
  let drained := if isConnected t then disconnectLoop (answers.length + 1) t answers else some t
  match drained with
  | none => .error .blocked
  | some t => .ok { t with buf := [] }

/-- It comes back when `select` does. -/
def acceptConnection (t : Transport) : Except Stop Transport :=
  if isConnected t then .error .check else .ok { t with bytesToRead := 0 }

/-! ## Histories -/

/-- The calls of the stub's thread and of `Target::Run`, by way of `Session`. -/
inductive Event where
  | accept
  | wait (readable : Bool) (answers : List Answer)
  | isDataAvailable (readable : Bool)
  | send
  | getChar (answers : List Answer)
  | disconnect (answers : List Answer)

/-- `connected_` of the session; how many connections are gone; what was returned since the last one
    was accepted; and whether a `CHECK` has failed, which is the end. -/
structure World where
  transport : Transport
  connected : Bool
  number : Nat
  returned : List Char8
  checkFailed : Bool

def World.start (pipe : List Char8) : World := ⟨.new pipe, false, 0, [], false⟩

def World.after {α : Type} (w : World) (f : α → World) : Except Stop α → Option World
  | .ok a => some (f a)
  | .error .check => some { w with checkFailed := true }
  | .error .blocked => none

/-- `Session::Disconnect`. -/
def World.leave (w : World) (answers : List Answer) : Option World :=
  w.after (fun t => { w with
      transport := t
      connected := false
      number := w.number + 1
      returned := [] })
    (IpcTransport.disconnect w.transport answers)

/-- `Run` makes no call without a session, and only the thread's loop accepts a connection. -/
def stepRunning (w : World) : Event → Bool → Option World
  | .accept, false =>
    w.after (fun t => { w with transport := t, connected := true, returned := [] })
      (acceptConnection w.transport)
  | .wait readable answers, true =>
    w.after (fun t => { w with transport := t }) (waitForDebugStubEvent w.transport readable answers)
  | .isDataAvailable readable, true =>
    w.after (fun _ => w) (IpcTransport.isDataAvailable w.transport readable)
  | .send, true => w.after (fun t => { w with transport := t }) (write w.transport)
  | .getChar answers, true =>
    match IpcTransport.read w.transport 1 answers with
    | .ok (false, copied, t) =>
      World.leave { w with transport := t, returned := w.returned ++ copied } []
    | .ok (true, copied, t) => some { w with transport := t, returned := w.returned ++ copied }
    | .error stop => w.after (fun w => w) (.error stop)
  | .disconnect answers, true => w.leave answers
  -- a `D` packet whose reply finds the debugger gone
  | .disconnect answers, false =>
    w.after (fun t => { w with transport := t }) (IpcTransport.disconnect w.transport answers)
  | .accept, true | .wait _ _, false | .isDataAvailable _, false | .send, false
  | .getChar _, false => none

def step (w : World) (e : Event) : Option World :=
  if w.checkFailed then none else stepRunning w e w.connected

/-! ## What is to hold -/

/-- The payload up to the next disconnect marker, and the stream behind the marker; `left` bytes of the
    current message are still to come. -/
def unframe : Nat → List Char8 → List Char8 × Option (List Char8)
  | _ + 1, [] => ([], none)
  | left + 1, c :: stream =>
    let (payload, behind) := unframe left stream
    (c :: payload, behind)
  | 0, b0 :: b1 :: b2 :: b3 :: stream =>
    let len := BitVec.ofNat 32 (leValue [b0, b1, b2, b3])
    if len = kServerSocketDisconnect then ([], some stream) else unframe len.toInt.toNat stream
  | 0, _ => ([], none)

/-- Where the connections begin. -/
def connectionAt (stream : List Char8) : Nat → List Char8
  | 0 => stream
  | n + 1 => ((unframe 0 (connectionAt stream n)).2).getD []

def payloadAt (stream : List Char8) (number : Nat) : List Char8 :=
  (unframe 0 (connectionAt stream number)).1

/-- What of the connection is in the buffer or still to come. -/
def Transport.pending (t : Transport) : List Char8 :=
  t.buf ++ (unframe t.bytesToRead.toInt.toNat t.pipe).1

/-- What is returned, and what is still to come, are together the payload of the connection; no read
    was asked for more than the buffer holds; and no check has failed. -/
structure World.Sound (stream : List Char8) (w : World) : Prop where
  faithful : w.connected = true → w.returned ++ w.transport.pending = payloadAt stream w.number
  fits : ∀ count ∈ w.transport.requests, count ≤ kBufSize
  checks : w.checkFailed = false

/-- The length of a message with something in it, or the marker. -/
def goodLength (len : BitVec 32) : Bool :=
  len = kServerSocketDisconnect || decide (0 < len.toInt)

/-- The length in front of the stream. -/
def nextLength : List Char8 → Option (BitVec 32)
  | b0 :: b1 :: b2 :: b3 :: _ => some (BitVec.ofNat 32 (leValue [b0, b1, b2, b3]))
  | _ => none

/-- The next length, when it is what comes next. -/
def LengthGood (t : Transport) : Prop :=
  t.buf = [] → t.bytesToRead = 0 → (nextLength t.pipe).all goodLength = true

/-- All lengths up to the marker. -/
def LengthsGood : Nat → List Char8 → Bool
  | _ + 1, [] => true
  | left + 1, _ :: stream => LengthsGood left stream
  | 0, b0 :: b1 :: b2 :: b3 :: stream =>
    let len := BitVec.ofNat 32 (leValue [b0, b1, b2, b3])
    len = kServerSocketDisconnect || (decide (0 < len.toInt) && LengthsGood len.toInt.toNat stream)
  | 0, _ => true

/-- The reads of the pipe do not fail, and the lengths that are come to are good; and a wait that finds
    the pipe readable is not at the end of the connection. -/
def Proper (w : World) : Event → Prop
  | .wait readable answers => .failed ∉ answers ∧
    (readable = true → LengthGood w.transport ∧ w.transport.pending ≠ [])
  | .getChar answers => .failed ∉ answers ∧ LengthGood w.transport
  | .disconnect answers => .failed ∉ answers ∧
    LengthsGood w.transport.bytesToRead.toInt.toNat w.transport.pipe = true
  | _ => True

instance (t : Transport) : Decidable (LengthGood t) :=
  inferInstanceAs (Decidable (_ → _ → _ = true))

instance (w : World) (e : Event) : Decidable (Proper w e) :=
  match e with
  | .wait _ _ => inferInstanceAs (Decidable (_ ∧ (_ → _ ∧ _ ≠ _)))
  | .getChar _ => inferInstanceAs (Decidable (_ ∧ LengthGood _))
  | .disconnect _ => inferInstanceAs (Decidable (_ ∧ _ = _))
  | .accept | .isDataAvailable _ | .send => inferInstanceAs (Decidable True)

/-! ## The stream -/

variable {n left : Nat} {pipe : List Char8}

/-- Bytes of a message are bytes of the payload. -/
theorem unframe_chunk (inMessage : n ≤ left) (there : n ≤ pipe.length) : unframe left pipe =
      (pipe.take n ++ (unframe (left - n) (pipe.drop n)).1, (unframe (left - n) (pipe.drop n)).2) := by
  induction n generalizing left pipe with
  | zero => rfl
  | succ n ih =>
    cases left with
    | zero => cases inMessage
    | succ left =>
      cases pipe with
      | nil => cases there
      | cons c pipe =>
        rw [unframe, ih (Nat.le_of_succ_le_succ inMessage) (Nat.le_of_succ_le_succ there),
          Nat.succ_sub_succ]
        rfl

theorem lengthsGood_chunk (inMessage : n ≤ left) (there : n ≤ pipe.length) :
    LengthsGood left pipe = LengthsGood (left - n) (pipe.drop n) := by
  induction n generalizing left pipe with
  | zero => rfl
  | succ n ih =>
    cases left with
    | zero => cases inMessage
    | succ left =>
      cases pipe with
      | nil => cases there
      | cons c pipe =>
        rw [Nat.succ_sub_succ]
        exact ih (Nat.le_of_succ_le_succ inMessage) (Nat.le_of_succ_le_succ there)

theorem unframe_nil (left : Nat) : unframe left [] = ([], none) := by
  cases left with
  | zero => rfl
  | succ left => rfl

theorem unframe_short (short : pipe.length < 4) : unframe 0 pipe = ([], none) := by
  match pipe with
  | [] => rfl
  | [_] => rfl
  | [_, _] => rfl
  | [_, _, _] => rfl
  | _ :: _ :: _ :: _ :: _ => simp at short; omega

variable {header : List Char8}

theorem unframe_header {stream : List Char8} (four : header.length = 4) :
    unframe 0 (header ++ stream) =
      if BitVec.ofNat 32 (leValue header) = kServerSocketDisconnect then ([], some stream)
      else unframe (BitVec.ofNat 32 (leValue header)).toInt.toNat stream := by
  match header, four with
  | [b0, b1, b2, b3], _ => rfl

theorem nextLength_header {stream : List Char8} (four : header.length = 4) :
    nextLength (header ++ stream) = some (BitVec.ofNat 32 (leValue header)) := by
  match header, four with
  | [b0, b1, b2, b3], _ => rfl

theorem lengthsGood_header {stream : List Char8} (four : header.length = 4) :
    LengthsGood 0 (header ++ stream) =
      (decide (BitVec.ofNat 32 (leValue header) = kServerSocketDisconnect) ||
        (decide (0 < (BitVec.ofNat 32 (leValue header)).toInt) &&
          LengthsGood (BitVec.ofNat 32 (leValue header)).toInt.toNat stream)) := by
  match header, four with
  | [b0, b1, b2, b3], _ => rfl

theorem goodLength_of_lengthsGood (good : LengthsGood 0 pipe = true) :
    (nextLength pipe).all goodLength = true := by
  match pipe with
  | [] => rfl
  | [_] => rfl
  | [_, _] => rfl
  | [_, _, _] => rfl
  | b0 :: b1 :: b2 :: b3 :: pipe =>
    simp only [LengthsGood, Bool.or_eq_true, decide_eq_true_eq, Bool.and_eq_true] at good
    simp only [nextLength, Option.all_some, goodLength, Bool.or_eq_true, decide_eq_true_eq]
    cases good with
    | inl marker => exact .inl marker
    | inr more => exact .inr more.1

/-! ## One call -/

/-- All bytes asked for have come, or the pipe ended before. -/
theorem readNBytes_spec {pipe' : List Char8} {len : Nat} {answers rest : List Answer}
    {result : Option (List Char8)} (sound : Answer.failed ∉ answers)
    (run : readNBytes pipe len answers = some (result, pipe', rest)) : Answer.failed ∉ rest ∧
      (∀ bytes, result = some bytes → pipe = bytes ++ pipe' ∧ bytes.length = len) ∧
      (result = none → pipe' = [] ∧ pipe.length < len) := by
  induction answers generalizing pipe pipe' len result rest with
  | nil =>
    rw [readNBytes] at run
    split at run
    · next none_ =>
      cases run
      exact ⟨sound, fun bytes same => (by cases same; exact ⟨rfl, none_.symm⟩), fun same => (by cases same)⟩
    · cases run
  | cons answer answers ih =>
    have later : Answer.failed ∉ answers := fun member => sound (List.mem_cons_of_mem _ member)
    unfold readNBytes at run
    split at run
    · next none_ =>
      cases run
      exact ⟨sound, fun bytes same => (by cases same; exact ⟨rfl, none_.symm⟩), fun same => (by cases same)⟩
    · next some_ =>
      cases answer with
      | interrupted => exact ih later run
      | failed => exact absurd List.mem_cons_self sound
      | closed =>
        simp only at run
        split at run
        · next ended =>
          cases run
          refine ⟨later, fun bytes same => (by cases same), fun _ => ⟨ended, ?_⟩⟩
          rw [ended]
          exact Nat.pos_of_ne_zero some_
        · cases run
      | bytes n =>
        simp only at run
        split at run
        · next given =>
          cases more : readNBytes (pipe.drop n) (len - n) answers with
          | none =>
            rw [more] at run
            cases run
          | some next =>
            obtain ⟨result', pipe'', rest'⟩ := next
            obtain ⟨sound', whole, cut⟩ := ih later more
            rw [more] at run
            cases run
            refine ⟨sound', fun bytes same => ?_, fun same => ?_⟩
            · obtain ⟨bytes', inner, rfl⟩ := Option.map_eq_some_iff.mp same
              obtain ⟨split, length⟩ := whole bytes' inner
              refine ⟨?_, by rw [List.length_append, List.length_take, length]; omega⟩
              rw [List.append_assoc, ← split, List.take_append_drop]
            · obtain ⟨empty, short⟩ := cut (Option.map_eq_none_iff.mp same)
              refine ⟨empty, ?_⟩
              rw [List.length_drop] at short
              omega
        · cases run

/-- A connected transport: what of the payload is still to come, and what is behind it. -/
structure Linked (t : Transport) (payload : List Char8) (behind : Option (List Char8)) : Prop where
  left : 0 ≤ t.bytesToRead.toInt
  pending : t.pending = payload
  behind : (unframe t.bytesToRead.toInt.toNat t.pipe).2 = behind
  fits : ∀ count ∈ t.requests, count ≤ kBufSize

/-- A transport behind a connection. -/
structure Gone (t : Transport) (behind : Option (List Char8)) : Prop where
  marked : t.bytesToRead = kServerSocketDisconnect
  empty : t.buf = []
  pipe : t.pipe = behind.getD []
  fits : ∀ count ∈ t.requests, count ≤ kBufSize

variable {t t' : Transport} {payload : List Char8} {behind : Option (List Char8)}
  {answers rest : List Answer} {ok : Bool}

theorem Linked.isConnected (linked : Linked t payload behind) : isConnected t = true := by
  rw [IpcTransport.isConnected, decide_eq_true_eq]
  intro marker
  have left := linked.left
  rw [marker] at left
  exact absurd left (by decide)

theorem Gone.isConnected (gone : Gone t behind) : isConnected t = false := by
  rw [IpcTransport.isConnected, gone.marked]
  rfl

variable {b : BitVec 32}

theorem requested_eq (left : 0 ≤ b.toInt) : requested b = min b.toInt.toNat kBufSize := by
  rw [requested, BitVec.toNat_ofInt, kBufSize]
  omega

theorem toInt_sub_ofNat (left : 0 ≤ b.toInt) (le : n ≤ b.toInt.toNat) :
    0 ≤ (b - BitVec.ofNat 32 n).toInt ∧
      (b - BitVec.ofNat 32 n).toInt.toNat = b.toInt.toNat - n := by
  have low := b.isLt
  rw [BitVec.toInt_eq_toNat_cond] at left le ⊢
  rw [BitVec.toInt_eq_toNat_cond, BitVec.toNat_sub, BitVec.toNat_ofNat]
  omega

/-- The lengths of what is left of the connection. -/
def Framed (t : Transport) : Prop := LengthsGood t.bytesToRead.toInt.toNat t.pipe = true

/-- What a call that fills the buffer leaves, when it succeeds. -/
structure Filled (t t' : Transport) (payload : List Char8) (behind : Option (List Char8)) : Prop where
  linked : Linked t' payload behind
  framed : Framed t → Framed t'
  inMessage : t'.buf = [] → t'.bytesToRead ≠ 0

/-- Nothing is read into the buffer beyond its size, or beyond the message. -/
theorem readPayload_spec (linked : Linked t payload behind) (empty : t.buf = [])
    (inMessage : 0 < t.bytesToRead.toInt) (sound : Answer.failed ∉ answers)
    (run : readPayload t answers = some (ok, t', rest)) :
    Answer.failed ∉ rest ∧ (ok = true → Filled t t' payload behind) ∧
      (ok = false → payload = [] ∧ Gone t' behind) := by
  have count := requested_eq linked.left
  have positive : 0 < kBufSize := Nat.succ_pos _
  have fits : ∀ count ∈ requested t.bytesToRead :: t.requests, count ≤ kBufSize := by
    intro count' member
    cases List.mem_cons.mp member with
    | inl here =>
      rw [here, count]
      exact Nat.min_le_right _ _
    | inr before => exact linked.fits count' before
  unfold readPayload at run
  simp only at run
  split at run
  · next nothing => omega
  · cases answers with
    | nil => cases run
    | cons answer answers =>
      have later : Answer.failed ∉ answers := fun member => sound (List.mem_cons_of_mem _ member)
      cases answer with
      | interrupted =>
        cases run
        refine ⟨later, fun _ => ⟨?_, fun framed => framed, fun _ => ?_⟩, fun same => (by cases same)⟩
        · exact ⟨linked.left, linked.pending, linked.behind, fits⟩
        · intro zero
          rw [show t.bytesToRead = 0 from zero] at inMessage
          exact absurd inMessage (by decide)
      | failed => exact absurd List.mem_cons_self sound
      | closed =>
        simp only at run
        split at run
        · next ended =>
          cases run
          refine ⟨later, fun same => (by cases same), fun _ => ?_⟩
          have pending := linked.pending
          have gone := linked.behind
          rw [Transport.pending, empty, ended, unframe_nil] at pending
          rw [ended, unframe_nil] at gone
          refine ⟨pending.symm, rfl, empty, ?_, fits⟩
          rw [← gone]
          exact ended
        · cases run
      | bytes n =>
        simp only at run
        split at run
        · next given =>
          cases run
          have part : n ≤ t.bytesToRead.toInt.toNat := by omega
          obtain ⟨left, rest_⟩ := toInt_sub_ofNat linked.left part
          have chunk := unframe_chunk part given.2.2
          refine ⟨later, fun _ => ⟨⟨left, ?_, ?_, fits⟩, fun framed => ?_, fun none_ => ?_⟩,
            fun same => (by cases same)⟩
          · rw [← linked.pending, Transport.pending, Transport.pending, empty, chunk, rest_]
            rfl
          · rw [← linked.behind, chunk, rest_]
          · rw [Framed, rest_]
            exact (lengthsGood_chunk part given.2.2).symm.trans framed
          · -- at least one byte has come
            have length := congrArg List.length (show t.pipe.take n = [] from none_)
            rw [List.length_take, List.length_nil] at length
            omega
        · cases run

theorem fillBufferIfEmpty_spec (linked : Linked t payload behind) (good : LengthGood t)
    (sound : Answer.failed ∉ answers) (run : fillBufferIfEmpty t answers = some (ok, t', rest)) :
    Answer.failed ∉ rest ∧ (ok = true → Filled t t' payload behind) ∧
      (ok = false → payload = [] ∧ Gone t' behind) := by
  rw [fillBufferIfEmpty] at run
  split at run
  · next full =>
    cases run
    exact ⟨sound, fun _ => ⟨linked, fun framed => framed, fun empty => absurd empty full⟩,
      fun same => (by cases same)⟩
  · next empty =>
    have empty : t.buf = [] := not_not.mp empty
    split at run
    · next between =>
      -- at the front of a message
      have pending := linked.pending
      have gone := linked.behind
      rw [between] at gone
      rw [Transport.pending, empty, between] at pending
      cases header : readNBytes t.pipe 4 answers with
      | none =>
        rw [header] at run
        cases run
      | some next =>
        obtain ⟨result, pipe, answers'⟩ := next
        obtain ⟨sound', whole, cut⟩ := readNBytes_spec sound header
        rw [header] at run
        cases result with
        | none =>
          obtain ⟨ended, short⟩ := cut rfl
          cases run
          refine ⟨sound', fun same => (by cases same), fun _ => ?_⟩
          rw [show (0 : BitVec 32).toInt.toNat = 0 from rfl, unframe_short short] at gone pending
          refine ⟨pending.symm, rfl, empty, ?_, linked.fits⟩
          rw [← gone]
          exact ended
        | some bytes =>
          obtain ⟨split_, four⟩ := whole bytes rfl
          have next := good empty between
          rw [split_, nextLength_header four] at next
          rw [show (0 : BitVec 32).toInt.toNat = 0 from rfl, split_, unframe_header four]
            at gone pending
          simp only at run
          split at run
          · next marker =>
            cases run
            rw [if_pos marker] at gone pending
            refine ⟨sound', fun same => (by cases same), fun _ => ?_⟩
            refine ⟨pending.symm, marker, empty, ?_, linked.fits⟩
            rw [← gone]
            rfl
          · next message =>
            rw [if_neg message] at gone pending
            have positive : 0 < (BitVec.ofNat 32 (leValue bytes)).toInt := by
              simp only [Option.all_some, goodLength, Bool.or_eq_true, decide_eq_true_eq] at next
              cases next with
              | inl marker => exact absurd marker message
              | inr positive => exact positive
            have linked' : Linked { t with bytesToRead := BitVec.ofNat 32 (leValue bytes), pipe }
                payload behind := by
              refine ⟨positive.le, ?_, gone, linked.fits⟩
              rw [Transport.pending]
              simp only [empty]
              exact pending
            obtain ⟨sound'', more, ended⟩ := readPayload_spec linked' empty positive sound' run
            refine ⟨sound'', fun same => ⟨(more same).linked, fun framed => ?_, (more same).inMessage⟩,
              ended⟩
            apply (more same).framed
            rw [Framed, between, split_, show (0 : BitVec 32).toInt.toNat = 0 from rfl,
              lengthsGood_header four] at framed
            simp only [message, decide_false, Bool.false_or, Bool.and_eq_true] at framed
            exact framed.2
    · next inside =>
      have left := linked.left
      have nonzero : t.bytesToRead.toInt ≠ 0 := by
        intro zero
        exact inside (BitVec.toInt_inj.mp (zero.trans BitVec.toInt_zero.symm))
      exact readPayload_spec linked empty (by omega) sound run

/-- Bytes that are copied out of the buffer are the next ones of the payload. -/
theorem Linked.copy (linked : Linked t payload behind) (len : Nat) :
    ∃ payload', payload = t.buf.take len ++ payload' ∧
      Linked { t with buf := t.buf.drop len } payload' behind := by
  refine ⟨t.buf.drop len ++ (unframe t.bytesToRead.toInt.toNat t.pipe).1, ?_, ?_⟩
  · rw [← List.append_assoc, List.take_append_drop]
    exact linked.pending.symm
  · exact ⟨linked.left, rfl, linked.behind, linked.fits⟩

variable {rounds : Nat}

theorem readLoop_spec {copied : List Char8} (linked : Linked t payload behind) (good : LengthGood t)
    (sound : Answer.failed ∉ answers) (run : readLoop rounds t 1 answers = some (ok, copied, t')) :
    (ok = true → ∃ payload', payload = copied ++ payload' ∧ Linked t' payload' behind) ∧
      (ok = false → payload = copied ∧ Gone t' behind) := by
  induction rounds generalizing t t' answers payload copied ok with
  | zero => cases run
  | succ rounds ih =>
    rw [readLoop] at run
    cases filled : fillBufferIfEmpty t answers with
    | none =>
      rw [filled] at run
      cases run
    | some result =>
      obtain ⟨got, u, answers'⟩ := result
      obtain ⟨sound', more, ended⟩ := fillBufferIfEmpty_spec linked good sound filled
      rw [filled] at run
      cases got with
      | false =>
        cases run
        exact ⟨fun same => (by cases same), fun _ => ended rfl⟩
      | true =>
        obtain ⟨payload', split_, linked'⟩ := (more rfl).linked.copy 1
        cases buffered : u.buf with
        | nil =>
          -- the read was interrupted, and is made again
          simp only [Nat.zero_add, buffered, List.take_nil, List.drop_nil, List.length_nil,
            Nat.sub_zero] at run
          have same : { u with buf := [] } = u := by rw [← buffered]
          rw [same] at run
          cases later : readLoop rounds u 1 answers' with
          | none =>
            rw [later] at run
            cases run
          | some result =>
            obtain ⟨ok', copied', v⟩ := result
            rw [later] at run
            cases run
            have good' : LengthGood u := fun empty zero => absurd zero ((more rfl).inMessage empty)
            exact ih (more rfl).linked good' sound' later
        | cons c buf =>
          have one : 0 + 1 - (u.buf.take (0 + 1)).length = 0 := by simp [buffered]
          simp only [one] at run
          have done : readLoop rounds { u with buf := u.buf.drop (0 + 1) } 0 answers' =
              some (true, [], { u with buf := u.buf.drop (0 + 1) }) := by
            cases rounds with
            | zero => rfl
            | succ rounds => rfl
          rw [done] at run
          cases run
          refine ⟨fun _ => ⟨payload', ?_, linked'⟩, fun same => (by cases same)⟩
          rw [List.append_nil]
          exact split_

theorem disconnectLoop_spec (linked : Linked t payload behind) (framed : Framed t)
    (sound : Answer.failed ∉ answers) (run : disconnectLoop rounds t answers = some t') :
    Gone t' behind := by
  induction rounds generalizing t payload answers with
  | zero => cases run
  | succ rounds ih =>
    have thrown : Linked { t with buf := [] } _ behind := ⟨linked.left, rfl, linked.behind, linked.fits⟩
    have good : LengthGood { t with buf := [] } := by
      intro _ zero
      rw [Framed, show t.bytesToRead = 0 from zero] at framed
      exact goodLength_of_lengthsGood framed
    rw [disconnectLoop] at run
    cases filled : fillBufferIfEmpty { t with buf := [] } answers with
    | none =>
      rw [filled] at run
      cases run
    | some result =>
      obtain ⟨got, u, answers'⟩ := result
      obtain ⟨sound', more, ended⟩ := fillBufferIfEmpty_spec thrown good sound filled
      rw [filled] at run
      cases got with
      | false =>
        cases run
        exact (ended rfl).2
      | true => exact ih (more rfl).linked ((more rfl).framed framed) sound' run

theorem disconnect_spec (state : (∃ payload, Linked t payload behind) ∧ Framed t ∨ Gone t behind)
    (sound : Answer.failed ∉ answers) : disconnect t answers ≠ .error .check ∧
      ∀ t', disconnect t answers = .ok t' → Gone t' behind := by
  have gone {u : Transport} (gone : Gone u behind) : Gone { u with buf := [] } behind :=
    ⟨gone.marked, rfl, gone.pipe, gone.fits⟩
  cases state with
  | inl connected =>
    obtain ⟨⟨payload, linked⟩, framed⟩ := connected
    rw [disconnect, if_pos linked.isConnected]
    cases drained : disconnectLoop (answers.length + 1) t answers with
    | none => exact ⟨fun same => (by cases same), fun t' same => (by cases same)⟩
    | some u =>
      refine ⟨fun same => (by cases same), fun t' same => ?_⟩
      cases same
      exact gone (disconnectLoop_spec linked framed sound drained)
  | inr idle =>
    rw [disconnect, idle.isConnected]
    refine ⟨fun same => (by cases same), fun t' same => ?_⟩
    cases same
    exact gone idle

/-! ## Histories -/

/-- While there is a session, the transport is connected; and otherwise the next connection is in
    front. -/
structure World.Inv (stream : List Char8) (w : World) : Prop where
  checks : w.checkFailed = false
  linked : w.connected = true → ∃ payload, payloadAt stream w.number = w.returned ++ payload ∧
    Linked w.transport payload (unframe 0 (connectionAt stream w.number)).2
  gone : w.connected = false → Gone w.transport (some (connectionAt stream w.number))

variable {stream : List Char8} {w w' : World} {e : Event}

theorem World.Inv.start (stream : List Char8) : (World.start stream).Inv stream where
  checks := rfl
  linked := fun same => by cases same
  gone := fun _ => ⟨rfl, rfl, rfl, fun count member => by cases member⟩

theorem World.Inv.sound (inv : w.Inv stream) : w.Sound stream := by
  cases connected : w.connected with
  | false => exact ⟨fun same => (by cases connected.symm.trans same), (inv.gone connected).fits, inv.checks⟩
  | true =>
    obtain ⟨payload, split_, linked⟩ := inv.linked connected
    exact ⟨fun _ => by rw [split_, linked.pending], linked.fits, inv.checks⟩

theorem World.Inv.of_linked {payload : List Char8} (checks : w.checkFailed = false)
    (connected : w.connected = true) (split_ : payloadAt stream w.number = w.returned ++ payload)
    (linked : Linked w.transport payload (unframe 0 (connectionAt stream w.number)).2) :
    w.Inv stream :=
  ⟨checks, fun _ => ⟨payload, split_, linked⟩, fun idle => (by cases idle.symm.trans connected)⟩

/-- Behind a connection the next one is in front. -/
theorem World.leave_spec {answers : List Answer} (checks : w.checkFailed = false)
    (state : (∃ payload, Linked w.transport payload (unframe 0 (connectionAt stream w.number)).2) ∧
        Framed w.transport ∨ Gone w.transport (unframe 0 (connectionAt stream w.number)).2)
    (sound : Answer.failed ∉ answers) (left : w.leave answers = some w') : w'.Inv stream := by
  obtain ⟨noCheck, gone⟩ := disconnect_spec state sound
  rw [World.leave] at left
  cases result : IpcTransport.disconnect w.transport answers with
  | error stop =>
    rw [result] at noCheck left
    cases stop with
    | blocked => cases left
    | check => exact absurd rfl noCheck
  | ok t =>
    rw [result] at left
    cases left
    have behind := gone t result
    exact ⟨checks, fun same => (by cases same),
      fun _ => ⟨behind.marked, behind.empty, behind.pipe, behind.fits⟩⟩

theorem World.Inv.running {connected : Bool} (inv : w.Inv stream) (same : w.connected = connected)
    (proper : Proper w e) (stepped : stepRunning w e connected = some w') : w'.Inv stream := by
  cases connected with
  | false =>
    have gone := inv.gone same
    cases e with
    | accept =>
      rw [stepRunning, acceptConnection, gone.isConnected] at stepped
      cases stepped
      have pipe : w.transport.pipe = connectionAt stream w.number := gone.pipe
      refine @World.Inv.of_linked stream _ (payloadAt stream w.number) inv.checks rfl rfl
        ⟨Int.le_refl 0, ?_, ?_, gone.fits⟩
      · rw [Transport.pending, gone.empty, payloadAt, ← pipe]
        rfl
      · rw [← pipe]
        rfl
    | disconnect answers =>
      obtain ⟨noCheck, idle⟩ := disconnect_spec (.inr gone) proper.1
      rw [stepRunning] at stepped
      cases left : IpcTransport.disconnect w.transport answers with
      | error stop =>
        rw [left] at noCheck stepped
        cases stop with
        | blocked => cases stepped
        | check => exact absurd rfl noCheck
      | ok t =>
        rw [left] at stepped
        cases stepped
        exact ⟨inv.checks, fun other => (by cases same.symm.trans other), fun _ => idle t left⟩
    | wait | isDataAvailable | send | getChar => cases stepped
  | true =>
    obtain ⟨payload, split_, linked⟩ := inv.linked same
    cases e with
    | accept => cases stepped
    | send =>
      rw [stepRunning, write, if_pos linked.isConnected] at stepped
      cases stepped
      exact inv
    | isDataAvailable readable =>
      rw [stepRunning, IpcTransport.isDataAvailable, if_pos linked.isConnected] at stepped
      cases stepped
      exact inv
    | wait readable answers =>
      rw [stepRunning, waitForDebugStubEvent] at stepped
      split at stepped
      · cases stepped
        exact inv
      · next isSet =>
        -- there is something of the connection to come
        have readable : readable = true := by
          simp only [Bool.not_eq_false, Bool.and_eq_true] at isSet
          exact isSet.2
        obtain ⟨good, pending⟩ := proper.2 readable
        rw [linked.pending] at pending
        cases filled : fillBufferIfEmpty w.transport answers with
        | none =>
          rw [filled] at stepped
          cases stepped
        | some result =>
          obtain ⟨got, t, answers'⟩ := result
          obtain ⟨_, more, ended⟩ := fillBufferIfEmpty_spec linked good proper.1 filled
          rw [filled] at stepped
          cases stepped
          cases got with
          | true => exact .of_linked inv.checks same split_ (more rfl).linked
          | false => exact absurd (ended rfl).1 pending
    | getChar answers =>
      rw [stepRunning, IpcTransport.read, linked.isConnected] at stepped
      simp only [Bool.true_eq_false, if_false] at stepped
      cases got : readLoop (answers.length + 1) w.transport 1 answers with
      | none =>
        rw [got] at stepped
        cases stepped
      | some result =>
        obtain ⟨ok, copied, t⟩ := result
        obtain ⟨whole, cut⟩ := readLoop_spec linked proper.2 proper.1 got
        rw [got] at stepped
        cases ok with
        | true =>
          obtain ⟨payload', split', linked'⟩ := whole rfl
          cases stepped
          refine .of_linked inv.checks same ?_ linked'
          rw [split_, split', List.append_assoc]
        | false =>
          exact @World.leave_spec stream { w with transport := t, returned := w.returned ++ copied }
            _ _ inv.checks (.inr (cut rfl).2) List.not_mem_nil stepped
    | disconnect answers =>
      exact World.leave_spec inv.checks (.inl ⟨⟨payload, linked⟩, proper.2⟩) proper.1 stepped

theorem World.Inv.step (inv : w.Inv stream) (proper : Proper w e) (stepped : step w e = some w') :
    w'.Inv stream := by
  rw [IpcTransport.step, inv.checks] at stepped
  exact inv.running rfl proper stepped

/-- `abc` in two messages and `d` on a second connection, with the markers. -/
def twoConnections : List Char8 :=
  [2, 0, 0, 0, 0x61, 0x62, 1, 0, 0, 0, 0x63, 0xff, 0xff, 0xff, 0xff, 1, 0, 0, 0, 0x64,
    0xff, 0xff, 0xff, 0xff]

/-- The first connection is waited for and read to its end, with headers in pieces; the second one is
    left early. -/
def readBoth : List Event :=
  [.accept, .wait true [.bytes 1, .interrupted, .bytes 3, .bytes 1], .isDataAvailable true,
    .getChar [], .send, .getChar [.interrupted, .bytes 1], .getChar [.bytes 2, .bytes 2, .bytes 1],
    .getChar [.bytes 4], .accept, .getChar [.bytes 4, .bytes 1], .disconnect [.bytes 4]]

/-- The marker is read while waiting, and the next call finds no connection. -/
theorem checkFailed_of_marker :
    ∃ w, [Event.accept, .wait true [.bytes 4], .isDataAvailable true].foldlM step
      (World.start [0xff, 0xff, 0xff, 0xff]) = some w ∧ w.checkFailed = true :=
  ⟨_, rfl, rfl⟩

/-- A length of -2 is a very large one for `read`. -/
theorem request_of_negative : ∃ w, [Event.accept, .getChar [.bytes 4, .bytes 1]].foldlM step
      (World.start [0xfe, 0xff, 0xff, 0xff, 0x61]) = some w ∧ w.transport.requests = [2 ^ 64 - 2] :=
  ⟨_, rfl, rfl⟩

/-- After an empty message the rest of the connection is taken for the next one. -/
theorem returned_of_empty :
    ∃ w, [Event.accept, .getChar [.bytes 4], .accept, .getChar [.bytes 4, .bytes 1]].foldlM step
      (World.start [0, 0, 0, 0, 1, 0, 0, 0, 0x61, 0xff, 0xff, 0xff, 0xff]) = some w ∧
        w.connected = true ∧ w.returned = [0x61] ∧ w.number = 1 :=
  ⟨_, rfl, rfl, rfl, rfl⟩

end SandboxTEE.DebugStub.IpcTransport
