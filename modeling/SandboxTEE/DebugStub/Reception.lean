import SandboxTEE.DebugStub.SequenceNumber
import SandboxTEE.DebugStub.Session

/-! # Reception of packets (`session.cc`)

`GetPacket` reads up to a `#` and two characters behind it, and compares these with the sum of the
characters since the last `$` or since its last try.  After a wrong sum it tries again with the
next character, without waiting for a `$`; the two characters are not looked at for a `$` either;
and what is no digit leaves a variable as it is.  A sequence number stays in the packet until
another one is found.

The packets that should arrive are stated on the stream alone (`First`).
-/

namespace SandboxTEE.DebugStub

namespace Session

/-! ## What a call leaves -/

/-- A call of `GetPacket`, with the payload as it was read when a packet is delivered. -/
structure Outcome where
  delivered : Option (List Char8)
  packet : Packet
  sent : List Char8
  stream : List Char8

def Outcome.received (o : Outcome) : Option Received :=
  if o.delivered.isSome then some ⟨o.packet, o.sent, o.stream⟩ else none

/-- `receive` with what it leaves when the stream ends. -/
def receiveAll (flags junk : BitVec 32) : List Char8 → Packet → Char8 → List Char8 → Outcome
  | [], pkt, _, sent => ⟨none, pkt, sent, []⟩
  | ch :: stream, pkt, runXsum, sent =>
    if ch = Ch.hash then
      match stream with
      | first :: second :: stream =>
        let payload := pkt.data
        let pkt := pkt.parseSequence
        if flags &&& ignoreAck ≠ 0 then ⟨some payload, pkt, sent, stream⟩
        else if readChecksum junk first second = runXsum then
          ⟨some payload, pkt, sent ++ acknowledge pkt, stream⟩
        else receiveAll flags junk stream pkt.clear 0 (sent ++ [Ch.minus])
      | _ => ⟨none, pkt, sent, []⟩
    else if ch = Ch.dollar then receiveAll flags junk stream pkt.clear 0 sent
    else receiveAll flags junk stream (pkt.addRawChar ch) (runXsum + ch) sent

def getPacketAll (s : Session) (junk : BitVec 32) (stream : List Char8) (pkt : Packet) : Outcome :=
  match tossToStart stream with
  | none => ⟨none, pkt, [], []⟩
  | some stream => receiveAll s.flags junk stream pkt.clear 0 []

variable {flags junk : BitVec 32}

theorem receive_eq (stream : List Char8) (pkt : Packet) (runXsum : Char8) (sent : List Char8) :
    receive flags junk stream pkt runXsum sent =
      (receiveAll flags junk stream pkt runXsum sent).received := by
  induction stream, pkt, runXsum, sent using receiveAll.induct flags junk with
  | case1 pkt runXsum sent => rfl
  | case2 pkt runXsum sent first second stream off =>
    rw [receive, receiveAll, if_pos rfl, if_pos rfl]
    simp only [if_pos off]
    rfl
  | case3 pkt sent first second stream on =>
    rw [receive, receiveAll, if_pos rfl, if_pos rfl]
    simp only [if_neg on, if_true]
    rfl
  | case4 pkt runXsum sent first second stream parsed on wrong ih =>
    rw [receive, receiveAll, if_pos rfl, if_pos rfl]
    simp only [if_neg on, if_neg wrong]
    exact ih
  | case5 stream pkt runXsum sent short =>
    rw [receive, receiveAll, if_pos rfl, if_pos rfl]
    · rfl
    · exact short
    · exact short
  | case6 stream pkt runXsum sent hash ih =>
    unfold receive receiveAll
    exact ih
  | case7 ch stream pkt runXsum sent hash dollar ih =>
    unfold receive receiveAll
    simp only [if_neg hash, if_neg dollar]
    exact ih

theorem getPacket_eq (s : Session) (stream : List Char8) (pkt : Packet) :
    s.getPacket junk stream pkt = (s.getPacketAll junk stream pkt).received := by
  rw [getPacket, getPacketAll]
  cases tossToStart stream with
  | none => rfl
  | some start => exact receive_eq start pkt.clear 0 []

end Session

/-! ## The packets of a stream -/

def IsPayload (body : List Char8) : Prop := ∀ ch ∈ body, ch ≠ Ch.dollar ∧ ch ≠ Ch.hash

/-- `$`, a payload, `#`, and two digits that are the sum of the payload. -/
structure Begins (stream body rest : List Char8) : Prop where
  plain : IsPayload body
  shape : ∃ first second high low,
    stream = Ch.dollar :: (body ++ Ch.hash :: first :: second :: rest) ∧
      nibbleToInt first = some high ∧ nibbleToInt second = some low ∧
        Session.checksum body = BitVec.ofNat 8 (16 * high + low)

/-- The first packet of a stream, and what is behind it. -/
inductive First : List Char8 → List Char8 → List Char8 → Prop
  | here {stream body rest} (begins : Begins stream body rest) : First stream body rest
  | later {ch stream body rest} (other : ∀ body rest, ¬Begins (ch :: stream) body rest)
      (first : First stream body rest) : First (ch :: stream) body rest

/-- The first packet of the stream is delivered, as a new `Packet` would hold it. -/
structure Delivers (stream : List Char8) (o : Session.Outcome) : Prop where
  first : ∀ body rest, First stream body rest →
    o.delivered = some body ∧ o.stream = rest ∧ o.packet = (Packet.mk (-1) body 0).parseSequence ∧
      o.packet.getSequence = (sequenceNumber body).map Int.ofNat
  only : (∀ body rest, ¬First stream body rest) → o.delivered = none

/-- What is delivered is acknowledged, and nothing else. -/
def Acknowledges (o : Session.Outcome) : Prop :=
  ∃ nacks, o.sent = List.replicate nacks Ch.minus ++
    if o.delivered.isSome then Session.acknowledge o.packet else []

/-! ## When it is -/

/-- A text that is read up to a checksum: whether a `$` is in front of the payload, the payload, and
    the two characters behind the `#`. -/
structure Segment where
  marked : Bool
  body : List Char8
  first : Char8
  second : Char8
  rest : List Char8

def segment (marked : Bool) (body : List Char8) : List Char8 → Option Segment
  | [] => none
  | ch :: stream =>
    if ch = Ch.hash then
      match stream with
      | first :: second :: rest => some ⟨marked, body, first, second, rest⟩
      | _ => none
    else if ch = Ch.dollar then segment true [] stream
    else segment marked (body ++ [ch]) stream

/-- The sum is taken for right. -/
def Segment.Accepted (junk : BitVec 32) (g : Segment) : Prop :=
  Session.readChecksum junk g.first g.second = Session.checksum g.body

instance (junk : BitVec 32) (g : Segment) : Decidable (g.Accepted junk) :=
  inferInstanceAs (Decidable (_ = _))

/-- The label `retry`: whether a `$` is in front of it, `seq_`, and the stream. -/
structure Retry where
  marked : Bool
  seq : Int
  stream : List Char8

def Retry.segment (r : Retry) : Option Segment := DebugStub.segment r.marked [] r.stream

/-- What is accepted is behind a `$`, has digits, and has a sequence number unless there is no old
    one; and what is not does not end with the beginning of a packet. -/
structure Retry.Proper (junk : BitVec 32) (r : Retry) (g : Segment) : Prop where
  marked : g.Accepted junk → g.marked = true
  digits : g.Accepted junk → (nibbleToInt g.first).isSome ∧ (nibbleToInt g.second).isSome
  own : g.Accepted junk → sequenceNumber g.body = none → r.seq = -1
  kept : ¬g.Accepted junk → ∀ body rest, ¬Begins (g.first :: g.second :: g.rest) body rest

/-- `retry` behind a text that is not accepted. -/
def Retry.after (r : Retry) (g : Segment) : Retry :=
  ⟨g.second = Ch.dollar, ((sequenceNumber g.body).map Int.ofNat).getD r.seq, g.rest⟩

/-- From one try to the next. -/
inductive Next (junk : BitVec 32) : Retry → Retry → Prop
  | refused {r : Retry} {g : Segment} (text : r.segment = some g) (wrong : ¬g.Accepted junk) :
    Next junk r (r.after g)

/-- Every text that is come to from `retry` is as it should be. -/
def AllProper (junk : BitVec 32) (r : Retry) : Prop :=
  ∀ r' g, Relation.ReflTransGen (Next junk) r r' → r'.segment = some g → r'.Proper junk g

def Undisturbed (junk : BitVec 32) (stream : List Char8) (pkt : Packet) : Prop :=
  ∀ start, Session.tossToStart stream = some start → AllProper junk ⟨true, pkt.seq, start⟩

/-! ## Packets and texts -/

variable {stream body rest body' rest' : List Char8} {ch : Char8} {marked : Bool} {g : Segment}

/-- A payload ends at the first character that cannot be in one. -/
theorem IsPayload.split (plain : IsPayload body) (plain' : IsPayload body') {x y : Char8}
    (ends : x = Ch.dollar ∨ x = Ch.hash) (ends' : y = Ch.dollar ∨ y = Ch.hash)
    (same : body ++ x :: rest = body' ++ y :: rest') : body = body' ∧ x = y ∧ rest = rest' := by
  induction body generalizing body' with
  | nil =>
    cases body' with
    | nil =>
      cases same
      exact ⟨rfl, rfl, rfl⟩
    | cons c body' =>
      cases same
      have inside := plain' x List.mem_cons_self
      exact absurd ends (not_or.mpr inside)
  | cons c body ih =>
    cases body' with
    | nil =>
      cases same
      have inside := plain y List.mem_cons_self
      exact absurd ends' (not_or.mpr inside)
    | cons c' body' =>
      rw [List.cons_append, List.cons_append, List.cons.injEq] at same
      obtain ⟨bodies, others⟩ := ih (fun ch member => plain ch (List.mem_cons_of_mem _ member))
        (fun ch member => plain' ch (List.mem_cons_of_mem _ member)) same.2
      exact ⟨by rw [same.1, bodies], others⟩

theorem Begins.unique (begins : Begins stream body rest) (begins' : Begins stream body' rest') :
    body = body' ∧ rest = rest' := by
  obtain ⟨first, second, _, _, shape, _⟩ := begins.shape
  obtain ⟨first', second', _, _, shape', _⟩ := begins'.shape
  have same := (List.cons.inj (shape.symm.trans shape')).2
  obtain ⟨bodies, _, rests⟩ := begins.plain.split begins'.plain (.inr rfl) (.inr rfl) same
  cases rests
  exact ⟨bodies, rfl⟩

theorem First.unique (first : First stream body rest) (first' : First stream body' rest') :
    body = body' ∧ rest = rest' := by
  induction first with
  | here begins =>
    cases first' with
    | here begins' => exact begins.unique begins'
    | later other _ => exact absurd begins (other _ _)
  | later other _ ih =>
    cases first' with
    | here begins' => exact absurd begins' (other _ _)
    | later _ first' => exact ih first'

theorem first_cons_iff (other : ∀ body rest, ¬Begins (ch :: stream) body rest) :
    First (ch :: stream) body rest ↔ First stream body rest := by
  constructor
  · intro first
    cases first with
    | here begins => exact absurd begins (other _ _)
    | later _ first => exact first
  · exact .later other

/-- A packet begins with a `$`. -/
theorem not_begins_of_ne (other : ch ≠ Ch.dollar) (body rest : List Char8) :
    ¬Begins (ch :: stream) body rest := by
  intro begins
  obtain ⟨_, _, _, _, shape, _⟩ := begins.shape
  exact other (List.cons.inj shape).1

theorem first_append_iff (plain : ∀ ch ∈ body', ch ≠ Ch.dollar) :
    First (body' ++ stream) body rest ↔ First stream body rest := by
  induction body' with
  | nil => exact Iff.rfl
  | cons c body' ih =>
    rw [List.cons_append, first_cons_iff (not_begins_of_ne (plain c List.mem_cons_self))]
    exact ih fun ch member => plain ch (List.mem_cons_of_mem _ member)

/-- Of a packet four characters are not the payload. -/
theorem Begins.length (begins : Begins stream body rest) :
    body.length + rest.length + 4 = stream.length := by
  obtain ⟨first, second, _, _, shape, _⟩ := begins.shape
  rw [shape]
  simp
  omega

theorem First.length (first : First stream body rest) :
    body.length + rest.length + 4 ≤ stream.length := by
  induction first with
  | here begins => exact begins.length.le
  | later _ _ ih =>
    rw [List.length_cons]
    omega

/-- The `$` in front of a text, if it has one. -/
def lead (marked : Bool) : List Char8 := if marked then [Ch.dollar] else []

/-- A text that is a packet. -/
def Segment.Good (g : Segment) : Prop :=
  g.marked = true ∧ ∃ high low, nibbleToInt g.first = some high ∧ nibbleToInt g.second = some low ∧
    Session.checksum g.body = BitVec.ofNat 8 (16 * high + low)

theorem segment_hash (first second : Char8) :
    segment marked body (Ch.hash :: first :: second :: rest) =
      some ⟨marked, body, first, second, rest⟩ := rfl

theorem segment_dollar : segment marked body (Ch.dollar :: rest) = segment true [] rest := rfl

theorem segment_plain (hash : ch ≠ Ch.hash) (dollar : ch ≠ Ch.dollar) :
    segment marked body (ch :: rest) = segment marked (body ++ [ch]) rest := by
  conv_lhs => unfold segment
  exact (if_neg hash).trans (if_neg dollar)

theorem IsPayload.snoc (plain : IsPayload body) (hash : ch ≠ Ch.hash) (dollar : ch ≠ Ch.dollar) :
    IsPayload (body ++ [ch]) := by
  intro c member
  cases List.mem_append.mp member with
  | inl before => exact plain c before
  | inr last =>
    rw [List.mem_singleton.mp last]
    exact ⟨dollar, hash⟩

/-- A `$` behind it ends what would have been a payload. -/
theorem first_dollar_iff (plain : IsPayload body') :
    First (lead marked ++ (body' ++ Ch.dollar :: stream)) body rest ↔
      First (Ch.dollar :: stream) body rest := by
  have skip : First (body' ++ Ch.dollar :: stream) body rest ↔
      First (Ch.dollar :: stream) body rest :=
    first_append_iff fun ch member => (plain ch member).1
  cases marked with
  | false => exact skip
  | true =>
    refine (first_cons_iff fun b r begins => ?_).trans skip
    obtain ⟨_, _, _, _, shape, _⟩ := begins.shape
    have same := (List.cons.inj shape).2
    exact absurd (plain.split begins.plain (.inl rfl) (.inr rfl) same).2.1 (by decide)

/-- Without a text up to a checksum there is no packet. -/
theorem not_first_of_segment_none (plain : IsPayload body') (noText : segment marked body' stream = none) :
    ¬First (lead marked ++ (body' ++ stream)) body rest := by
  induction stream generalizing marked body' with
  | nil =>
    rw [List.append_nil]
    have skip : ¬First body' body rest := by
      intro first
      rw [← List.append_nil body', first_append_iff fun ch member => (plain ch member).1] at first
      exact absurd first.length (by simp)
    cases marked with
    | false => exact skip
    | true =>
      refine (not_congr (first_cons_iff fun b r begins => ?_)).mpr skip
      obtain ⟨_, _, _, _, shape, _⟩ := begins.shape
      have same : body' = _ := (List.cons.inj shape).2
      exact (plain Ch.hash (by rw [same]; simp)).2 rfl
  | cons ch stream ih =>
    by_cases hash : ch = Ch.hash
    · subst hash
      have short : stream.length < 2 := by
        match stream, noText with
        | [], _ => decide
        | [_], _ => exact Nat.lt_succ_self 1
      have skip : ¬First (body' ++ Ch.hash :: stream) body rest := by
        intro first
        rw [first_append_iff fun ch member => (plain ch member).1,
          first_cons_iff (not_begins_of_ne (by decide))] at first
        have := first.length
        omega
      cases marked with
      | false => exact skip
      | true =>
        refine (not_congr (first_cons_iff fun b r begins => ?_)).mpr skip
        obtain ⟨_, _, _, _, shape, _⟩ := begins.shape
        obtain ⟨_, _, rests⟩ :=
          plain.split begins.plain (.inr rfl) (.inr rfl) (List.cons.inj shape).2
        have long := congrArg List.length rests
        simp only [List.length_cons] at long
        omega
    · by_cases dollar : ch = Ch.dollar
      · subst dollar
        rw [first_dollar_iff plain]
        rw [segment_dollar] at noText
        exact ih (fun ch member => by cases member) noText
      · rw [segment_plain hash dollar] at noText
        have later := ih (plain.snoc hash dollar) noText
        rwa [List.append_assoc] at later

/-- The first packet is the text up to the checksum, or begins with the first character of the
    checksum or later. -/
theorem first_segment (plain : IsPayload body') (text : segment marked body' stream = some g) :
    IsPayload g.body ∧ (g.Good → First (lead marked ++ (body' ++ stream)) g.body g.rest) ∧
      (¬g.Good → (First (lead marked ++ (body' ++ stream)) body rest ↔
        First (g.first :: g.second :: g.rest) body rest)) := by
  induction stream generalizing marked body' with
  | nil => cases text
  | cons ch stream ih =>
    by_cases hash : ch = Ch.hash
    · subst hash
      match stream, text with
      | first :: second :: stream, text =>
        cases text
        refine ⟨plain, ?_, ?_⟩
        · rintro ⟨marks, high, low, digit1, digit2, sums⟩
          cases marks
          exact .here ⟨plain, first, second, high, low, rfl, digit1, digit2, sums⟩
        · intro bad
          have skip : First (body' ++ Ch.hash :: first :: second :: stream) body rest ↔
              First (first :: second :: stream) body rest :=
            (first_append_iff fun ch member => (plain ch member).1).trans
              (first_cons_iff (not_begins_of_ne (by decide)))
          cases marked with
          | false => exact skip
          | true =>
            refine (first_cons_iff fun b r begins => bad ⟨rfl, ?_⟩).trans skip
            obtain ⟨first', second', high, low, shape, digit1, digit2, sums⟩ := begins.shape
            obtain ⟨bodies, _, rests⟩ :=
              plain.split begins.plain (.inr rfl) (.inr rfl) (List.cons.inj shape).2
            cases rests
            exact ⟨high, low, digit1, digit2, bodies ▸ sums⟩
    · by_cases dollar : ch = Ch.dollar
      · subst dollar
        rw [segment_dollar] at text
        rw [first_dollar_iff plain, first_dollar_iff plain]
        exact ih (fun ch member => by cases member) text
      · rw [segment_plain hash dollar] at text
        have later := ih (plain.snoc hash dollar) text
        rwa [List.append_assoc] at later

/-- A text has three characters that are not the payload. -/
theorem segment_length (text : segment marked body stream = some g) :
    g.body.length + g.rest.length + 3 ≤ body.length + stream.length := by
  induction stream generalizing marked body with
  | nil => cases text
  | cons ch stream ih =>
    by_cases hash : ch = Ch.hash
    · subst hash
      match stream, text with
      | first :: second :: rest, text =>
        cases text
        simp only [List.length_cons]
        omega
    · by_cases dollar : ch = Ch.dollar
      · subst dollar
        have := ih (segment_dollar ▸ text)
        simp only [List.length_nil, List.length_cons] at this ⊢
        omega
      · rw [segment_plain hash dollar] at text
        have := ih text
        simp only [List.length_append, List.length_cons, List.length_nil] at this ⊢
        omega

theorem Retry.length_segment {r : Retry} (text : r.segment = some g) :
    g.body.length + g.rest.length + 3 ≤ r.stream.length := by
  have := segment_length text
  simpa using this

namespace Session

variable {flags junk : BitVec 32} {seq : Int} {sent : List Char8}

/-- The receive loop reads one text after the other. -/
theorem receiveAll_segment (acks : flags &&& ignoreAck = 0) (marked : Bool) (stream body : List Char8)
    (seq : Int) (sent : List Char8) : match segment marked body stream with
    | none => (receiveAll flags junk stream ⟨seq, body, 0⟩ (checksum body) sent).delivered = none ∧
        (receiveAll flags junk stream ⟨seq, body, 0⟩ (checksum body) sent).sent = sent
    | some g => receiveAll flags junk stream ⟨seq, body, 0⟩ (checksum body) sent =
        let pkt := (Packet.mk seq g.body 0).parseSequence
        if readChecksum junk g.first g.second = checksum g.body then
          ⟨some g.body, pkt, sent ++ acknowledge pkt, g.rest⟩
        else receiveAll flags junk g.rest pkt.clear 0 (sent ++ [Ch.minus]) := by
  induction stream generalizing marked body with
  | nil => exact ⟨rfl, rfl⟩
  | cons ch stream ih =>
    by_cases hash : ch = Ch.hash
    · subst hash
      match stream with
      | [] => exact ⟨rfl, rfl⟩
      | [first] => exact ⟨rfl, rfl⟩
      | first :: second :: rest =>
        rw [segment_hash]
        simp only [receiveAll, if_true, acks, ne_eq, not_true_eq_false, if_false]
    · by_cases dollar : ch = Ch.dollar
      · subst dollar
        have step : receiveAll flags junk (Ch.dollar :: stream) ⟨seq, body, 0⟩ (checksum body) sent =
            receiveAll flags junk stream ⟨seq, [], 0⟩ (checksum []) sent := by
          conv_lhs => unfold receiveAll
          rfl
        rw [segment_dollar, step]
        exact ih true []
      · have next := ih marked (body ++ [ch])
        have sum : checksum (body ++ [ch]) = checksum body + ch := List.foldl_concat _ _ _ _
        have step : receiveAll flags junk (ch :: stream) ⟨seq, body, 0⟩ (checksum body) sent =
            receiveAll flags junk stream ⟨seq, body ++ [ch], 0⟩ (checksum (body ++ [ch])) sent := by
          rw [sum]
          conv_lhs => unfold receiveAll
          exact (if_neg hash).trans (if_neg dollar)
        rw [segment_plain hash dollar, step]
        exact next

/-! ## From one try to the next -/

/-- The receive loop from `retry` on. -/
def tryFrom (flags junk : BitVec 32) (r : Retry) (sent : List Char8) : Outcome :=
  receiveAll flags junk r.stream ⟨r.seq, [], 0⟩ 0 sent

theorem clear_parseSequence (seq : Int) (body : List Char8) :
    (Packet.mk seq body 0).parseSequence.clear =
      ⟨((sequenceNumber body).map Int.ofNat).getD seq, [], 0⟩ := by
  rw [← Packet.parseSequence_seq]
  rfl

theorem tryFrom_none (acks : flags &&& ignoreAck = 0) {r : Retry} (noText : r.segment = none) :
    (tryFrom flags junk r sent).delivered = none ∧ (tryFrom flags junk r sent).sent = sent := by
  have reads := @receiveAll_segment flags junk acks r.marked r.stream [] r.seq sent
  rw [Retry.segment] at noText
  rwa [noText] at reads

theorem tryFrom_accepted (acks : flags &&& ignoreAck = 0) {r : Retry} (text : r.segment = some g)
    (right : g.Accepted junk) : tryFrom flags junk r sent =
      ⟨some g.body, (Packet.mk r.seq g.body 0).parseSequence,
        sent ++ acknowledge (Packet.mk r.seq g.body 0).parseSequence, g.rest⟩ := by
  have reads := @receiveAll_segment flags junk acks r.marked r.stream [] r.seq sent
  rw [Retry.segment] at text
  rw [text] at reads
  exact reads.trans (if_pos right)

theorem tryFrom_refused (acks : flags &&& ignoreAck = 0) {r : Retry} (text : r.segment = some g)
    (wrong : ¬g.Accepted junk) : tryFrom flags junk r sent =
      tryFrom flags junk (r.after g) (sent ++ [Ch.minus]) := by
  have reads := @receiveAll_segment flags junk acks r.marked r.stream [] r.seq sent
  rw [Retry.segment] at text
  rw [text] at reads
  refine (reads.trans (if_neg wrong)).trans ?_
  rw [clear_parseSequence]
  rfl

theorem tryFrom_length (acks : flags &&& ignoreAck = 0) (r : Retry) (sent : List Char8)
    {payload : List Char8} (delivered : (tryFrom flags junk r sent).delivered = some payload) :
    payload.length + (tryFrom flags junk r sent).stream.length + 3 ≤ r.stream.length := by
  induction len : r.stream.length using Nat.strong_induction_on generalizing r sent with
  | h n ih =>
    cases text : r.segment with
    | none =>
      rw [(tryFrom_none acks text).1] at delivered
      cases delivered
    | some g =>
      have short := Retry.length_segment text
      by_cases right : g.Accepted junk
      · rw [tryFrom_accepted acks text right] at delivered ⊢
        cases delivered
        exact len ▸ short
      · rw [tryFrom_refused acks text right] at delivered ⊢
        have later := ih (r.after g).stream.length (by show g.rest.length < n; omega) _ _ delivered rfl
        have : (r.after g).stream.length = g.rest.length := rfl
        omega

theorem tryFrom_acknowledges (acks : flags &&& ignoreAck = 0) (r : Retry) (nacks : Nat) :
    Acknowledges (tryFrom flags junk r (List.replicate nacks Ch.minus)) := by
  induction len : r.stream.length using Nat.strong_induction_on generalizing r nacks with
  | h n ih =>
    cases text : r.segment with
    | none =>
      have ended := @tryFrom_none flags junk (List.replicate nacks Ch.minus) acks _ text
      exact ⟨nacks, by rw [ended.1, ended.2]; simp⟩
    | some g =>
      have short := Retry.length_segment text
      by_cases right : g.Accepted junk
      · rw [tryFrom_accepted acks text right]
        exact ⟨nacks, rfl⟩
      · rw [tryFrom_refused acks text right, ← List.replicate_succ']
        exact ih (r.after g).stream.length (by show g.rest.length < n; omega) _ _ rfl

/-! ## Two digits -/

theorem readChecksum_digits {first second : Char8} {high low : Nat}
    (digit : nibbleToInt first = some high) (digit' : nibbleToInt second = some low) :
    readChecksum junk first second = BitVec.ofNat 8 (16 * high + low) := by
  have all : ∀ high low : Fin 16, (BitVec.ofNat 32 high.val <<< 4).setWidth 8 |||
      (BitVec.ofNat 32 low.val).setWidth 8 = (BitVec.ofNat 8 (16 * high.val + low.val) : Char8) := by
    decide +kernel
  rw [readChecksum, digit, digit']
  exact all ⟨high, nibbleToInt_lt digit⟩ ⟨low, nibbleToInt_lt digit'⟩

end Session

/-! ## The first packet -/

variable {flags junk : BitVec 32} {r : Retry} {sent : List Char8} {o : Session.Outcome}

open Session (tryFrom ignoreAck)

theorem Segment.Good.accepted (good : g.Good) : g.Accepted junk := by
  obtain ⟨_, high, low, digit, digit', sum⟩ := good
  exact (Session.readChecksum_digits digit digit').trans sum.symm

theorem Segment.good_of_accepted (right : g.Accepted junk) (marked : g.marked = true)
    (digits : (nibbleToInt g.first).isSome ∧ (nibbleToInt g.second).isSome) : g.Good := by
  obtain ⟨high, digit⟩ := Option.isSome_iff_exists.mp digits.1
  obtain ⟨low, digit'⟩ := Option.isSome_iff_exists.mp digits.2
  exact ⟨marked, high, low, digit, digit', right.symm.trans (Session.readChecksum_digits digit digit')⟩

theorem Delivers.congr {stream' : List Char8}
    (same : ∀ body rest, First stream body rest ↔ First stream' body rest) :
    Delivers stream o ↔ Delivers stream' o := by
  constructor
  · intro delivers
    exact ⟨fun body rest first => delivers.first body rest ((same _ _).mpr first),
      fun absent => delivers.only fun body rest first => absent body rest ((same _ _).mp first)⟩
  · intro delivers
    exact ⟨fun body rest first => delivers.first body rest ((same _ _).mp first),
      fun absent => delivers.only fun body rest first => absent body rest ((same _ _).mpr first)⟩

theorem allProper_iff (text : r.segment = some g) :
    AllProper junk r ↔ r.Proper junk g ∧ (¬g.Accepted junk → AllProper junk (r.after g)) := by
  constructor
  · intro all
    refine ⟨all r g .refl text, fun wrong r' g' reached text' => ?_⟩
    exact all r' g' (.head (.refused text wrong) reached) text'
  · intro parts r' g' reached text'
    cases Relation.ReflTransGen.cases_head reached with
    | inl here =>
      subst here
      cases text.symm.trans text'
      exact parts.1
    | inr next =>
      obtain ⟨r'', step, later⟩ := next
      cases step with
      | refused text'' wrong =>
        cases text.symm.trans text''
        exact parts.2 wrong r' g' later text'

theorem delivers_accepted_iff (acks : flags &&& ignoreAck = 0) (text : r.segment = some g)
    (right : g.Accepted junk) :
    Delivers (lead r.marked ++ r.stream) (tryFrom flags junk r sent) ↔ r.Proper junk g := by
  have frames (body rest : List Char8) := @first_segment _ body rest [] r.marked g
    (fun ch member => by cases member) text
  rw [Session.tryFrom_accepted acks text right]
  constructor
  · intro delivers
    have good : g.Good := by
      by_contra bad
      by_cases packet : ∃ body rest, First (lead r.marked ++ r.stream) body rest
      · -- what is delivered is longer than the first packet
        obtain ⟨body, rest, first⟩ := packet
        have same := (delivers.first body rest first).2.1
        have short := (((frames body rest).2.2 bad).mp first).length
        simp only [List.length_cons, ← same] at short
        omega
      · have nothing := delivers.only fun body rest first => packet ⟨body, rest, first⟩
        cases nothing
    have whole := delivers.first _ _ ((frames [] []).2.1 good)
    obtain ⟨high, low, digit, digit', _⟩ := good.2
    refine ⟨fun _ => good.1, fun _ => ⟨by rw [digit]; rfl, by rw [digit']; rfl⟩, fun _ unnumbered => ?_,
      fun wrong => absurd right wrong⟩
    have unset := whole.2.2.2
    rw [unnumbered] at unset
    have seq := getSequence_eq_none_iff.mp unset
    rw [Packet.parseSequence_seq, unnumbered] at seq
    exact seq
  · intro proper
    have good := Segment.good_of_accepted right (proper.marked right) (proper.digits right)
    have first := (frames [] []).2.1 good
    refine ⟨fun body rest first' => ?_, fun absent => absurd first (absent _ _)⟩
    obtain ⟨rfl, rfl⟩ := first.unique first'
    have fresh := parseSequence_eq_new r.seq g.body (proper.own right)
    exact ⟨rfl, rfl, fresh, by rw [fresh, getSequence_parseSequence]⟩

/-- Behind the two characters the next try begins. -/
theorem first_after_iff (kept : ∀ body rest, ¬Begins (g.first :: g.second :: g.rest) body rest)
    (body rest : List Char8) : First (g.first :: g.second :: g.rest) body rest ↔
      First (lead (r.after g).marked ++ (r.after g).stream) body rest := by
  rw [first_cons_iff kept]
  by_cases dollar : g.second = Ch.dollar
  · simp [Retry.after, lead, dollar]
  · rw [first_cons_iff (not_begins_of_ne dollar)]
    simp [Retry.after, lead, dollar]

theorem tryFrom_delivers_iff (acks : flags &&& ignoreAck = 0) (r : Retry) (sent : List Char8) :
    Delivers (lead r.marked ++ r.stream) (tryFrom flags junk r sent) ↔ AllProper junk r := by
  induction len : r.stream.length using Nat.strong_induction_on generalizing r sent with
  | h n ih =>
    cases text : r.segment with
    | none =>
      have nothing := @not_first_of_segment_none
      constructor
      · intro _ r' g reached text'
        cases Relation.ReflTransGen.cases_head reached with
        | inl here =>
          subst here
          cases text.symm.trans text'
        | inr next =>
          obtain ⟨r'', step, later⟩ := next
          cases step with
          | refused text'' wrong => cases text.symm.trans text''
      · intro _
        refine ⟨fun body rest first => ?_, fun _ => (Session.tryFrom_none acks text).1⟩
        exact absurd first (nothing (fun ch member => by cases member) text)
    | some g =>
      rw [allProper_iff text]
      by_cases right : g.Accepted junk
      · rw [delivers_accepted_iff acks text right]
        exact ⟨fun proper => ⟨proper, fun wrong => absurd right wrong⟩, fun parts => parts.1⟩
      · have short := Retry.length_segment text
        have bad : ¬g.Good := fun good => right good.accepted
        have frames (body rest : List Char8) := (@first_segment _ body rest [] r.marked g
          (fun ch member => by cases member) text).2.2 bad
        rw [List.nil_append] at frames
        rw [Session.tryFrom_refused acks text right, Delivers.congr frames]
        by_cases swallowed : ∃ body rest, Begins (g.first :: g.second :: g.rest) body rest
        · -- the packet is longer than what is left for another one
          obtain ⟨body, rest, begins⟩ := swallowed
          constructor
          · intro delivers
            have whole := delivers.first body rest (.here begins)
            have left := Session.tryFrom_length acks _ _ whole.1
            have long := begins.length
            rw [whole.2.1] at left
            have after : (r.after g).stream.length = g.rest.length := rfl
            simp only [List.length_cons] at long
            omega
          · intro parts
            exact absurd begins (parts.1.kept right body rest)
        · have kept (body rest : List Char8) : ¬Begins (g.first :: g.second :: g.rest) body rest :=
            fun begins => swallowed ⟨body, rest, begins⟩
          rw [Delivers.congr (first_after_iff kept), ih _ (by show g.rest.length < n; omega) _ _ rfl]
          constructor
          · intro later
            exact ⟨⟨fun accepted => absurd accepted right, fun accepted => absurd accepted right,
              fun accepted => absurd accepted right, fun _ => kept⟩, fun _ => later⟩
          · intro parts
            exact parts.2 right

theorem first_tossToStart {start : List Char8} (toss : Session.tossToStart stream = some start)
    (body rest : List Char8) : First stream body rest ↔ First (Ch.dollar :: start) body rest := by
  induction stream with
  | nil => cases toss
  | cons ch stream ih =>
    rw [Session.tossToStart] at toss
    split at toss
    · next dollar =>
      cases toss
      rw [dollar]
    · next other =>
      rw [first_cons_iff (not_begins_of_ne other)]
      exact ih toss

theorem not_first_of_tossToStart (toss : Session.tossToStart stream = none) :
    ¬First stream body rest := by
  induction stream with
  | nil => exact fun first => absurd first.length (by simp)
  | cons ch stream ih =>
    rw [Session.tossToStart] at toss
    split at toss
    · cases toss
    · next other =>
      rw [first_cons_iff (not_begins_of_ne other)]
      exact ih toss

theorem getPacket_receives_iff (s : Session) (acks : s.flags &&& ignoreAck = 0) (junk : BitVec 32)
    (stream : List Char8) (pkt : Packet) :
    Delivers stream (s.getPacketAll junk stream pkt) ∧ Acknowledges (s.getPacketAll junk stream pkt) ↔
      Undisturbed junk stream pkt := by
  rw [Session.getPacketAll, Undisturbed]
  cases toss : Session.tossToStart stream with
  | none =>
    constructor
    · intro _ start found
      cases found
    · intro _
      exact ⟨⟨fun body rest first => absurd first (not_first_of_tossToStart toss), fun _ => rfl⟩,
        0, rfl⟩
  | some start =>
    have delivers := @tryFrom_delivers_iff s.flags junk acks ⟨true, pkt.seq, start⟩ []
    constructor
    · intro receives start' found
      cases found
      exact delivers.mp ((Delivers.congr (first_tossToStart toss)).mp receives.1)
    · intro undisturbed
      have acknowledges := @Session.tryFrom_acknowledges s.flags junk acks ⟨true, pkt.seq, start⟩ 0
      exact ⟨(Delivers.congr (first_tossToStart toss)).mpr (delivers.mpr (undisturbed start rfl)),
        acknowledges⟩

/-- `x#00$m#6d`, behind the first `$`: a wrong sum, and a packet. -/
def secondIsPacket : List Char8 :=
  [0x78, 0x23, 0x30, 0x30, 0x24, 0x6d, 0x23, 0x36, 0x64]

/-- `x#00m#6d`: the same without the second `$`. -/
def secondIsNone : List Char8 :=
  [0x78, 0x23, 0x30, 0x30, 0x6d, 0x23, 0x36, 0x64]

theorem getPacket_receives_iff_secondIsPacket :
    let o := Session.getPacketAll ⟨0, 0⟩ 0 (Ch.dollar :: secondIsPacket) Packet.new
    Delivers (Ch.dollar :: secondIsPacket) o ∧ Acknowledges o := by
  apply (getPacket_receives_iff ⟨0, 0⟩ rfl 0 (Ch.dollar :: secondIsPacket) Packet.new).mpr
  intro start found
  cases found
  apply (allProper_iff rfl).mpr
  have wrong : ¬Segment.Accepted 0 ⟨true, [0x78], 0x30, 0x30, secondIsPacket.drop 4⟩ := by decide
  refine ⟨⟨fun right => absurd right wrong, fun right => absurd right wrong,
    fun right => absurd right wrong, fun _ => not_begins_of_ne (by decide)⟩, fun _ => ?_⟩
  apply (allProper_iff rfl).mpr
  have right : Segment.Accepted 0 ⟨true, [0x6d], 0x36, 0x64, []⟩ := by decide
  exact ⟨⟨fun _ => rfl, fun _ => ⟨rfl, rfl⟩, fun _ _ => rfl, fun wrong => absurd right wrong⟩,
    fun wrong => absurd right wrong⟩

/-- After the wrong sum a packet is delivered that no `$` is in front of. -/
theorem getPacket_not_receives :
    ¬∀ (s : Session) (junk : BitVec 32) (stream : List Char8) (pkt : Packet),
      s.flags &&& ignoreAck = 0 → Delivers stream (s.getPacketAll junk stream pkt) ∧
        Acknowledges (s.getPacketAll junk stream pkt) := by
  intro all
  have receives := all ⟨0, 0⟩ 0 (Ch.dollar :: secondIsNone) Packet.new rfl
  have proper := (@tryFrom_delivers_iff 0 0 rfl ⟨true, -1, secondIsNone⟩ []).mp receives.1
  have wrong : ¬Segment.Accepted 0 ⟨true, [0x78], 0x30, 0x30, secondIsNone.drop 4⟩ := by decide
  have second := ((allProper_iff rfl).mp proper).2 wrong
  have marked := ((allProper_iff rfl).mp second).1.marked (by decide)
  exact Bool.noConfusion marked

end SandboxTEE.DebugStub
