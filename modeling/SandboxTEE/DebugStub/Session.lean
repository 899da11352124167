import SandboxTEE.DebugStub.Packet

/-! # Sessions of the debug protocol (`debug_stub/session.cc`)

A packet goes over the wire as `$`, an optional sequence number with a colon, the payload, `#`
and a checksum.  The transport is a stream of characters that takes every write; an end of the
stream is a disconnection.
-/

namespace SandboxTEE.DebugStub

structure Session where
  flags : BitVec 32
  /-- `seq_`, the next sequence number to use. -/
  seq : BitVec 8

namespace Session

def ignoreAck : BitVec 32 := 1
def useSeq : BitVec 32 := 2

/-- The packet as it is sent: with `USE_SEQ` it gets a number when it has none. -/
def number (s : Session) (pkt : Packet) : Packet × Session :=
  if pkt.getSequence = none ∧ s.flags &&& useSeq ≠ 0 then
    (pkt.setSequence s.seq.toNat, { s with seq := s.seq + 1 })
  else (pkt, s)

/-- Two nibbles and a colon. -/
def sequencePrefix (seq : Int) : List Char8 :=
  let byte := BitVec.ofInt 8 seq
  [intToNibble (highNibble byte), intToNibble (lowNibble byte), Ch.colon]

/-- The sum of the characters. -/
def checksum (body : List Char8) : Char8 := body.foldl (· + ·) 0

/-- What is written, with the packet and the session behind the call. -/
def sendPacketOnly (s : Session) (pkt : Packet) : List Char8 × Packet × Session :=
  let (pkt, s) := s.number pkt
  let body := (pkt.getSequence.elim [] sequencePrefix) ++ pkt.getPayload
  let runXsum := checksum body
  (Ch.dollar :: body ++
    [Ch.hash, intToNibble (highNibble runXsum), intToNibble (lowNibble runXsum)], pkt, s)

/-! ## Receiving -/

/-- The characters in front of the first `$` are tossed. -/
def tossToStart : List Char8 → Option (List Char8)
  | [] => none
  | ch :: stream => if ch = Ch.dollar then some stream else tossToStart stream

/-- `IntToNibble` into a NUL. -/
def nibbleOrNul (n : Int) : Char8 :=
  if h : 0 ≤ n ∧ n < 16 then intToNibble ⟨n.toNat, by omega⟩ else Ch.nul

/-- The positive acknowledgement, with the sequence number when there is one. -/
def acknowledge (pkt : Packet) : List Char8 :=
  pkt.getSequence.elim [Ch.plus] fun seq => [Ch.plus, nibbleOrNul (seq / 16), nibbleOrNul (seq % 16)]

/-- The checksum that two characters stand for.  A character that is no digit leaves the variable
    as it is; `junk` is in it before. -/
def readChecksum (junk : BitVec 32) (first second : Char8) : Char8 :=
  let val := ((nibbleToInt first).map (BitVec.ofNat 32)).getD junk
  let finXsum : Char8 := (val <<< 4).setWidth 8
  let val := ((nibbleToInt second).map (BitVec.ofNat 32)).getD val
  finXsum ||| val.setWidth 8

/-- The packet, what was written meanwhile, and the rest of the stream. -/
structure Received where
  packet : Packet
  sent : List Char8
  stream : List Char8

/-- `GetPacket` from its label `retry` on, with the characters that have been read since. -/
def receive (flags junk : BitVec 32) : List Char8 → Packet → Char8 → List Char8 → Option Received
  | [], _, _, _ => none
  | ch :: stream, pkt, runXsum, sent =>
    if ch = Ch.hash then
      match stream with
      | first :: second :: stream =>
        let pkt := pkt.parseSequence
        if flags &&& ignoreAck ≠ 0 then some ⟨pkt, sent, stream⟩
        else if readChecksum junk first second = runXsum then
          some ⟨pkt, sent ++ acknowledge pkt, stream⟩
        else receive flags junk stream pkt.clear 0 (sent ++ [Ch.minus])
      | _ => none
    else if ch = Ch.dollar then receive flags junk stream pkt.clear 0 sent
    else receive flags junk stream (pkt.addRawChar ch) (runXsum + ch) sent

def getPacket (s : Session) (junk : BitVec 32) (stream : List Char8) (pkt : Packet) :
    Option Received := do
  let stream ← tossToStart stream
  receive s.flags junk stream pkt.clear 0 []

end Session

end SandboxTEE.DebugStub
