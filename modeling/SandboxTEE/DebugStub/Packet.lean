import SandboxTEE.Lib.LittleEndian

/-! # Packets of the debug protocol (`debug_stub/packet.cc`, `debug_stub/util.cc`)

A `Packet` is a vector of characters with a read index, a write index and an optional
sequence number.  The vector is the list of the characters below `write_index_` here; behind
them stands a NUL that only `GetString` and `GetPayload` look at.  Characters are the bytes they
are made of: every comparison of the source agrees on `char` and on bytes below 128, and bytes
from 128 on are negative `char`s, which `NibbleToInt` and the run lengths refuse.
-/

namespace SandboxTEE.DebugStub

open SandboxTEE.Lib (Word)

/-- A `char`. -/
abbrev Char8 := BitVec 8

namespace Ch

def nul : Char8 := 0x00
def space : Char8 := 0x20
def hash : Char8 := 0x23
def dollar : Char8 := 0x24
def star : Char8 := 0x2a
def plus : Char8 := 0x2b
def comma : Char8 := 0x2c
def minus : Char8 := 0x2d
def zero : Char8 := 0x30
def one : Char8 := 0x31
def colon : Char8 := 0x3a
def lowerA : Char8 := 0x61
def upperA : Char8 := 0x41
def brace : Char8 := 0x7d

end Ch

/-! ## Nibbles -/

/-- `IntToNibble`, which all callers give a value below 16. -/
def intToNibble (nibble : Fin 16) : Char8 :=
  if nibble.val < 10 then Ch.zero + BitVec.ofNat 8 nibble.val
  else Ch.lowerA + BitVec.ofNat 8 (nibble.val - 10)

def nibbleToInt (ch : Char8) : Option Nat :=
  if 0x61 ≤ ch.toNat ∧ ch.toNat ≤ 0x66 then some (ch.toNat - 0x61 + 10)
  else if 0x41 ≤ ch.toNat ∧ ch.toNat ≤ 0x46 then some (ch.toNat - 0x41 + 10)
  else if 0x30 ≤ ch.toNat ∧ ch.toNat ≤ 0x39 then some (ch.toNat - 0x30)
  else none

/-- `ch >> 4` and `ch & 0xF` of a byte. -/
def highNibble (ch : Char8) : Fin 16 := ⟨ch.toNat / 16, by have := ch.isLt; omega⟩
def lowNibble (ch : Char8) : Fin 16 := ⟨ch.toNat % 16, by omega⟩

@[simp] theorem nibbleToInt_intToNibble (nibble : Fin 16) :
    nibbleToInt (intToNibble nibble) = some nibble.val := by
  revert nibble
  decide

/-! ## The packet -/

structure Packet where
  /-- `seq_`; -1 when no sequence number is set. -/
  seq : Int
  /-- `data_[0 .. write_index_)`. -/
  data : List Char8
  readIndex : Nat
deriving DecidableEq

namespace Packet

/-- `Packet()`. -/
def new : Packet := ⟨-1, [], 0⟩

/-- `Clear`, which does not touch `seq_`. -/
def clear (p : Packet) : Packet := { p with data := [], readIndex := 0 }

def rewind (p : Packet) : Packet := { p with readIndex := 0 }

def endOfPacket (p : Packet) : Bool := decide (p.data.length ≤ p.readIndex)

def setSequence (p : Packet) (val : Int) : Packet := { p with seq := val }

def getSequence (p : Packet) : Option Int := if p.seq ≠ -1 then some p.seq else none

/-- `GetPayload` with `GetPayloadSize`: all the characters, those already read included. -/
def getPayload (p : Packet) : List Char8 := p.data

/-! ### Adding fields -/

def addRawChar (p : Packet) (ch : Char8) : Packet := { p with data := p.data ++ [ch] }

@[simp] theorem addRawChar_data (p : Packet) (ch : Char8) :
    (p.addRawChar ch).data = p.data ++ [ch] := rfl

def addWord8 (p : Packet) (ch : Char8) : Packet :=
  (p.addRawChar (intToNibble (highNibble ch))).addRawChar (intToNibble (lowNibble ch))

def addBlock (p : Packet) (block : List Char8) : Packet := block.foldl addWord8 p

/-- `AddWord16`, `AddWord32`, `AddWord64`: the bytes of the word as they lie in memory. -/
def addWord {n : Nat} (p : Packet) (val : Word n) : Packet := p.addBlock val.bytes

/-- `AddString` of the characters before the terminating NUL. -/
def addString (p : Packet) (str : List Char8) : Packet := str.foldl addRawChar p

/-- `AddHexString` of the characters before the terminating NUL. -/
def addHexString (p : Packet) (str : List Char8) : Packet := str.foldl addWord8 p

theorem lowNibble_lt (val : Nat) : val % 16 < 16 := by omega

theorem highNibble_lt (val : Nat) : val / 16 % 16 < 16 := by omega

/-- The array `out` of `AddNumberSep`: the nibbles of `val`, the least significant first, two
    for each byte until the rest of the number is zero. -/
def numberNibbles : Nat → Nat → List Char8
  | 0, _ => []
  | bytes + 1, val =>
    intToNibble ⟨val % 16, lowNibble_lt val⟩ :: intToNibble ⟨val / 16 % 16, highNibble_lt val⟩ ::
      if val / 256 = 0 then [] else numberNibbles bytes (val / 256)

/-- The high zero of the last byte is not sent. -/
def stripHighZero (out : List Char8) : List Char8 :=
  if 1 < out.length ∧ out.getLast? = some Ch.zero then out.dropLast else out

def addNumberSep (p : Packet) (val : BitVec 64) (sep : Char8) : Packet :=
  let p :=
    if val = -1 then (p.addRawChar Ch.minus).addRawChar Ch.one
    else (stripHighZero (numberNibbles 8 val.toNat)).reverse.foldl addRawChar p
  if sep ≠ Ch.nul then p.addRawChar sep else p

/-- The characters `AddEscapedData` puts `}` in front of. -/
def needsEscape (ch : Char8) : Bool :=
  ch = Ch.brace || ch = Ch.hash || ch = Ch.dollar || ch = Ch.star

/-- How many of the next characters equal `ch`, up to 97. -/
def runCount (ch : Char8) (data : List Char8) : Nat :=
  min 97 (data.takeWhile (· = ch)).length

/-- Lengths whose count character would be `#` or `$` are clipped. -/
def clipCount (count : Nat) : Nat := if count = 6 ∨ count = 7 then 5 else count

/-- The loop of `AddEscapedData`; the next `skip` characters belong to a run already sent. -/
def addEscapedLoop (p : Packet) : List Char8 → Nat → Packet
  | [], _ => p
  | _ :: data, skip + 1 => addEscapedLoop p data skip
  | ch :: data, 0 =>
    let p :=
      if needsEscape ch then (p.addRawChar Ch.brace).addRawChar (ch ^^^ 0x20) else p.addRawChar ch
    let count := runCount ch data
    if 3 ≤ count then
      let count := clipCount count
      addEscapedLoop ((p.addRawChar Ch.star).addRawChar (BitVec.ofNat 8 (count + 29))) data count
    else addEscapedLoop p data 0

def addEscapedData (p : Packet) (data : List Char8) : Packet := addEscapedLoop p data 0

/-! ### Reading fields -/

/-- A `char *` that a function writes through: the result, the variable behind the call, and the
    packet. -/
structure CharRead where
  ok : Bool
  ch : Char8
  packet : Packet

/-- `GetRawChar`.  A run `X*N` is written out in place when its `*` is met, and a failure there
    leaves the `*` in the caller's variable. -/
def getRawChar (p : Packet) (ch : Char8) : CharRead :=
  match p.data[p.readIndex]? with
  | none => ⟨false, ch, p⟩
  | some ch =>
    let p := { p with readIndex := p.readIndex + 1 }
    if ch = Ch.star then
      if p.readIndex < 2 then ⟨false, ch, p⟩
      else
        match p.data[p.readIndex]? with
        | none => ⟨false, ch, p⟩
        | some n =>
          if n.toInt - 28 < 3 then ⟨false, ch, p⟩
          else
            let x := p.data.getD (p.readIndex - 2) Ch.nul
            ⟨true, x, { p with
              data := p.data.take (p.readIndex - 1) ++ List.replicate (n.toNat - 29) x ++
                p.data.drop (p.readIndex + 1) }⟩
    else ⟨true, ch, p⟩

/-- `GetWord8`; the variable is written on success only. -/
def getWord8 (p : Packet) : Option Char8 × Packet :=
  let first := p.getRawChar Ch.nul
  if first.ok = false then (none, first.packet)
  else
    let second := first.packet.getRawChar Ch.nul
    if second.ok = false then (none, second.packet)
    else
      match nibbleToInt first.ch, nibbleToInt second.ch with
      | some val1, some val2 => (some (BitVec.ofNat 8 (val1 * 16 + val2)), second.packet)
      | _, _ => (none, second.packet)

/-- `GetBlock` into memory that holds `old`. -/
def getBlock (p : Packet) : List Char8 → Bool × List Char8 × Packet
  | [] => (true, [], p)
  | o :: old =>
    match p.getWord8 with
    | (none, p) => (false, o :: old, p)
    | (some byte, p) =>
      let rest := p.getBlock old
      (rest.1, byte :: rest.2.1, rest.2.2)

/-- `GetWord16`, `GetWord32`, `GetWord64`. -/
def getWord (n : Nat) (p : Packet) : Option (Word n) × Packet :=
  let block := p.getBlock (List.replicate n Ch.nul)
  (if block.1 then some (Word.ofBytes n block.2.1) else none, block.2.2)

/-- A bound for the characters that can still be read: one character of the packet stands for
    99 of them at most. -/
def readBound (p : Packet) : Nat := 100 * (p.data.length - p.readIndex) + 1

/-- The loop of `GetNumberSep`; it ends with the number and with the character behind it. -/
def getNumberLoop : Nat → Packet → Char8 → BitVec 64 → BitVec 64 × Char8 × Packet
  | 0, p, ch, out => (out, ch, p)
  | fuel + 1, p, ch, out =>
    match nibbleToInt ch with
    | none => (out, ch, p)
    | some nib =>
      let out := (out <<< 4) + BitVec.ofNat 64 nib
      let next := p.getRawChar Ch.nul
      if next.ok then getNumberLoop fuel next.packet next.ch out else (out, next.ch, next.packet)

/-- The number and the separator, NUL when there is none. -/
def getNumberSep (p : Packet) : Option (BitVec 64 × Char8) × Packet :=
  let first := p.getRawChar Ch.nul
  if first.ok = false then (none, first.packet)
  else if first.ch = Ch.minus then
    let second := first.packet.getRawChar first.ch
    if second.ok = false then (none, second.packet)
    else if second.ch = Ch.one then
      let sep := second.packet.getRawChar Ch.nul
      (some (-1, sep.ch), sep.packet)
    else (none, second.packet)
  else
    let (out, sep, p) := getNumberLoop p.readBound first.packet first.ch 0
    (some (out, sep), p)

/-- `GetString`: the C string that starts at the read index. -/
def getString (p : Packet) : Option (List Char8) × Packet :=
  if p.endOfPacket then (none, p)
  else (some ((p.data.drop p.readIndex).takeWhile (· ≠ Ch.nul)),
    { p with readIndex := p.data.length })

def getHexLoop : Nat → Packet → List Char8 → Option (List Char8) × Packet
  | 0, p, str => (some str, p)
  | fuel + 1, p, str =>
    let first := p.getRawChar Ch.nul
    if first.ok = false then (some str, first.packet)
    else
      match nibbleToInt first.ch with
      | none => (some str, { first.packet with readIndex := first.packet.readIndex - 1 })
      | some nib1 =>
        let second := first.packet.getRawChar Ch.nul
        if second.ok = false then (none, second.packet)
        else
          match nibbleToInt second.ch with
          | none => (none, second.packet)
          | some nib2 => getHexLoop fuel second.packet (str ++ [BitVec.ofNat 8 (nib1 * 16 + nib2)])

def getHexString (p : Packet) : Option (List Char8) × Packet :=
  if p.endOfPacket then (none, p) else getHexLoop p.readBound p []

/-- `ParseSequence`: two digits and a colon are a sequence number. -/
def parseSequence (p : Packet) : Packet :=
  match p.getWord8 with
  | (none, q) => { q with readIndex := p.readIndex }
  | (some seq, q) =>
    let next := q.getRawChar Ch.nul
    if next.ok ∧ next.ch = Ch.colon then next.packet.setSequence seq.toNat
    else { next.packet with readIndex := p.readIndex }

end Packet

end SandboxTEE.DebugStub
