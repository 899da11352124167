import SandboxTEE.DebugStub.Fields
import SandboxTEE.DebugStub.Session

/-! # Packets sent and received

A packet made of fields comes out of `GetPacket` as it went into `SendPacketOnly`, except for
three things (`packet_roundTrip_iff`).  A payload that starts like a sequence number is taken for
one; a packet without a number leaves the number that the receiving packet had before; and behind
a real number, `GetPayload` still starts with its three characters.
-/

namespace SandboxTEE.DebugStub

open SandboxTEE.Lib (Word)

/-! ## Fields -/

/-- A printable character that can stand behind a number. -/
structure Separator where
  ch : Char8
  printable : 0x20 ≤ ch.toNat ∧ ch.toNat ≤ 0x7e
  noDigit : nibbleToInt ch = none
  plain : ch ≠ Ch.minus ∧ ch ≠ Ch.hash ∧ ch ≠ Ch.dollar ∧ ch ≠ Ch.star

inductive Field where
  | word8 (val : Char8)
  | word16 (val : Word 2)
  | word32 (val : Word 4)
  | word64 (val : Word 8)
  | block (bytes : List Char8)
  | numberSep (val : BitVec 64) (sep : Separator)

/-- A field that goes to the end of the packet.  C strings have no NUL inside. -/
inductive LastField where
  | hexString (str : List Char8) (some : str ≠ []) (noNul : ∀ c ∈ str, c ≠ Ch.nul)
  | string (str : List Char8) (noNul : ∀ c ∈ str, c ≠ Ch.nul)
      (plain : ∀ c ∈ str, c ≠ Ch.hash ∧ c ≠ Ch.dollar ∧ c ≠ Ch.star)

/-- What a `Get` function returns. -/
inductive Value where
  | word8 (val : Char8)
  | word16 (val : Word 2)
  | word32 (val : Word 4)
  | word64 (val : Word 8)
  | block (bytes : List Char8)
  | numberSep (val : BitVec 64) (sep : Char8)
  | string (str : List Char8)
deriving DecidableEq

namespace Field

def add (p : Packet) : Field → Packet
  | word8 val => p.addWord8 val
  | word16 val => p.addWord val
  | word32 val => p.addWord val
  | word64 val => p.addWord val
  | block bytes => p.addBlock bytes
  | numberSep val sep => p.addNumberSep val sep.ch

/-- The matching `Get` call; a block is read into memory of its size. -/
def get (p : Packet) : Field → Option Value × Packet
  | word8 _ => (p.getWord8.1.map .word8, p.getWord8.2)
  | word16 _ => ((p.getWord 2).1.map .word16, (p.getWord 2).2)
  | word32 _ => ((p.getWord 4).1.map .word32, (p.getWord 4).2)
  | word64 _ => ((p.getWord 8).1.map .word64, (p.getWord 8).2)
  | block bytes =>
    let read := p.getBlock (List.replicate bytes.length Ch.nul)
    (if read.1 then some (.block read.2.1) else none, read.2.2)
  | numberSep _ _ => (p.getNumberSep.1.map fun r => .numberSep r.1 r.2, p.getNumberSep.2)

def value : Field → Value
  | word8 val => .word8 val
  | word16 val => .word16 val
  | word32 val => .word32 val
  | word64 val => .word64 val
  | block bytes => .block bytes
  | numberSep val sep => .numberSep val sep.ch

def chars : Field → List Char8
  | word8 val => Packet.hexByte val
  | word16 val => val.bytes.flatMap Packet.hexByte
  | word32 val => val.bytes.flatMap Packet.hexByte
  | word64 val => val.bytes.flatMap Packet.hexByte
  | block bytes => bytes.flatMap Packet.hexByte
  | numberSep val sep => Packet.numberChars val ++ [sep.ch]

end Field

namespace LastField

def add (p : Packet) : LastField → Packet
  | hexString str _ _ => p.addHexString str
  | string str _ _ => p.addString str

def get (p : Packet) : LastField → Option Value × Packet
  | hexString _ _ _ => (p.getHexString.1.map .string, p.getHexString.2)
  | string _ _ _ => (p.getString.1.map .string, p.getString.2)

def value : LastField → Value
  | hexString str _ _ | string str _ _ => .string str

def chars : LastField → List Char8
  | hexString str _ _ => str.flatMap Packet.hexByte
  | string str _ _ => str

/-- `GetString` fails at the end of a packet. -/
def Some : LastField → Prop
  | hexString _ _ _ => True
  | string str _ _ => str ≠ []

end LastField

/-- The fields of a packet. -/
structure Message where
  fields : List Field
  last : Option LastField

namespace Message

def addTo (m : Message) (p : Packet) : Packet :=
  let p := m.fields.foldl Field.add p
  m.last.elim p fun last => last.add p

/-- The matching `Get` calls in the same order, with what they return. -/
def getFields : List Field → Packet → Option (List Value) × Packet
  | [], p => (some [], p)
  | f :: fields, p =>
    match f.get p with
    | (none, p) => (none, p)
    | (some v, p) => ((getFields fields p).1.map (v :: ·), (getFields fields p).2)

def getFrom (m : Message) (p : Packet) : Option (List Value) × Packet :=
  match getFields m.fields p, m.last with
  | (some vs, p), some last => ((last.get p).1.map fun v => vs ++ [v], (last.get p).2)
  | r, _ => r

def values (m : Message) : List Value :=
  m.fields.map Field.value ++ m.last.toList.map LastField.value

def chars (m : Message) : List Char8 :=
  m.fields.flatMap Field.chars ++ m.last.elim [] LastField.chars

end Message

/-! ## Adding and reading -/

theorem Field.add_eq (p : Packet) (f : Field) : f.add p = p.append f.chars := by
  cases f with
  | word8 val => exact p.addWord8_eq val
  | word16 val => exact p.addBlock_eq _
  | word32 val => exact p.addBlock_eq _
  | word64 val => exact p.addBlock_eq _
  | block bytes => exact p.addBlock_eq bytes
  | numberSep val sep =>
    refine p.addNumberSep_eq val fun nul => ?_
    have := sep.printable
    rw [nul] at this
    exact absurd this (by decide)

theorem LastField.add_eq (p : Packet) (f : LastField) : f.add p = p.append f.chars := by
  cases f with
  | hexString str _ _ => exact p.addHexString_eq str
  | string str _ _ => exact p.addString_eq str

theorem Message.addTo_eq (m : Message) (p : Packet) : m.addTo p = p.append m.chars := by
  have fields : ∀ (fs : List Field) (p : Packet),
      fs.foldl Field.add p = p.append (fs.flatMap Field.chars) := by
    intro fs
    induction fs with
    | nil => exact fun p => p.append_nil.symm
    | cons f fs ih =>
      intro p
      rw [List.foldl_cons, ih, Field.add_eq, Packet.append_append, List.flatMap_cons]
  rw [Message.addTo, fields, Message.chars, ← Packet.append_append]
  cases m.last with
  | none => exact (Packet.append_nil _).symm
  | some last => exact last.add_eq _

variable {p : Packet}

variable {rest : List Char8}

theorem Field.get_of_unread {f : Field} (here : p.unread = f.chars ++ rest) :
    f.get p = (some f.value, p.skip f.chars.length) := by
  cases f with
  | word8 val => simp [Field.get, Packet.getWord8_of_unread here, Field.value, Field.chars,
      Packet.hexByte]
  | word16 val => simp only [Field.get, Packet.getWord_of_unread here]; rfl
  | word32 val => simp only [Field.get, Packet.getWord_of_unread here]; rfl
  | word64 val => simp only [Field.get, Packet.getWord_of_unread here]; rfl
  | block bytes =>
    simp only [Field.get, Packet.getBlock_of_unread here (List.length_replicate ..), if_true]
    rfl
  | numberSep val sep =>
    have read := Packet.getNumberSep_of_unread (by simpa [Field.chars] using here) sep.noDigit
      sep.plain.2.2.2
    simp [Field.get, read, Field.value, Field.chars]

variable {f : LastField}

theorem LastField.get_of_unread (here : p.unread = f.chars) (something : f.Some) :
    f.get p = (some f.value, p.skip f.chars.length) := by
  cases f with
  | hexString str nonempty noNul =>
    simp only [LastField.get, Packet.getHexString_of_unread here nonempty]
    rfl
  | string str noNul plain =>
    simp only [LastField.get, Packet.getString_of_unread here something noNul]
    rfl

theorem Message.getFields_of_unread {fields : List Field}
    (here : p.unread = fields.flatMap Field.chars ++ rest) : Message.getFields fields p =
      (some (fields.map Field.value), p.skip (fields.flatMap Field.chars).length) := by
  induction fields generalizing p with
  | nil => rfl
  | cons f fields ih =>
    rw [List.flatMap_cons, List.append_assoc] at here
    rw [Message.getFields, Field.get_of_unread here]
    simp only
    rw [ih (Packet.unread_tail here), Packet.skip_skip, List.flatMap_cons, List.length_append]
    rfl

/-- `GetString` does not read an empty string. -/
theorem LastField.get_of_end (here : p.unread = f.chars) (nothing : ¬ f.Some) :
    (f.get p).1 = none := by
  cases f with
  | hexString str nonempty noNul => exact absurd trivial nothing
  | string str noNul plain =>
    have empty : p.unread = [] := here.trans (not_not.mp nothing)
    have past : p.endOfPacket = true := by
      simpa [Packet.endOfPacket, Packet.unread] using empty
    simp [LastField.get, Packet.getString, past]

/-- All the `Get` calls return what was put in, and then the packet is at its end. -/
def Message.ReadsFrom (m : Message) (p : Packet) : Prop :=
  (m.getFrom p).1 = some m.values ∧ (m.getFrom p).2.endOfPacket = true

theorem Packet.endOfPacket_skip {chars : List Char8} (here : p.unread = chars) :
    (p.skip chars.length).endOfPacket = true := by
  have := p.length_unread
  rw [here] at this
  refine decide_eq_true ?_
  change p.data.length ≤ p.readIndex + chars.length
  omega

variable {m : Message}

theorem Message.readsFrom_iff (here : p.unread = m.chars) :
    m.ReadsFrom p ↔ ∀ last ∈ m.last, last.Some := by
  have fields := Message.getFields_of_unread here
  have after := Packet.unread_tail here
  have ends := Packet.endOfPacket_skip here
  rw [Message.ReadsFrom, Message.getFrom, fields, Message.values]
  rw [Message.chars, List.length_append, ← Packet.skip_skip] at ends
  generalize p.skip (m.fields.flatMap Field.chars).length = q at after ends ⊢
  cases last : m.last with
  | none =>
    rw [last] at ends
    exact iff_of_true ⟨by rw [Option.toList_none, List.map_nil, List.append_nil], ends⟩ nofun
  | some f =>
    rw [last] at after ends
    simp only [Option.mem_def, Option.some.injEq, forall_eq', Option.toList_some, List.map_cons,
      List.map_nil]
    by_cases something : f.Some
    · rw [LastField.get_of_unread after something]
      exact iff_of_true ⟨rfl, ends⟩ something
    · rw [LastField.get_of_end after something]
      exact iff_of_false (fun reads => nomatch reads.1) something

/-! ## Through the wire -/

/-- Characters that neither end a packet nor mean anything else inside it. -/
def Plain (chars : List Char8) : Prop :=
  ∀ c ∈ chars, c ≠ Ch.star ∧ c ≠ Ch.hash ∧ c ≠ Ch.dollar

theorem Plain.append {xs ys : List Char8} (left : Plain xs) (right : Plain ys) :
    Plain (xs ++ ys) := fun c mem => (List.mem_append.mp mem).elim (left c) (right c)

theorem plain_digits (digits : List (Fin 16)) : Plain (digits.map intToNibble) := by
  intro c mem
  obtain ⟨digit, -, rfl⟩ := List.mem_map.mp mem
  have := Packet.intToNibble_plain digit
  exact ⟨this.1, this.2.1, this.2.2.1⟩

theorem plain_hexBytes (bytes : List Char8) : Plain (bytes.flatMap Packet.hexByte) := by
  induction bytes with
  | nil => exact fun c mem => absurd mem List.not_mem_nil
  | cons byte bytes ih =>
    rw [List.flatMap_cons]
    exact Plain.append (plain_digits [_, _]) ih

theorem Field.plain_chars (f : Field) : Plain f.chars := by
  cases f with
  | word8 val => exact plain_digits [_, _]
  | word16 val => exact plain_hexBytes _
  | word32 val => exact plain_hexBytes _
  | word64 val => exact plain_hexBytes _
  | block bytes => exact plain_hexBytes _
  | numberSep val sep =>
    refine Plain.append ?_ ?_
    · unfold Packet.numberChars
      split
      · unfold Plain
        decide
      · exact plain_digits _
    · intro c mem
      rw [List.mem_singleton.mp mem]
      exact ⟨sep.plain.2.2.2, sep.plain.2.1, sep.plain.2.2.1⟩

theorem LastField.plain_chars (f : LastField) : Plain f.chars := by
  cases f with
  | hexString str nonempty noNul => exact plain_hexBytes str
  | string str noNul plain =>
    intro c mem
    obtain ⟨hash, dollar, star⟩ := plain c mem
    exact ⟨star, hash, dollar⟩

theorem Message.plain_chars (m : Message) : Plain m.chars := by
  have fields : ∀ fs : List Field, Plain (fs.flatMap Field.chars) := by
    intro fs
    induction fs with
    | nil => exact fun c mem => absurd mem List.not_mem_nil
    | cons f fs ih =>
      rw [List.flatMap_cons]
      exact Plain.append f.plain_chars ih
  refine Plain.append (fields m.fields) ?_
  cases m.last with
  | none => exact fun c mem => absurd mem List.not_mem_nil
  | some last => exact last.plain_chars

theorem Message.plain_numbered (m : Message) (byte : Char8) :
    Plain (Packet.hexByte byte ++ Ch.colon :: m.chars) :=
  Plain.append (plain_digits [_, _])
    (Plain.append (show Plain [Ch.colon] by unfold Plain; decide) m.plain_chars)

namespace Session

theorem receive_cons (flags junk : BitVec 32) {ch : Char8} (hash : ch ≠ Ch.hash)
    (dollar : ch ≠ Ch.dollar) (stream : List Char8) (pkt : Packet) (xsum : Char8)
    (sent : List Char8) : receive flags junk (ch :: stream) pkt xsum sent =
      receive flags junk stream (pkt.addRawChar ch) (xsum + ch) sent := by
  conv_lhs => unfold receive
  exact (if_neg hash).trans (if_neg dollar)

theorem receive_hash (flags junk : BitVec 32) (first second : Char8) (stream : List Char8)
    (pkt : Packet) (xsum : Char8) (sent : List Char8)
    (sums : readChecksum junk first second = xsum) :
    ∃ sent', receive flags junk (Ch.hash :: first :: second :: stream) pkt xsum sent =
      some ⟨pkt.parseSequence, sent', stream⟩ := by
  unfold receive
  simp only [if_true, sums]
  split
  · exact ⟨sent, rfl⟩
  · exact ⟨_, rfl⟩

variable {body : List Char8}

/-- The loop of `GetPacket` collects plain characters and sums them up. -/
theorem receive_plain (flags junk : BitVec 32) (plain : Plain body) (stream : List Char8)
    (pkt : Packet) (xsum : Char8) (sent : List Char8) :
    receive flags junk (body ++ stream) pkt xsum sent =
      receive flags junk stream (pkt.append body) (body.foldl (· + ·) xsum) sent := by
  induction body generalizing pkt xsum with
  | nil => rw [Packet.append_nil]; rfl
  | cons ch body ih =>
    obtain ⟨-, hash, dollar⟩ := plain ch List.mem_cons_self
    rw [List.cons_append, receive_cons _ _ hash dollar, ih fun c mem => plain c (List.mem_cons_of_mem _ mem)]
    exact congrArg (receive flags junk stream · _ sent) (pkt.append_append [ch] body)

/-- The two digits behind `#` give the checksum back. -/
theorem readChecksum_nibbles (junk : BitVec 32) (xsum : Char8) :
    readChecksum junk (intToNibble (highNibble xsum)) (intToNibble (lowNibble xsum)) = xsum := by
  simp only [readChecksum, nibbleToInt_intToNibble, Option.map_some, Option.getD_some]
  revert xsum
  decide +kernel

/-- The characters around the body of a packet. -/
def frame (body : List Char8) : List Char8 :=
  Ch.dollar :: body ++
    [Ch.hash, intToNibble (highNibble (checksum body)), intToNibble (lowNibble (checksum body))]

/-- A packet whose characters are plain arrives at the first try. -/
theorem getPacket_of_body (peer : Session) (junk : BitVec 32) (plain : Plain body)
    (rest : List Char8) (pkt : Packet) : ∃ sent, peer.getPacket junk (frame body ++ rest) pkt =
      some ⟨(pkt.clear.append body).parseSequence, sent, rest⟩ := by
  have start : ∀ stream, tossToStart (Ch.dollar :: stream) = some stream := fun _ => if_pos rfl
  rw [frame, List.cons_append, List.cons_append, List.append_assoc, getPacket, start]
  simp only [Option.bind_eq_bind, Option.bind_some]
  rw [receive_plain _ _ plain]
  exact receive_hash _ _ _ _ _ _ _ _ (readChecksum_nibbles junk _)

end Session

/-! ## The sequence number -/

/-- Two digits and a colon in front. -/
def LooksNumbered (chars : List Char8) : Prop :=
  ∃ first second rest, chars = first :: second :: Ch.colon :: rest ∧
    (nibbleToInt first).isSome ∧ (nibbleToInt second).isSome

namespace Packet

variable {p : Packet}

variable {rest : List Char8}

theorem getWord8_of_digits {first second : Char8} {n1 n2 : Nat}
    (here : p.unread = first :: second :: rest) (digit1 : nibbleToInt first = some n1)
    (digit2 : nibbleToInt second = some n2) :
    p.getWord8 = (some (BitVec.ofNat 8 (n1 * 16 + n2)), p.skip 2) := by
  have noStar : ∀ {ch : Char8} {n : Nat}, nibbleToInt ch = some n → ch ≠ Ch.star := by
    rintro ch n digit rfl
    revert digit
    exact nofun
  have read1 := getRawChar_of_unread here (noStar digit1) Ch.nul
  have read2 := getRawChar_of_unread (p := p.skip 1) (by rw [unread_skip, here]; rfl)
    (noStar digit2) Ch.nul
  simp [getWord8, read1, read2, digit1, digit2]

/-- Two digits and a colon are taken for a sequence number, whoever put them there. -/
theorem parseSequence_of_looksNumbered (looks : LooksNumbered p.unread) :
    ∃ byte : Char8, p.parseSequence = (p.skip 3).setSequence byte.toNat := by
  obtain ⟨first, second, rest, here, digit1, digit2⟩ := looks
  obtain ⟨n1, digit1⟩ := Option.isSome_iff_exists.mp digit1
  obtain ⟨n2, digit2⟩ := Option.isSome_iff_exists.mp digit2
  have colon := getRawChar_of_unread (p := p.skip 2)
    (by rw [unread_skip, here]; rfl) (by decide) Ch.nul
  refine ⟨BitVec.ofNat 8 (n1 * 16 + n2), ?_⟩
  rw [parseSequence, getWord8_of_digits here digit1 digit2]
  simp [colon]

theorem parseSequence_of_prefix {byte : Char8}
    (here : p.unread = hexByte byte ++ Ch.colon :: rest) :
    p.parseSequence = (p.skip 3).setSequence byte.toNat := by
  have colon := getRawChar_of_unread (p := p.skip 2)
    (by rw [unread_skip, here]; rfl) (by decide) Ch.nul
  rw [parseSequence, getWord8_of_unread here]
  simp [colon]

theorem parseSequence_of_not_looksNumbered (plain : Plain p.unread)
    (other : ¬ LooksNumbered p.unread) : p.parseSequence = p := by
  cases here : p.unread with
  | nil => simp [parseSequence, getWord8, getRawChar_of_end here]
  | cons first rest =>
    rw [here] at plain other
    have read1 := getRawChar_of_unread here (plain first List.mem_cons_self).1 Ch.nul
    have here1 : (p.skip 1).unread = rest := by rw [unread_skip, here]; rfl
    cases rest with
    | nil =>
      have read2 := getRawChar_of_end here1 Ch.nul
      simp [parseSequence, getWord8, read1, read2]
    | cons second rest =>
      have read2 := getRawChar_of_unread here1 (plain second (by simp)).1 Ch.nul
      have here2 : (p.skip 2).unread = rest := by rw [unread_skip, here]; rfl
      cases digit1 : nibbleToInt first with
      | none => simp [parseSequence, getWord8, read1, read2, digit1]
      | some n1 =>
        cases digit2 : nibbleToInt second with
        | none => simp [parseSequence, getWord8, read1, read2, digit1, digit2]
        | some n2 =>
          have word := getWord8_of_digits here digit1 digit2
          cases rest with
          | nil =>
            have read3 := getRawChar_of_end here2 Ch.nul
            simp [parseSequence, word, read3]
          | cons third rest =>
            have read3 := getRawChar_of_unread here2 (plain third (by simp)).1 Ch.nul
            have noColon : third ≠ Ch.colon := by
              rintro rfl
              exact other ⟨first, second, rest, rfl, by simp [digit1], by simp [digit2]⟩
            simp [parseSequence, word, read3, noColon]

end Packet

/-! ## The round trip -/

/-- A packet made of fields, with a sequence number or without. -/
def Message.packet (m : Message) (seq : Option (Fin 256)) : Packet :=
  m.addTo (seq.elim Packet.new fun n => Packet.new.setSequence n.val)

theorem Message.packet_eq (m : Message) (seq : Option (Fin 256)) :
    m.packet seq = ⟨seq.elim (-1) fun n => n.val, m.chars, 0⟩ := by
  rw [Message.packet, Message.addTo_eq]
  cases seq with
  | none => rfl
  | some n => rfl

namespace Session

/-- A packet is sent with a number when it has one or the session gives it one. -/
def Numbered (s : Session) (seq : Option (Fin 256)) : Prop :=
  seq ≠ none ∨ s.flags &&& useSeq ≠ 0

variable {seq : Option (Fin 256)} {s : Session}

theorem sendPacketOnly_of_not_numbered (bare : ¬ s.Numbered seq) (m : Message) :
    (s.sendPacketOnly (m.packet seq)).1 = frame m.chars ∧
      (s.sendPacketOnly (m.packet seq)).2.1.getSequence = none := by
  simp only [Numbered, not_or, not_not] at bare
  rw [m.packet_eq, bare.1]
  simp [sendPacketOnly, number, bare.2, Packet.getSequence, Packet.getPayload, frame]

theorem sendPacketOnly_of_numbered (numbered : s.Numbered seq) (m : Message) : ∃ byte : Char8,
      (s.sendPacketOnly (m.packet seq)).1 = frame (Packet.hexByte byte ++ Ch.colon :: m.chars) ∧
      (s.sendPacketOnly (m.packet seq)).2.1.getSequence = some (byte.toNat : Int) := by
  have someByte : ∀ byte : Char8, (byte.toNat : Int) ≠ -1 := fun byte => by omega
  have back : ∀ byte : Char8, sequencePrefix byte.toNat = Packet.hexByte byte ++ [Ch.colon] := by
    intro byte
    rw [sequencePrefix, BitVec.ofInt_natCast, BitVec.ofNat_toNat, BitVec.setWidth_eq]
    rfl
  rw [m.packet_eq]
  cases seq with
  | some n =>
    -- the number of the packet, which is in 0..255
    have byte : (n.val : Int) = ((BitVec.ofNat 8 n.val).toNat : Int) := by
      rw [BitVec.toNat_ofNat, Nat.mod_eq_of_lt n.isLt]
    refine ⟨BitVec.ofNat 8 n.val, ?_⟩
    rw [Option.elim_some, byte]
    generalize BitVec.ofNat 8 n.val = byte
    simp [sendPacketOnly, number, Packet.getSequence, Packet.getPayload, someByte, back, frame]
  | none =>
    -- the number of the session
    have given : s.number ⟨-1, m.chars, 0⟩ =
        (⟨s.seq.toNat, m.chars, 0⟩, { s with seq := s.seq + 1 }) :=
      if_pos ⟨rfl, numbered.resolve_left (· rfl)⟩
    refine ⟨s.seq, ?_⟩
    rw [Option.elim_none, sendPacketOnly, given]
    simp [Packet.getSequence, Packet.getPayload, someByte, back, frame]

end Session

theorem Packet.getSequence_byte (byte : Char8) (data : List Char8) (readIndex : Nat) :
    (Packet.mk byte.toNat data readIndex).getSequence = some (byte.toNat : Int) :=
  have number : (byte.toNat : Int) ≠ -1 := by omega
  if_pos number

/-- The packet that arrives, for a body that is sent without a number. -/
theorem received_of_not_numbered {rx : Packet} (other : ¬ LooksNumbered m.chars) :
    (rx.clear.append m.chars).parseSequence = ⟨rx.seq, m.chars, 0⟩ :=
  Packet.parseSequence_of_not_looksNumbered m.plain_chars other

theorem received_of_looksNumbered (rx : Packet) (looks : LooksNumbered m.chars) : ∃ byte : Char8,
      (rx.clear.append m.chars).parseSequence = ⟨byte.toNat, m.chars, 3⟩ :=
  Packet.parseSequence_of_looksNumbered looks

theorem received_of_numbered (m : Message) (rx : Packet) (byte : Char8) :
    (rx.clear.append (Packet.hexByte byte ++ Ch.colon :: m.chars)).parseSequence =
      ⟨byte.toNat, Packet.hexByte byte ++ Ch.colon :: m.chars, 3⟩ :=
  Packet.parseSequence_of_prefix rfl

/-- The packet arrives with the same number and payload exactly when it is sent without a number,
    the receiving packet has none from before, and the payload does not look like one.  For the
    number and the values alone, a packet sent with a number needs nothing.  The `Get` calls need a
    last string that is not empty. -/
theorem packet_roundTrip_iff (m : Message) (seq : Option (Fin 256)) (s peer : Session)
    (junk : BitVec 32) (rx : Packet) (rest : List Char8) :
    ∃ received, peer.getPacket junk ((s.sendPacketOnly (m.packet seq)).1 ++ rest) rx =
        some received ∧ received.stream = rest ∧
      (received.packet.getPayload = (s.sendPacketOnly (m.packet seq)).2.1.getPayload ∧
          received.packet.getSequence = (s.sendPacketOnly (m.packet seq)).2.1.getSequence ∧
          m.ReadsFrom received.packet ↔
        ¬ s.Numbered seq ∧ rx.getSequence = none ∧ ¬ LooksNumbered (m.packet seq).getPayload ∧
          ∀ last ∈ m.last, last.Some) ∧
      (received.packet.getSequence = (s.sendPacketOnly (m.packet seq)).2.1.getSequence ∧
          m.ReadsFrom received.packet ↔
        (s.Numbered seq ∨ rx.getSequence = none ∧ ¬ LooksNumbered (m.packet seq).getPayload) ∧
          ∀ last ∈ m.last, last.Some) := by
  have payload : (m.packet seq).getPayload = m.chars := by rw [m.packet_eq]; rfl
  have sentPayload : (s.sendPacketOnly (m.packet seq)).2.1.getPayload = m.chars := by
    rw [← payload, Session.sendPacketOnly, Session.number]
    simp only
    split <;> rfl
  rw [payload, sentPayload]
  by_cases numbered : s.Numbered seq
  · obtain ⟨byte, sent, sequence⟩ := Session.sendPacketOnly_of_numbered numbered m
    obtain ⟨acks, got⟩ := Session.getPacket_of_body peer junk (m.plain_numbered byte) rest rx
    have arrived := received_of_numbered m rx byte
    have reads : m.ReadsFrom (Packet.parseSequence (rx.clear.append
        (Packet.hexByte byte ++ Ch.colon :: m.chars))) ↔ ∀ last ∈ m.last, last.Some := by
      rw [arrived]
      exact Message.readsFrom_iff rfl
    rw [sent, sequence]
    refine ⟨_, got, rfl, ?_, ?_⟩
    · -- the payload keeps the three characters of the number
      refine iff_of_false (fun same => ?_) fun bare => bare.1 numbered
      have length := congrArg List.length same.1
      dsimp only at length
      rw [arrived, Packet.getPayload, List.length_append, List.length_cons] at length
      omega
    · exact and_congr (iff_of_true (by rw [arrived, Packet.getSequence_byte]) (Or.inl numbered)) reads
  · obtain ⟨sent, sequence⟩ := Session.sendPacketOnly_of_not_numbered numbered m
    obtain ⟨acks, got⟩ := Session.getPacket_of_body peer junk m.plain_chars rest rx
    rw [sent, sequence]
    refine ⟨_, got, rfl, ?_⟩
    simp only [numbered, not_false_eq_true, true_and, false_or]
    by_cases looks : LooksNumbered m.chars
    · -- the start of the payload has become a number
      obtain ⟨byte, arrived⟩ := received_of_looksNumbered rx looks
      simp [arrived, Packet.getSequence_byte, looks]
    · rw [received_of_not_numbered looks]
      have reads : m.ReadsFrom ⟨rx.seq, m.chars, 0⟩ ↔ ∀ last ∈ m.last, last.Some :=
        Message.readsFrom_iff rfl
      have kept : (Packet.mk rx.seq m.chars 0).getSequence = rx.getSequence := rfl
      rw [reads, kept]
      simp [Packet.getPayload, looks]

/-- The packet `12:` of one number comes out as the sequence number 0x12 in front of nothing. -/
theorem getPacket_takes_number :
    let m : Message := ⟨[.numberSep 0x12 ⟨Ch.colon, by decide, by decide, by decide⟩], none⟩
    let s : Session := ⟨0, 0⟩
    (s.sendPacketOnly (m.packet none)).2.1.getSequence = none ∧
      ((s.getPacket 0 (s.sendPacketOnly (m.packet none)).1 Packet.new).map fun received =>
        (received.packet.getSequence, (m.getFrom received.packet).1)) = some (some 0x12, none) := by
  decide

/-! ## Conversations -/

namespace Session

/-- Messages sent one behind the other, and their packets as sent. -/
def sendAll : Session → List (Message × Option (Fin 256)) → List Char8 × List Packet
  | _, [] => ([], [])
  | s, (m, seq) :: msgs =>
    let (chars, sent, s) := s.sendPacketOnly (m.packet seq)
    let (stream, more) := s.sendAll msgs
    (chars ++ stream, sent :: more)

/-- So many calls of `GetPacket` with the same packet. -/
def getAll (s : Session) (junk : BitVec 32) :
    Nat → List Char8 → Packet → Option (List Packet × List Char8)
  | 0, stream, _ => some ([], stream)
  | count + 1, stream, pkt => do
    let received ← s.getPacket junk stream pkt
    let (more, stream) ← s.getAll junk count received.stream received.packet
    pure (received.packet :: more, stream)

variable {s : Session} {seq : Option (Fin 256)} {rx : Packet} (peer : Session) (junk : BitVec 32)
  (rest : List Char8)

theorem getPacket_arrives (readable : ∀ last ∈ m.last, last.Some) (clear : s.Numbered seq ∨
      rx.getSequence = none ∧ ¬ s.Numbered seq ∧ ¬ LooksNumbered m.chars) :
    ∃ received, peer.getPacket junk ((s.sendPacketOnly (m.packet seq)).1 ++ rest) rx =
      some received ∧ received.stream = rest ∧ m.ReadsFrom received.packet ∧
      received.packet.getSequence = (s.sendPacketOnly (m.packet seq)).2.1.getSequence ∧
      (¬ s.Numbered seq → received.packet.getSequence = none) := by
  cases clear with
  | inl numbered =>
    obtain ⟨byte, sent, sequence⟩ := sendPacketOnly_of_numbered numbered m
    obtain ⟨acks, got⟩ := getPacket_of_body peer junk (m.plain_numbered byte) rest rx
    rw [sent, sequence]
    refine ⟨_, got, rfl, ?_⟩
    simp only [received_of_numbered]
    exact ⟨(Message.readsFrom_iff rfl).mpr readable, Packet.getSequence_byte .., absurd numbered⟩
  | inr clear =>
    obtain ⟨fresh, bare, other⟩ := clear
    obtain ⟨sent, sequence⟩ := sendPacketOnly_of_not_numbered bare m
    obtain ⟨acks, got⟩ := getPacket_of_body peer junk m.plain_chars rest rx
    rw [sent, sequence]
    refine ⟨_, got, rfl, ?_⟩
    simp only [received_of_not_numbered other]
    exact ⟨(Message.readsFrom_iff rfl).mpr readable, fresh, fun _ => fresh⟩

theorem sendPacketOnly_flags (pkt : Packet) : (s.sendPacketOnly pkt).2.2.flags = s.flags := by
  simp only [sendPacketOnly, number]
  split <;> rfl

/-- Nothing is lost and nothing comes twice: the packets of a conversation arrive in order with
    their numbers and values, when all are sent with a number, or none is and none looks as if. -/
theorem getAll_sendAll {msgs : List (Message × Option (Fin 256))}
    (readable : ∀ m ∈ msgs, ∀ last ∈ m.1.last, last.Some)
    (clear : (∀ m ∈ msgs, s.Numbered m.2) ∨ rx.getSequence = none ∧
      ∀ m ∈ msgs, ¬ s.Numbered m.2 ∧ ¬ LooksNumbered m.1.chars) :
    ∃ got, peer.getAll junk msgs.length ((s.sendAll msgs).1 ++ rest) rx = some (got, rest) ∧
      List.Forall₂ Message.ReadsFrom (msgs.map Prod.fst) got ∧
      got.map Packet.getSequence = (s.sendAll msgs).2.map Packet.getSequence := by
  induction msgs generalizing s rx with
  | nil => exact ⟨[], rfl, .nil, rfl⟩
  | cons m msgs ih =>
    simp only [List.forall_mem_cons] at readable clear
    generalize behind : (s.sendPacketOnly (m.1.packet m.2)).2.2 = s'
    have numbered (seq : Option (Fin 256)) : s'.Numbered seq ↔ s.Numbered seq := by
      simp only [Numbered, ← behind, sendPacketOnly_flags]
    obtain ⟨received, first, stream, reads, sequence, bare⟩ := getPacket_arrives peer junk
      ((s'.sendAll msgs).1 ++ rest) readable.1 (clear.imp And.left fun none => ⟨none.1, none.2.1⟩)
    obtain ⟨got, later, values, sequences⟩ := @ih s' received.packet readable.2 (by
      simp only [numbered]
      exact clear.imp And.right fun none => ⟨bare none.2.1.1, none.2.2⟩)
    refine ⟨received.packet :: got, ?_, .cons reads values, ?_⟩
    · simp [getAll, sendAll, behind, first, stream, later]
    · simp [sendAll, behind, sequence, sequences]

/-- The same number twice. -/
def sameTwice : List (Message × Option (Fin 256)) :=
  List.replicate 2 (⟨[.numberSep 0x12 ⟨Ch.colon, by decide, by decide, by decide⟩], none⟩, none)

theorem getAll_sendAll_sameTwice : ∃ got,
    getAll ⟨0, 0⟩ 0 2 ((sendAll ⟨useSeq, 0⟩ sameTwice).1 ++ []) Packet.new = some (got, []) ∧
      got.map Packet.getSequence = [some 0, some 1] := by
  obtain ⟨got, run, -, numbers⟩ := @getAll_sendAll ⟨useSeq, 0⟩ Packet.new ⟨0, 0⟩ 0 [] sameTwice
    (by simp [sameTwice]) (.inl fun _ _ => .inr (by decide))
  exact ⟨got, run, numbers.trans (by decide)⟩

end Session

end SandboxTEE.DebugStub
