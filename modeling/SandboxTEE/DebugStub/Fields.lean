import SandboxTEE.DebugStub.Packet
import Mathlib.Data.List.TakeWhile

/-! # Fields of a packet

What each `Add` function puts into a packet, as a list of characters, and that the matching
`Get` function reads the value back from a packet whose unread part starts with them.  None of
these characters is `*`, `#` or `$`, so no run is ever expanded.
-/

namespace SandboxTEE.DebugStub

open SandboxTEE.Lib (Word)

namespace Packet

/-- The characters that have not been read. -/
def unread (p : Packet) : List Char8 := p.data.drop p.readIndex

def skip (p : Packet) (n : Nat) : Packet := { p with readIndex := p.readIndex + n }

def append (p : Packet) (chars : List Char8) : Packet := { p with data := p.data ++ chars }

@[simp] theorem skip_seq (p : Packet) (n : Nat) : (p.skip n).seq = p.seq := rfl
@[simp] theorem skip_data (p : Packet) (n : Nat) : (p.skip n).data = p.data := rfl

@[simp] theorem unread_skip (p : Packet) (n : Nat) : (p.skip n).unread = p.unread.drop n := by
  rw [unread, unread, skip, List.drop_drop]

@[simp] theorem skip_skip (p : Packet) (m n : Nat) : (p.skip m).skip n = p.skip (m + n) := by
  simp only [skip, Nat.add_assoc]

@[simp] theorem append_append (p : Packet) (xs ys : List Char8) :
    (p.append xs).append ys = p.append (xs ++ ys) := by
  simp only [append, List.append_assoc]

@[simp] theorem append_nil (p : Packet) : p.append [] = p := by
  simp only [append, List.append_nil]

variable {rest : List Char8} {p : Packet}

theorem unread_tail {chars : List Char8} (here : p.unread = chars ++ rest) :
    (p.skip chars.length).unread = rest := by
  rw [unread_skip, here, List.drop_left]

/-! ## Characters -/

theorem getRawChar_of_unread {ch : Char8} (here : p.unread = ch :: rest) (plain : ch ≠ Ch.star)
    (old : Char8) : p.getRawChar old = ⟨true, ch, p.skip 1⟩ := by
  have first : p.data[p.readIndex]? = some ch := by
    rw [← List.head?_drop]
    exact congrArg List.head? here
  rw [getRawChar, first]
  exact if_neg plain

theorem getRawChar_of_end (here : p.unread = []) (old : Char8) :
    p.getRawChar old = ⟨false, old, p⟩ := by
  have first : p.data[p.readIndex]? = none := by
    rw [← List.head?_drop]
    exact congrArg List.head? here
  rw [getRawChar, first]

theorem addString_eq (p : Packet) (str : List Char8) : p.addString str = p.append str := by
  rw [addString]
  induction str generalizing p with
  | nil => exact p.append_nil.symm
  | cons ch str ih =>
    rw [List.foldl_cons, ih]
    exact p.append_append [ch] str

/-! ## Bytes -/

/-- Two digits. -/
def hexByte (byte : Char8) : List Char8 :=
  [intToNibble (highNibble byte), intToNibble (lowNibble byte)]

theorem length_flatMap_hexByte (str : List Char8) :
    (str.flatMap hexByte).length = 2 * str.length := by
  induction str with
  | nil => rfl
  | cons byte str ih =>
    rw [List.flatMap_cons, List.length_append, ih, List.length_cons, hexByte]
    simp only [List.length_cons, List.length_nil]
    omega

theorem addWord8_eq (p : Packet) (byte : Char8) : p.addWord8 byte = p.append (hexByte byte) :=
  p.append_append [_] [_]

theorem addBlock_eq (p : Packet) (block : List Char8) :
    p.addBlock block = p.append (block.flatMap hexByte) := by
  rw [addBlock]
  induction block generalizing p with
  | nil => exact p.append_nil.symm
  | cons byte block ih =>
    rw [List.foldl_cons, ih, addWord8_eq, append_append, List.flatMap_cons]

theorem addHexString_eq (p : Packet) (str : List Char8) :
    p.addHexString str = p.append (str.flatMap hexByte) := addBlock_eq p str

theorem intToNibble_plain (nibble : Fin 16) : intToNibble nibble ≠ Ch.star ∧
    intToNibble nibble ≠ Ch.hash ∧ intToNibble nibble ≠ Ch.dollar ∧
    intToNibble nibble ≠ Ch.minus := by
  revert nibble
  decide

theorem nibbles_byte (byte : Char8) :
    BitVec.ofNat 8 ((highNibble byte).val * 16 + (lowNibble byte).val) = byte := by
  refine BitVec.eq_of_toNat_eq ?_
  have := byte.isLt
  rw [BitVec.toNat_ofNat]
  simp only [highNibble, lowNibble]
  omega

theorem getWord8_of_unread {byte : Char8} (here : p.unread = hexByte byte ++ rest) :
    p.getWord8 = (some byte, p.skip 2) := by
  have first := getRawChar_of_unread here (intToNibble_plain _).1 Ch.nul
  have second := getRawChar_of_unread (p := p.skip 1)
    (by rw [unread_skip, here]; rfl) (intToNibble_plain (lowNibble byte)).1 Ch.nul
  simp [getWord8, first, second, nibbles_byte]

theorem getBlock_of_unread {block old : List Char8}
    (here : p.unread = block.flatMap hexByte ++ rest) (length : old.length = block.length) :
    p.getBlock old = (true, block, p.skip (block.flatMap hexByte).length) := by
  induction block generalizing old p with
  | nil =>
    rw [List.length_eq_zero_iff.mp length]
    rfl
  | cons byte block ih =>
    cases old with
    | nil => cases length
    | cons o old =>
      rw [List.flatMap_cons, List.append_assoc] at here
      have rest := ih (p := p.skip 2) (by rw [unread_skip, here]; rfl) (Nat.succ.inj length)
      rw [getBlock, getWord8_of_unread here]
      simp only
      rw [rest, skip_skip, length_flatMap_hexByte, length_flatMap_hexByte, List.length_cons,
        show 2 + 2 * block.length = 2 * (block.length + 1) by omega]

theorem getWord_of_unread {n : Nat} {val : Word n}
    (here : p.unread = val.bytes.flatMap hexByte ++ rest) :
    p.getWord n = (some val, p.skip (val.bytes.flatMap hexByte).length) := by
  rw [getWord, getBlock_of_unread here (by simp)]
  simp

/-! ## Strings -/

variable {str : List Char8}

theorem getString_of_unread (here : p.unread = str) (some : str ≠ [])
    (noNul : ∀ c ∈ str, c ≠ Ch.nul) : p.getString = (Option.some str, p.skip str.length) := by
  have inside : p.readIndex < p.data.length := by
    by_contra past
    exact some (here ▸ List.drop_eq_nil_of_le (by omega))
  have length : p.readIndex + str.length = p.data.length := by
    rw [← here, unread, List.length_drop]
    omega
  rw [getString, endOfPacket, if_neg (by simpa using inside), skip, length]
  have whole : str.takeWhile (· ≠ Ch.nul) = str := by
    rw [List.takeWhile_eq_self_iff]
    simpa using noNul
  rw [show p.data.drop p.readIndex = str from here, whole]

theorem getHexLoop_of_unread {before : List Char8} {fuel : Nat}
    (here : p.unread = str.flatMap hexByte) (enough : str.length < fuel) :
    getHexLoop fuel p before = (some (before ++ str), p.skip (str.flatMap hexByte).length) := by
  induction str generalizing p before fuel with
  | nil =>
    obtain ⟨fuel, rfl⟩ := Nat.exists_eq_succ_of_ne_zero (Nat.ne_zero_of_lt enough)
    simp [getHexLoop, getRawChar_of_end here, skip]
  | cons byte str ih =>
    obtain ⟨fuel, rfl⟩ := Nat.exists_eq_succ_of_ne_zero (Nat.ne_zero_of_lt enough)
    rw [List.flatMap_cons] at here
    have first := getRawChar_of_unread here (intToNibble_plain _).1 Ch.nul
    have second := getRawChar_of_unread (p := p.skip 1)
      (by rw [unread_skip, here]; rfl) (intToNibble_plain (lowNibble byte)).1 Ch.nul
    have rest := @ih (p.skip 2) (before ++ [byte]) fuel
      (by rw [unread_skip, here]; rfl) (by simpa using enough)
    rw [length_flatMap_hexByte] at rest ⊢
    simp [getHexLoop, first, second, nibbles_byte, rest, Nat.mul_add, Nat.add_comm]

theorem length_unread (p : Packet) : p.unread.length = p.data.length - p.readIndex :=
  List.length_drop ..

theorem getHexString_of_unread (here : p.unread = str.flatMap hexByte) (some : str ≠ []) :
    p.getHexString = (Option.some str, p.skip (str.flatMap hexByte).length) := by
  have length := p.length_unread
  have := List.length_pos_iff.mpr some
  rw [here, length_flatMap_hexByte] at length
  rw [getHexString, endOfPacket, if_neg (by simp; omega),
    getHexLoop_of_unread here (by rw [readBound]; omega)]
  rfl

/-! ## Numbers -/

/-- The digits of a number, the least significant first, two for each byte. -/
def numberDigits : Nat → Nat → List (Fin 16)
  | 0, _ => []
  | bytes + 1, val =>
    ⟨val % 16, lowNibble_lt val⟩ :: ⟨val / 16 % 16, highNibble_lt val⟩ ::
      if val / 256 = 0 then [] else numberDigits bytes (val / 256)

/-- Without the high zero. -/
def stripDigits (digits : List (Fin 16)) : List (Fin 16) :=
  if 1 < digits.length ∧ digits.getLast? = some 0 then digits.dropLast else digits

/-- The number that digits stand for. -/
def digitsValue (digits : List (Fin 16)) : Nat := digits.foldr (fun d n => d.val + 16 * n) 0

theorem numberNibbles_eq (bytes val : Nat) :
    numberNibbles bytes val = (numberDigits bytes val).map intToNibble := by
  induction bytes generalizing val with
  | zero => rfl
  | succ bytes ih =>
    rw [numberNibbles, numberDigits, List.map_cons, List.map_cons]
    split
    · rfl
    · rw [ih]

theorem intToNibble_eq_zero {digit : Fin 16} : intToNibble digit = Ch.zero ↔ digit = 0 := by
  revert digit
  decide

variable (digits : List (Fin 16))

theorem stripHighZero_eq :
    stripHighZero (digits.map intToNibble) = (stripDigits digits).map intToNibble := by
  have last : (digits.map intToNibble).getLast? = some Ch.zero ↔ digits.getLast? = some 0 := by
    rw [List.getLast?_map, Option.map_eq_some_iff]
    constructor
    · rintro ⟨digit, eq, zero⟩
      rw [eq, intToNibble_eq_zero.mp zero]
    · exact fun eq => ⟨0, eq, rfl⟩
  rw [stripHighZero, stripDigits, List.length_map]
  simp only [last]
  split
  · rw [List.map_dropLast]
  · rfl

theorem digitsValue_numberDigits (bytes val : Nat) (bound : val < 256 ^ bytes) (some : 0 < bytes) :
    digitsValue (numberDigits bytes val) = val := by
  induction bytes generalizing val with
  | zero => cases some
  | succ bytes ih =>
    rw [numberDigits]
    simp only [digitsValue, List.foldr_cons] at ih ⊢
    split
    · simp only [List.foldr_nil]
      omega
    · next more =>
      have below : val / 256 < 256 ^ bytes := Nat.div_lt_of_lt_mul (by
        rwa [Nat.pow_succ, Nat.mul_comm] at bound)
      have rest : 0 < bytes := by
        cases bytes with
        | zero => simp at below; omega
        | succ bytes => exact Nat.succ_pos _
      rw [ih _ below rest]
      omega

theorem digitsValue_stripDigits :
    digitsValue (stripDigits digits) = digitsValue digits := by
  unfold stripDigits
  split
  · next high =>
    obtain ⟨init, rfl⟩ := List.getLast?_eq_some_iff.mp high.2
    rw [List.dropLast_concat, digitsValue, digitsValue, List.foldr_append]
    rfl
  · rfl

theorem stripDigits_ne_nil (bytes val : Nat) : stripDigits (numberDigits (bytes + 1) val) ≠ [] := by
  unfold stripDigits
  split
  · next high =>
    intro nil
    have := congrArg List.length nil
    rw [List.length_dropLast, List.length_nil] at this
    omega
  · simp [numberDigits]

/-- The digits of `val` in the order in which they are sent. -/
def sentDigits (val : Nat) : List (Fin 16) := (stripDigits (numberDigits 8 val)).reverse

/-- The characters sent for a number. -/
def numberChars (val : BitVec 64) : List Char8 :=
  if val = -1 then [Ch.minus, Ch.one] else (sentDigits val.toNat).map intToNibble

variable {sep : Char8}

theorem addNumberSep_eq (p : Packet) (val : BitVec 64) (some : sep ≠ Ch.nul) :
    p.addNumberSep val sep = p.append (numberChars val ++ [sep]) := by
  rw [addNumberSep, if_pos some, numberChars, ← append_append]
  split
  · simp [append, addRawChar]
  · rw [numberNibbles_eq, stripHighZero_eq, ← List.map_reverse]
    exact congrArg (fun q => Packet.addRawChar q sep) (addString_eq p _)

/-- What the loop of `GetNumberSep` makes of digits. -/
def readDigits (out : BitVec 64) (digits : List (Fin 16)) : BitVec 64 :=
  digits.foldl (fun out d => (out <<< 4) + BitVec.ofNat 64 d.val) out

theorem readDigits_ofNat (n : Nat) :
    readDigits (BitVec.ofNat 64 n) digits =
      BitVec.ofNat 64 (digits.foldl (fun n d => d.val + 16 * n) n) := by
  induction digits generalizing n with
  | nil => rfl
  | cons d digits ih =>
    have step : (BitVec.ofNat 64 n <<< 4) + BitVec.ofNat 64 d.val =
        BitVec.ofNat 64 (d.val + 16 * n) := by
      rw [BitVec.shiftLeft_eq_mul_twoPow, BitVec.add_comm, Nat.mul_comm, BitVec.ofNat_add,
        BitVec.ofNat_mul]
      rfl
    rw [readDigits, List.foldl_cons, step]
    exact ih _

theorem readDigits_sentDigits (val : BitVec 64) : readDigits 0 (sentDigits val.toNat) = val := by
  refine (readDigits_ofNat _ 0).trans ?_
  rw [sentDigits, List.foldl_reverse]
  have := digitsValue_stripDigits (numberDigits 8 val.toNat)
  rw [digitsValue_numberDigits 8 _ (by simpa using val.isLt) (by decide), digitsValue] at this
  rw [this, BitVec.ofNat_toNat, BitVec.setWidth_eq]

/-- The loop reads the digits and the separator behind them. -/
theorem getNumberLoop_of_unread {digits : List (Fin 16)} {digit : Fin 16} {out : BitVec 64}
    {fuel : Nat} (here : p.unread = digits.map intToNibble ++ sep :: rest)
    (noDigit : nibbleToInt sep = none) (noStar : sep ≠ Ch.star)
    (enough : digits.length + 1 < fuel) : getNumberLoop fuel p (intToNibble digit) out =
      (readDigits out (digit :: digits), sep, p.skip (digits.length + 1)) := by
  induction digits generalizing digit p out fuel with
  | nil =>
    obtain ⟨fuel, rfl⟩ := Nat.exists_eq_succ_of_ne_zero (Nat.ne_zero_of_lt enough)
    obtain ⟨fuel, rfl⟩ := Nat.exists_eq_succ_of_ne_zero (n := fuel) (by rintro rfl; omega)
    have next := getRawChar_of_unread here noStar Ch.nul
    simp [getNumberLoop, next, noDigit, readDigits]
  | cons d digits ih =>
    obtain ⟨fuel, rfl⟩ := Nat.exists_eq_succ_of_ne_zero (Nat.ne_zero_of_lt enough)
    rw [List.map_cons, List.cons_append] at here
    have next := getRawChar_of_unread here (intToNibble_plain d).1 Ch.nul
    rw [getNumberLoop, nibbleToInt_intToNibble, next]
    simp only [if_true]
    rw [ih (by rw [unread_skip, here]; rfl) (by simpa using enough), skip_skip,
      Nat.add_comm 1]
    rfl

theorem getNumberSep_of_unread {val : BitVec 64} (here : p.unread = numberChars val ++ sep :: rest)
    (noDigit : nibbleToInt sep = none) (noStar : sep ≠ Ch.star) :
    p.getNumberSep = (some (val, sep), p.skip ((numberChars val).length + 1)) := by
  unfold numberChars at here ⊢
  split at here
  · next minusOne =>
    have first := getRawChar_of_unread here (by decide) Ch.nul
    have second := getRawChar_of_unread (p := p.skip 1) (by rw [unread_skip, here]; rfl)
      (by decide) Ch.minus
    have third := getRawChar_of_unread (p := p.skip 2)
      (by rw [unread_skip, here]; rfl) noStar Ch.nul
    simp [getNumberSep, first, second, third, minusOne]
  · next other =>
    rw [if_neg other]
    obtain ⟨digit, digits, sent⟩ := List.exists_cons_of_ne_nil (l := sentDigits val.toNat)
      (by simpa [sentDigits] using stripDigits_ne_nil 7 val.toNat)
    have value := readDigits_sentDigits val
    rw [sent] at here value ⊢
    have length := p.length_unread
    rw [here] at length
    simp only [List.map_cons, List.cons_append, List.length_cons, List.length_append,
      List.length_map] at here length ⊢
    have first := getRawChar_of_unread here (intToNibble_plain digit).1 Ch.nul
    rw [getNumberSep, first]
    simp only [Bool.true_eq_false, if_false, (intToNibble_plain digit).2.2.2]
    rw [getNumberLoop_of_unread (p := p.skip 1) (by rw [unread_skip, here]; rfl) noDigit noStar
      (by rw [readBound]; omega), value, skip_skip, Nat.add_comm 1]

end Packet

end SandboxTEE.DebugStub
